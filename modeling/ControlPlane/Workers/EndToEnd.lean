/-
  END TO END: a job from the request to its last save, through the worker and back.

  `invoke_offload` admits a request, or `_create_orchestration_job` plans a shard.  `_runpod_input`
  signs a URL for the input and one for the output, a worker reads the one and writes to the other,
  RunPod carries its answer back, and `_run_runpod_offload` looks at what is stored before it writes
  the row.
  The two sides share SHA-256 and Arrow (`Deployment`), and between them stand RunPod and the object
  store (`Carried`), which answer when and as often as they like.

  1. `finish_output`, `handler_output`: an answer with an output is a delivery, and no other is.
  2. `succeeded_delivered`: a job that is SUCCEEDED was delivered, and its columns describe that.
  3. `delivered_succeeded`: a delivery that nobody interrupts ends SUCCEEDED.
  4. `offload_end_to_end`, `shard_end_to_end`, from the request.
-/
import ControlPlane.JsonWrite
import ControlPlane.Orchestration.Verified
import ControlPlane.Workers.Handlers
import ControlPlane.Workers.Wire

namespace ControlPlane.Workers

open Competence (validateKey)
open Orchestration (ArrowTable ArrowColumn Backend Carries CommunityError Poll Record RemoteJob
  RemoteState Response communityAssign endsWait runRunpodOffload success)
open PyStr (lit)
open UnionFind (Components)

/-! ## Both sides -/

/-- The control plane and the workers, with one SHA-256, one Arrow and one limit. -/
structure Deployment where
  backend : Backend
  platform : Platform
  signing : SigningStore
  sha256 : ∀ payload, platform.hexdigest payload = lit (backend.hexdigest payload)
  hex64 : ∀ payload, Text.isHex64 (backend.hexdigest payload) = true
  /-- What the offload worker encodes is read back with its schema and its rows. -/
  encode : ∀ table, backend.decode (platform.encode table) =
    some (OffloadWorker.outputSchemaJson, table.length)
  /-- And what the extraction worker encodes. -/
  fromPylist : ∀ rows contract d, platform.fromPylist rows contract = .ok d →
    backend.decode d.payload = some (d.schemaJson, d.rows)
  /-- `ARTIFACT_MAX_BYTES`. -/
  maxBytes : signing.maxBytes = backend.maxBytes

/-- What RunPod and the object store make of a run: a COMPLETED answer carries what the handler has
    returned, and what is read behind a PUT that went through is what was put. -/
structure Carried (p : Platform) (run : Run) {b : Backend} (x : RemoteJob b) : Prop where
  answers : ∀ poll ∈ x.first :: x.later, ∀ s, b.status poll.reply = .ok s → s.status = lit success →
    ∃ reply, run.result = .ok reply ∧ Json.get? s.payload "output" = some (.obj reply)
  stored : ∀ url payload response, (url, payload) ∈ run.sent → p.put url payload = .ok () →
    x.objects x.outputKey = .ok response → response = ⟨payload.length, payload⟩

/-- The run has uploaded this and said so. -/
def Run.Delivers (p : Platform) (url : PyStr) (d : Delivery) (run : Run) : Prop :=
  run = ⟨.ok (outputReply p d), [(url, d.payload)]⟩ ∧ p.put url d.payload = .ok ()

/-- The polls are answered, nobody cancels the job, and this is the first answer that ends the wait. -/
inductive Ends (b : Backend) (s : RemoteState) : Poll → List Poll → Prop where
  | last {p : Poll} {later : List Poll} : b.status p.reply = .ok s → p.canceled = false →
      endsWait s.status = true → Ends b s p later
  | later {p next : Poll} {later : List Poll} {s' : RemoteState} : b.status p.reply = .ok s' →
      p.canceled = false → endsWait s'.status = false → Ends b s next later → Ends b s p (next :: later)

/-- `_run_runpod_offload`, from `wait` on, for a job that is RUNNING. -/
def outcome {b : Backend} (x : RemoteJob b) (record : Record b) : Record b × Except PyError Unit :=
  runRunpodOffload b x { record with status := .running }

/-- RunPod reports COMPLETED in the end, what was uploaded can be read, nobody cancels the job, and the
    task returns. -/
structure Uninterrupted (p : Platform) (run : Run) {b : Backend} (x : RemoteJob b) (record : Record b) :
    Prop where
  completes : ∃ s, Ends b s x.first x.later ∧ s.status = lit success
  reads : ∀ url payload, (url, payload) ∈ run.sent → p.put url payload = .ok () →
    (x.objects x.outputKey).isOk = true
  kept : x.canceled = false
  returns : (outcome x record).2.isOk = true

theorem Run.Delivers.sent {p : Platform} {url : PyStr} {d : Delivery} {run : Run}
    (h : run.Delivers p url d) : (url, d.payload) ∈ run.sent := by
  rw [h.1]
  exact List.mem_singleton.mpr rfl

/-! ## Answers with an output -/

section Answering

variable {p : Platform} {cs : List ErrorClass} {contract : String} {url : PyStr}
  {work : Except Raised Work} {reply fields descriptor output params : Fields} {d : Delivery}

theorem failed_output {sent : List (PyStr × List UInt8)} {e : Raised}
    (h : (failed cs contract sent e).result = .ok reply) : Json.get? reply "output" = none := by
  unfold failed at h
  split at h
  · cases h
    rfl
  · cases h

/-- An output in the answer is a delivery. -/
theorem finish_output (h : (finish p cs contract url work).result = .ok reply)
    (houtput : Json.get? reply "output" ≠ none) :
    ∃ d, work = .ok (.deliver d) ∧ (finish p cs contract url work).Delivers p url d := by
  unfold finish at h ⊢
  split at h
  · exact absurd (failed_output h) houtput
  · cases h
    exact absurd rfl houtput
  · rename_i d
    cases hput : p.put url d.payload with
    | error e =>
      rw [hput] at h
      exact absurd (failed_output h) houtput
    | ok u => exact ⟨d, rfl, rfl, hput⟩

/-- Work that is uploaded is a delivery. -/
theorem finish_delivers (hwork : work = .ok (.deliver d)) (hput : p.put url d.payload = .ok ()) :
    (finish p cs contract url work).Delivers p url d := by
  rw [hwork, finish, hput]
  exact ⟨rfl, hput⟩

theorem refused_output {prompt : String} {stop : Stop} (h : (refused prompt stop).result = .ok reply) :
    Json.get? reply "output" = none := by
  cases stop with
  | invalid message =>
    cases h
    rfl
  | raised e => cases h

/-- The offload worker has an output for a valid request of one operation, whose work it delivers. -/
theorem OffloadWorker.handler_output (h : (OffloadWorker.handler p (.obj fields)).result = .ok reply)
    (houtput : Json.get? reply "output" ≠ none) :
    ∃ descriptor output d, OffloadWorker.Valid fields descriptor output ∧
      isText OffloadWorker.community (get fields "operation") = true ∧
      OffloadWorker.work p descriptor (maxBytesOf p fields) = .ok (.deliver d) ∧
      (OffloadWorker.handler p (.obj fields)).Delivers p (text (get output "write_url")) d := by
  unfold OffloadWorker.handler at h ⊢
  cases hvalid : OffloadWorker.validateInput (.obj fields) with
  | error stop =>
    rw [hvalid] at h
    exact absurd (refused_output h) houtput
  | ok u =>
    obtain ⟨fields', descriptor, output, heq, hfields⟩ := OffloadWorker.validateInput_iff.mp hvalid
    cases heq
    rw [hvalid] at h
    dsimp only at h ⊢
    split at h
    · cases h
      exact absurd rfl houtput
    · rename_i hcommunity
      rw [if_neg hcommunity]
      rw [hfields.artifacts.input, hfields.artifacts.outputMapping] at h ⊢
      obtain ⟨d, hwork, hdelivers⟩ := finish_output h houtput
      exact ⟨descriptor, output, d, hfields, by simpa using hcommunity, hwork, hdelivers⟩

theorem OffloadWorker.handler_delivers (hvalid : OffloadWorker.Valid fields descriptor output)
    (hcommunity : isText OffloadWorker.community (get fields "operation") = true)
    (hwork : OffloadWorker.work p descriptor (maxBytesOf p fields) = .ok (.deliver d))
    (hput : p.put (text (get output "write_url")) d.payload = .ok ()) :
    (OffloadWorker.handler p (.obj fields)).Delivers p (text (get output "write_url")) d := by
  have haccepted := OffloadWorker.validateInput_iff.mpr ⟨fields, descriptor, output, rfl, hvalid⟩
  unfold OffloadWorker.handler
  rw [haccepted]
  dsimp only
  rw [if_neg (by simp [hcommunity]), hvalid.artifacts.input, hvalid.artifacts.outputMapping]
  exact finish_delivers hwork hput

/-- The extraction worker has an output for a valid request whose work it delivers. -/
theorem ExtractionWorker.handler_output
    (h : (ExtractionWorker.handler p (.obj fields)).result = .ok reply)
    (houtput : Json.get? reply "output" ≠ none) :
    ∃ descriptor output params d,
      ExtractionWorker.Valid p.maxArtifactBytes fields descriptor output params ∧
      ExtractionWorker.work p (get fields "operation") descriptor params (maxBytesOf p fields) =
        .ok (.deliver d) ∧
      (ExtractionWorker.handler p (.obj fields)).Delivers p (text (get output "write_url")) d := by
  have hexecute : ExtractionWorker.handler p (.obj fields) = ExtractionWorker.execute p (.obj fields) :=
    rfl
  rw [hexecute] at h ⊢
  unfold ExtractionWorker.execute at h ⊢
  cases hvalid : ExtractionWorker.validateInput p.maxArtifactBytes (.obj fields) with
  | error stop =>
    rw [hvalid] at h
    exact absurd (refused_output h) houtput
  | ok u =>
    obtain ⟨fields', descriptor, output, params, heq, hfields⟩ :=
      ExtractionWorker.validateInput_iff.mp hvalid
    cases heq
    rw [hvalid] at h
    dsimp only at h ⊢
    rw [hfields.artifacts.input, hfields.artifacts.outputMapping, hfields.paramsMapping] at h ⊢
    obtain ⟨d, hwork, hdelivers⟩ := finish_output h houtput
    exact ⟨descriptor, output, params, d, hfields, hwork, hdelivers⟩

theorem ExtractionWorker.handler_delivers
    (hvalid : ExtractionWorker.Valid p.maxArtifactBytes fields descriptor output params)
    (hwork : ExtractionWorker.work p (get fields "operation") descriptor params (maxBytesOf p fields) =
      .ok (.deliver d))
    (hput : p.put (text (get output "write_url")) d.payload = .ok ()) :
    (ExtractionWorker.handler p (.obj fields)).Delivers p (text (get output "write_url")) d := by
  have haccepted := ExtractionWorker.validateInput_iff.mpr
    ⟨fields, descriptor, output, params, rfl, hvalid⟩
  have hexecute : ExtractionWorker.handler p (.obj fields) = ExtractionWorker.execute p (.obj fields) :=
    rfl
  rw [hexecute]
  unfold ExtractionWorker.execute
  rw [haccepted]
  dsimp only
  rw [hvalid.artifacts.input, hvalid.artifacts.outputMapping, hvalid.paramsMapping]
  exact finish_delivers hwork hput

end Answering

/-! ## The control plane's side -/

section Control

variable {D : Deployment} {run : Run} {x : RemoteJob D.backend} {record row : Record D.backend}
  {url : PyStr} {d : Delivery} {P : Delivery → Prop} {s : RemoteState}

theorem isSha256Address_hex64 {digits : String} (h : Text.isHex64 digits = true) :
    Competence.isSha256Address ("sha256:" ++ digits) = true := by
  rw [Competence.isSha256Address, Text.startswith_append, Text.bytes_append,
    List.drop_left' (by decide)]
  exact h

/-- Both sides write a digest the same. -/
theorem Deployment.digest_eq (D : Deployment) (payload : List UInt8) :
    D.platform.digest payload = D.backend.sha256Digest payload := by
  rw [Platform.digest, D.sha256, Orchestration.StoreSettings.sha256Digest, PyStr.lit_append]

/-- What an answer says of its output. -/
def described (p : Platform) (d : Delivery) : Fields :=
  [(lit "schema_json", .str d.schemaJson), (lit "rows", .int d.rows),
    (lit "payload_digest", .str (p.digest d.payload))]

/-- The control plane understands it. -/
theorem Deployment.descriptor_ok (D : Deployment) (d : Delivery) :
    Orchestration.outputDescriptor (.obj (described D.platform d)) =
      .ok ⟨D.platform.digest d.payload, d.schemaJson, some d.rows⟩ := by
  have hschema : (Json.get? (described D.platform d) "schema_json").getD .null =
      .str d.schemaJson := rfl
  have hdigest : (Json.get? (described D.platform d) "payload_digest").getD .null =
      .str (D.platform.digest d.payload) := rfl
  have hrows : (Json.get? (described D.platform d) "rows").getD .null = .int d.rows := rfl
  have hsha : (D.platform.digest d.payload).isSha256Digest = true := by
    rw [D.digest_eq]
    exact isSha256Digest_lit (isSha256Address_hex64 (D.hex64 _))
  have hnatural : ¬ (d.rows : Int) < 0 := not_lt.mpr (Int.natCast_nonneg _)
  simp only [Orchestration.outputDescriptor, hschema, hdigest, hrows, hsha, if_true,
    Orchestration.descriptorRows, hnatural, if_false]

/-- **A job that is SUCCEEDED** was delivered by the run, and its columns describe what is stored. -/
theorem succeeded_delivered (hcarried : Carried D.platform run x)
    (hrun : ∀ reply, run.result = .ok reply → Json.get? reply "output" ≠ none →
      ∃ d, run.Delivers D.platform url d ∧ P d)
    (h : (outcome x record).1.status = .succeeded) :
    ∃ d response schemaJson rows, P d ∧ run.Delivers D.platform url d ∧
      x.objects x.outputKey = .ok response ∧ response.body = d.payload ∧
      D.backend.decode d.payload = some (schemaJson, rows) ∧
      (outcome x record).1.Holds ⟨x.outputKey, D.platform.digest d.payload, schemaJson, rows⟩ := by
  obtain ⟨artifact, response, claimed, hholds, hkey, hobject, hdescribes, hclaims, -, -⟩ :=
    (@Orchestration.owes_run D.backend x { record with status := .running } rfl).2 h
  obtain ⟨poll, hpoll, s, output, hstatus, hsuccess, hhandler, hdescriptor⟩ := hclaims
  obtain ⟨reply, hreply, hcarries⟩ := hcarried.answers poll hpoll s hstatus hsuccess
  have houtput : Json.get? reply "output" ≠ none := by
    intro hnone
    unfold Orchestration.handlerOutput at hhandler
    rw [hcarries] at hhandler
    dsimp only at hhandler
    split at hhandler
    · obtain ⟨_, -, hraises⟩ := Fallible.bind_ok.mp hhandler
      cases hraises
    · rw [hnone] at hhandler
      cases hhandler
      cases hdescriptor
  obtain ⟨d, hdelivers, hd⟩ := hrun reply hreply houtput
  have hbody : response.body = d.payload := by
    rw [hcarried.stored url d.payload response hdelivers.sent hdelivers.2 hobject]
  rw [hbody] at hdescribes
  obtain ⟨key, digest, schemaJson, rows⟩ := artifact
  obtain ⟨rfl, hdecode⟩ := hdescribes
  cases hkey
  refine ⟨d, response, schemaJson, rows, hd, hdelivers, hobject, hbody, hdecode, ?_⟩
  rw [D.digest_eq]
  exact hholds

/-- The wait ends with the answer that ends it, or an exception leaves the task. -/
theorem wait_ends {b : Backend} {x : RemoteJob b} {row : Record b} {p : Poll} {later : List Poll}
    {seen : Orchestration.Seen} (h : Ends b s p later) (hrow : row.status = .running) :
    (∃ row', row'.status = .running ∧ Orchestration.wait b x p later seen row = (row', .ok s)) ∨
      ∃ row' e, Orchestration.wait b x p later seen row = (row', .error e) ∧
        e.caughtBy Orchestration.waitHandlers = false := by
  induction h generalizing seen row with
  | last hstatus hcanceled hover =>
    rcases Orchestration.round_answered hrow hstatus hcanceled with
      ⟨e, hround, huncaught, -⟩ | ⟨_, row', -, -, hrow', hround⟩
    · exact Or.inr ⟨row, e, Orchestration.wait_error hround, huncaught⟩
    · exact Or.inl ⟨row', hrow', Orchestration.wait_over hround hover⟩
  | later hstatus hcanceled hover _ ih =>
    rcases Orchestration.round_answered hrow hstatus hcanceled with
      ⟨e, hround, huncaught, -⟩ | ⟨_, row', -, -, hrow', hround⟩
    · exact Or.inr ⟨row, e, Orchestration.wait_error hround, huncaught⟩
    · rw [Orchestration.wait_next hround hover]
      exact ih hrow'

/-- Where the task is not interrupted, the last answer is concluded. -/
theorem Uninterrupted.concluded (h : Uninterrupted D.platform run x record) :
    ∃ s row, (∃ poll ∈ x.first :: x.later, D.backend.status poll.reply = .ok s) ∧
      s.status = lit success ∧ row.status = .running ∧
      outcome x record = Orchestration.concluded D.backend x row s := by
  obtain ⟨s, hends, hsuccess⟩ := h.completes
  have hreturns := h.returns
  have hleaves := (@Orchestration.wait_leaves D.backend x x.first x.later {}
    { record with status := .running } rfl).2
  unfold outcome runRunpodOffload at hreturns ⊢
  rcases @wait_ends s _ x { record with status := .running } _ _ {} hends rfl with
    ⟨row, hrow, hwait⟩ | ⟨row, e, hwait, huncaught⟩
  · rw [hwait] at hleaves ⊢
    refine ⟨s, row, hleaves s rfl, hsuccess, hrow, ?_⟩
    rw [Orchestration.settle, h.kept]
    rfl
  · rw [hwait, Orchestration.settle, Orchestration.interrupted, huncaught] at hreturns
    cases hreturns

/-- A delivery that is stored is verified. -/
theorem delivered_verified (hcarried : Carried D.platform run x)
    (hdelivers : run.Delivers D.platform url d)
    (hpoll : ∃ poll ∈ x.first :: x.later, D.backend.status poll.reply = .ok s)
    (hsuccess : s.status = lit success) (hread : (x.objects x.outputKey).isOk = true)
    (hdecode : D.backend.decode d.payload = some (d.schemaJson, d.rows))
    (hlength : d.payload.length ≤ D.backend.maxBytes)
    (hkey : Competence.validateKey x.tenantId x.outputKey = .ok ()) :
    Orchestration.verifiedOutput D.backend x s.payload =
      .ok ⟨x.outputKey, D.backend.sha256Digest d.payload, d.schemaJson, d.rows⟩ := by
  obtain ⟨poll, hpoll, hstatus⟩ := hpoll
  obtain ⟨reply, hreply, hcarries⟩ := hcarried.answers poll hpoll s hstatus hsuccess
  have hobject : x.objects x.outputKey = .ok ⟨d.payload.length, d.payload⟩ := by
    obtain ⟨response, hresponse⟩ := Fallible.isOk_iff.mp hread
    rw [hresponse, hcarried.stored url d.payload response hdelivers.sent hdelivers.2 hresponse]
  rw [hdelivers.1] at hreply
  cases hreply
  have hhandler : Orchestration.handlerOutput D.backend s.payload =
      .ok (.obj (described D.platform d)) := by
    unfold Orchestration.handlerOutput
    rw [hcarries]
    rfl
  have hbytes : D.backend.getBytes (fun key => (x.objects key).mapError Orchestration.Refusal.raised)
      x.tenantId x.outputKey = .ok d.payload := by
    refine Fallible.bind_ok.mpr ⟨(), hkey, ?_⟩
    refine Fallible.bind_ok.mpr ⟨_, Fallible.mapError_ok.mpr hobject, ?_⟩
    exact if_neg (by simpa using hlength)
  have hcheck : D.backend.checkArrow x.outputKey
      ⟨D.platform.digest d.payload, d.schemaJson, some d.rows⟩ d.payload =
        .ok ⟨x.outputKey, D.backend.sha256Digest d.payload, d.schemaJson, d.rows⟩ := by
    unfold Orchestration.StoreSettings.checkArrow
    rw [D.digest_eq, hdecode]
    simp
  unfold Orchestration.verifiedOutput
  rw [hhandler]
  refine Fallible.bind_ok.mpr ⟨_, rfl, Fallible.bind_ok.mpr ⟨_, D.descriptor_ok d, ?_⟩⟩
  rw [Fallible.mapError_ok]
  exact Fallible.bind_ok.mpr ⟨_, hbytes, hcheck⟩

/-- **A delivery that nobody interrupts** ends SUCCEEDED. -/
theorem delivered_succeeded (hcarried : Carried D.platform run x)
    (hdelivers : run.Delivers D.platform url d)
    (hdecode : D.backend.decode d.payload = some (d.schemaJson, d.rows))
    (hlength : d.payload.length ≤ D.backend.maxBytes)
    (hkey : Competence.validateKey x.tenantId x.outputKey = .ok ())
    (h : Uninterrupted D.platform run x record) :
    (outcome x record).1.status = .succeeded := by
  obtain ⟨s, row, hpoll, hsuccess, hrow, hconcluded⟩ := h.concluded
  have hreturns := h.returns
  have hverified := delivered_verified hcarried hdelivers hpoll hsuccess
    (h.reads url d.payload hdelivers.sent hdelivers.2) hdecode hlength hkey
  have hrunning : ¬ row.status = .canceled := fun hcanceled => nomatch hrow.symm.trans hcanceled
  rw [hconcluded, Orchestration.concluded, if_pos hsuccess, hverified] at hreturns ⊢
  simp only [hrunning, if_false] at hreturns ⊢
  cases hcomplete : Orchestration.complete D.backend x row
      ⟨x.outputKey, D.backend.sha256Digest d.payload, d.schemaJson, d.rows⟩ with
  | error e =>
    rw [hcomplete] at hreturns
    cases hreturns
  | ok row' => exact (Orchestration.complete_columns hcomplete).1

theorem failJob_failed {b : Backend} {row : Record b} {error : PyStr} (hrow : row.status = .running)
    (h : (Orchestration.failJob b row error).2.isOk = true) :
    (Orchestration.failJob b row error).1.status = .failed := by
  have hrunning : ¬ row.status = .canceled := fun hcanceled => nomatch hrow.symm.trans hcanceled
  unfold Orchestration.failJob at h ⊢
  simp only [hrunning, if_false] at h ⊢
  unfold Record.save at h ⊢
  split at h
  · rename_i written hwrite
    obtain ⟨_, -, hwrite⟩ := Fallible.bind_ok.mp hwrite
    obtain ⟨_, -, hwrite⟩ := Fallible.bind_ok.mp hwrite
    cases hwrite
    rfl
  · cases h

/-- A job that nobody interrupts ends SUCCEEDED or FAILED. -/
theorem Uninterrupted.settles
    (h : Uninterrupted D.platform run x record) :
    (outcome x record).1.status = .succeeded ∨ (outcome x record).1.status = .failed := by
  obtain ⟨s, row, -, hsuccess, hrow, hconcluded⟩ := h.concluded
  have hreturns := h.returns
  have hrunning : ¬ row.status = .canceled := fun hcanceled => nomatch hrow.symm.trans hcanceled
  rw [hconcluded, Orchestration.concluded, if_pos hsuccess] at hreturns ⊢
  cases hverified : Orchestration.verifiedOutput D.backend x s.payload with
  | error e =>
    simp only [hverified] at hreturns ⊢
    split at hreturns
    · rename_i hcaught
      rw [if_pos hcaught]
      exact Or.inr (failJob_failed hrow hreturns)
    · cases hreturns
  | ok artifact =>
    simp only [hverified, hrunning, if_false] at hreturns ⊢
    cases hcomplete : Orchestration.complete D.backend x row artifact with
    | error e =>
      rw [hcomplete] at hreturns
      cases hreturns
    | ok row' => exact Or.inl (Orchestration.complete_columns hcomplete).1

end Control

/-! ## What is sent -/

section Sending

variable {store : SigningStore} {t operationId key : String} {job : Orchestration.Submission}
  {payload : Fields} {edges : List (PyStr × PyStr)} {table : ArrowTable} {sources targets : List PyStr}
  {values : List (Option PyStr)}

/-- The input of a payload. -/
def sentInput (job : Orchestration.Submission) (rows : Int) (readUrl : PyStr) : Fields :=
  [(lit "schema_json", .str (lit job.inputSchemaJson)), (lit "rows", .int rows),
    (lit "payload_digest", .str (lit job.inputPayloadDigest)),
    (lit "artifact_key", .str (lit job.inputArtifactKey)), (lit "read_url", .str readUrl)]

/-- Its output. -/
def sentOutput (key : String) (writeUrl : PyStr) : Fields :=
  [(lit "artifact_key", .str (lit key)), (lit "write_url", .str writeUrl)]

/-- A payload has a URL for the input of the job and one for the output, and nothing else is signed. -/
theorem runpodInput_urls (h : runpodInput store (some t) operationId job key = .ok payload) :
    ∃ readUrl writeUrl rows, store.presignGet t job.inputArtifactKey = .ok readUrl ∧
      store.presignPut t key = .ok writeUrl ∧ validateKey t key = .ok () ∧
      job.inputRows = some rows ∧
      Sent store operationId job payload (sentInput job rows readUrl) (sentOutput key writeUrl)
        rows := by
  obtain ⟨descriptor, output, rows, hrows, hsent⟩ := runpodInput_sent h
  unfold runpodInput at h
  obtain ⟨u, -, h⟩ := Fallible.bind_ok.mp h
  obtain ⟨u', hkey, h⟩ := Fallible.bind_ok.mp h
  split at h
  · cases h
  · split at h
    · cases h
    · obtain ⟨readUrl, hget, h⟩ := Fallible.bind_ok.mp h
      obtain ⟨writeUrl, hput, h⟩ := Fallible.bind_ok.mp h
      cases h
      have hinput := hsent.input
      have houtput := hsent.outputMapping
      rw [hrows] at hinput hsent ⊢
      cases hinput
      cases houtput
      exact ⟨readUrl, writeUrl, rows, hget, hput, hkey, rfl, hsent⟩

/-- A shard's job describes the input that was planned. -/
theorem createOrchestrationJob_ok {contract : ExtractionContract} {sha : Sha256}
    {tenant jobId : Keys.Uuid} {content : Extraction.Submission} {plan : Extraction.ShardPlan}
    {operationId : String} {job : Orchestration.Submission}
    (h : createOrchestrationJob contract sha tenant jobId content plan = .ok (operationId, job)) :
    job.operation = "data_science.extraction." ++ content.operation ∧
      job.inputPayloadDigest = plan.payloadDigest ∧ job.inputSchemaJson = plan.schemaJson ∧
      job.inputRows = some (plan.rows : Int) ∧ job.inputArtifactKey = plan.artifactKey := by
  unfold createOrchestrationJob at h
  split at h
  · obtain ⟨params, -, heq⟩ := Fallible.bind_ok.mp h
    cases heq
    exact ⟨rfl, rfl, rfl, rfl, rfl⟩
  · cases h

/-! ### Tables that are not refused -/

theorem mapM_id {texts : List PyStr} (h : values.mapM id = some texts) :
    values = texts.map some := by
  induction values generalizing texts with
  | nil =>
    cases h
    rfl
  | cons value values ih =>
    rw [List.mapM_cons] at h
    obtain ⟨text, htext, h⟩ := Option.bind_eq_some_iff.mp h
    obtain ⟨rest, hrest, h⟩ := Option.bind_eq_some_iff.mp h
    cases h
    rw [List.map_cons, ← ih hrest]
    exact congrArg (· :: values) htext

/-- A table whose edges are read carries them. -/
theorem carries_edgesOf (h : Orchestration.edgesOf table = .ok edges) : Carries table edges := by
  unfold Orchestration.edgesOf at h
  split at h
  · cases h
  · split at h
    · rename_i sources targets hsource htarget
      split at h
      · rename_i sources' targets' hsources htargets
        unfold Orchestration.zipStrict at h
        split at h
        · rename_i hlength
          cases h
          have hfst : ((sources'.zip targets').map fun e => some e.1) = sources'.map some := by
            conv_rhs => rw [← List.map_fst_zip hlength.le, List.map_map]
            rfl
          have hsnd : ((sources'.zip targets').map fun e => some e.2) = targets'.map some := by
            conv_rhs => rw [← List.map_snd_zip hlength.ge, List.map_map]
            rfl
          refine ⟨?_, ?_⟩
          · rw [hsource, mapM_id hsources, hfst]
          · rw [htarget, mapM_id htargets, hsnd]
        · cases h
      · cases h
    · cases h
    · cases h

/-- What `_community_assign` returns numbers the components of the edges that the table carries. -/
theorem communityAssign_ok {rows : List (PyStr × Nat)} (h : communityAssign table = .ok rows) :
    ∃ edges, Carries table edges ∧ Components edges rows := by
  unfold communityAssign at h
  split at h
  · cases h
  · rename_i edges hedges
    obtain ⟨rows', hrows', hcomponents⟩ := Orchestration.components_spec edges
    rw [hrows'] at h
    cases h
    exact ⟨edges, carries_edgesOf hedges, hcomponents⟩

theorem communityAssign_carries {rows : List (PyStr × Nat)} (hcarries : Carries table edges)
    (hcomponents : Components edges rows) : communityAssign table = .ok rows := by
  obtain ⟨rows', hrows', hcomponents'⟩ := Orchestration.components_spec edges
  rw [hcomponents'.unique hcomponents] at hrows'
  simp only [communityAssign, Orchestration.edgesOf_carries hcarries, hrows']

end Sending

/-! ## From the request -/

section Journey

variable {D : Deployment} {t operationId key : String} {job : Orchestration.Submission}
  {input : Decoded} {payload reply : Fields} {readUrl writeUrl : PyStr} {rows : Int}
  {table : List (PyStr × Nat)} {d : Delivery}

/-- The input of the job is read, and it is what the job says of it. -/
def Input (D : Deployment) (t : String) (job : Orchestration.Submission) (input : Decoded) : Prop :=
  ∃ url raw, D.signing.presignGet t job.inputArtifactKey = .ok url ∧
    D.platform.urlopen url = .ok raw ∧ raw.length ≤ D.signing.maxBytes ∧
    D.platform.digest raw = lit job.inputPayloadDigest ∧ D.platform.decode raw = some input ∧
    input.schemaJson = lit job.inputSchemaJson ∧ job.inputRows = some (input.numRows : Int)

/-- The output is not too long, and is uploaded. -/
def Uploaded (D : Deployment) (t key : String) (payload : List UInt8) : Prop :=
  payload.length ≤ D.signing.maxBytes ∧ ∃ url, D.signing.presignPut t key = .ok url ∧
    D.platform.put url payload = .ok ()

/-- The community worker has computed these rows of the job's input. -/
structure Computed (D : Deployment) (t operationId : String) (job : Orchestration.Submission)
    (key : String) (table : List (PyStr × Nat)) : Prop where
  operation : job.operation = OffloadWorker.community
  named : Text.blank operationId = false
  computes : ∃ input edges, Input D t job input ∧ Carries input.table edges ∧ Components edges table
  uploaded : Uploaded D t key (D.platform.encode table)

/-- The model has extracted this of the job's passages. -/
structure Extracted (D : Deployment) (t : String) (job : Orchestration.Submission) (key : String)
    (d : Delivery) : Prop where
  extracts : ∃ input contract rows, Input D t job input ∧ input.isPassages = true ∧
    D.platform.loadContract = .ok contract ∧
    ExtractionWorker.runModel D.platform (.str (lit job.operation)) input job.params contract =
      .ok rows ∧
    D.platform.fromPylist rows contract = .ok d
  uploaded : Uploaded D t key d.payload

/-- The worker reads what the job describes. -/
theorem reads_iff (hget : D.signing.presignGet t job.inputArtifactKey = .ok readUrl)
    (hrows : job.inputRows = some rows) :
    Reads D.platform (sentInput job rows readUrl) (.int D.signing.maxBytes) input ∧
      isRows input.numRows (get (sentInput job rows readUrl) "rows") = true ↔ Input D t job input := by
  have hread : text (get (sentInput job rows readUrl) "read_url") = readUrl := rfl
  have hdigest : text (get (sentInput job rows readUrl) "payload_digest") =
      lit job.inputPayloadDigest := rfl
  have hschema : text (get (sentInput job rows readUrl) "schema_json") = lit job.inputSchemaJson := rfl
  have hint : get (sentInput job rows readUrl) "rows" = .int rows := rfl
  unfold Reads Input
  rw [hread, hdigest, hschema, hint, hget, hrows, isRows, beq_iff_eq]
  constructor
  · rintro ⟨⟨raw, hraw, hlength, hsame, hdecode, hjson⟩, rfl⟩
    exact ⟨readUrl, raw, rfl, hraw, Int.ofNat_le.mp hlength, hsame, hdecode, hjson, rfl⟩
  · rintro ⟨url, raw, hurl, hraw, hlength, hsame, hdecode, hjson, heq⟩
    cases hurl
    exact ⟨⟨raw, hraw, Int.ofNat_le.mpr hlength, hsame, hdecode, hjson⟩, Option.some.inj heq⟩

theorem Sent.maxBytesOf_eq {descriptor output : Fields}
    (h : Sent D.signing operationId job payload descriptor output rows) :
    maxBytesOf D.platform payload = .int D.signing.maxBytes := by
  rw [maxBytesOf, h.maxBytes, Option.getD_some]

/-- A valid payload has no other descriptors than those that were sent. -/
theorem Sent.artifacts_unique {descriptor output descriptor' output' : Fields} {rowsOk : Json → Bool}
    (h : Sent D.signing operationId job payload descriptor output rows)
    (h' : Artifacts rowsOk payload descriptor' output') :
    descriptor' = descriptor ∧ output' = output := by
  have hinput := h'.input.symm.trans h.input
  have houtput := h'.outputMapping.symm.trans h.outputMapping
  cases hinput
  cases houtput
  exact ⟨rfl, rfl⟩

/-- **The offload worker delivers** what it has computed. -/
theorem computed_of_output (hget : D.signing.presignGet t job.inputArtifactKey = .ok readUrl)
    (hput : D.signing.presignPut t key = .ok writeUrl) (hrows : job.inputRows = some rows)
    (hsent : Sent D.signing operationId job payload (sentInput job rows readUrl)
      (sentOutput key writeUrl) rows)
    (h : (OffloadWorker.handler D.platform (.obj payload)).result = .ok reply)
    (houtput : Json.get? reply "output" ≠ none) :
    ∃ d, (OffloadWorker.handler D.platform (.obj payload)).Delivers D.platform writeUrl d ∧
      ∃ table, Computed D t operationId job key table ∧
        d = ⟨D.platform.encode table, OffloadWorker.outputSchemaJson, table.length⟩ := by
  obtain ⟨descriptor, output, d, hvalid, hcommunity, hwork, hdelivers⟩ :=
    OffloadWorker.handler_output h houtput
  obtain ⟨rfl, rfl⟩ := hsent.artifacts_unique hvalid.artifacts
  rw [hsent.maxBytesOf_eq] at hwork
  obtain ⟨input, table, hreads, -, hisRows, hassign, hlength, rfl⟩ :=
    OffloadWorker.work_deliver.mp hwork
  obtain ⟨edges, hcarries, hcomponents⟩ := communityAssign_ok hassign
  rw [hsent.operation] at hcommunity
  have hoperation : job.operation = OffloadWorker.community :=
    PyStr.lit_injective (beq_iff_eq.mp hcommunity)
  have hnamed : Text.blank operationId = false := by
    have hid := hvalid.operationId
    rwa [hsent.operationId, nonBlank_lit] at hid
  refine ⟨_, hdelivers, table, ⟨hoperation, hnamed, ?_, ?_⟩, rfl⟩
  · exact ⟨input, edges, (reads_iff hget hrows).mp ⟨hreads, hisRows⟩, hcarries, hcomponents⟩
  · exact ⟨Int.ofNat_le.mp hlength, writeUrl, hput, hdelivers.2⟩

theorem computed_delivers (hget : D.signing.presignGet t job.inputArtifactKey = .ok readUrl)
    (hput : D.signing.presignPut t key = .ok writeUrl) (hrows : job.inputRows = some rows)
    (hsent : Sent D.signing operationId job payload (sentInput job rows readUrl)
      (sentOutput key writeUrl) rows) (h : Computed D t operationId job key table) :
    (OffloadWorker.handler D.platform (.obj payload)).Delivers D.platform writeUrl
      ⟨D.platform.encode table, OffloadWorker.outputSchemaJson, table.length⟩ := by
  obtain ⟨input, edges, hinput, hcarries, hcomponents⟩ := h.computes
  obtain ⟨hlength, url, hurl, hsaved⟩ := h.uploaded
  cases hput.symm.trans hurl
  have hread := (reads_iff hget hrows).mpr hinput
  have hnatural : 0 ≤ rows := by
    obtain ⟨_, _, -, -, -, -, -, -, heq⟩ := hinput
    cases hrows.symm.trans heq
    exact Int.natCast_nonneg _
  have hsupported : job.operation ∈ OffloadWorker.supportedOperations := by
    rw [h.operation]
    decide
  obtain ⟨fields, descriptor, output, heq, hvalid⟩ := OffloadWorker.validateInput_iff.mp
    ((hsent.offload_iff hsupported).mpr ⟨h.named, hnatural⟩)
  cases heq
  obtain ⟨rfl, rfl⟩ := hsent.artifacts_unique hvalid.artifacts
  have hassign := communityAssign_carries hcarries hcomponents
  refine OffloadWorker.handler_delivers hvalid ?_ ?_ hsaved
  · rw [hsent.operation, h.operation]
    exact beq_self_eq_true _
  · rw [hsent.maxBytesOf_eq]
    exact OffloadWorker.work_deliver.mpr ⟨input, table, hread.1, rfl, hread.2, hassign,
      Int.ofNat_le.mpr hlength, rfl⟩

/-- **The extraction worker delivers** what the model has extracted. -/
theorem extracted_of_output (hget : D.signing.presignGet t job.inputArtifactKey = .ok readUrl)
    (hput : D.signing.presignPut t key = .ok writeUrl) (hrows : job.inputRows = some rows)
    (hsent : Sent D.signing operationId job payload (sentInput job rows readUrl)
      (sentOutput key writeUrl) rows)
    (h : (ExtractionWorker.handler D.platform (.obj payload)).result = .ok reply)
    (houtput : Json.get? reply "output" ≠ none) :
    ∃ d, (ExtractionWorker.handler D.platform (.obj payload)).Delivers D.platform writeUrl d ∧
      Extracted D t job key d := by
  obtain ⟨descriptor, output, params, d, hvalid, hwork, hdelivers⟩ :=
    ExtractionWorker.handler_output h houtput
  obtain ⟨rfl, rfl⟩ := hsent.artifacts_unique hvalid.artifacts
  have hparams := hvalid.paramsMapping.symm.trans hsent.params
  cases hparams
  rw [hsent.maxBytesOf_eq, hsent.operation] at hwork
  obtain ⟨input, contract, rows', hadmits, hload, hrun, htable, hlength⟩ :=
    ExtractionWorker.work_deliver.mp hwork
  refine ⟨d, hdelivers, ⟨input, contract, rows', ?_, hadmits.passages, hload, hrun, htable⟩, ?_⟩
  · exact (reads_iff hget hrows).mp ⟨hadmits.reads, hadmits.rows⟩
  · exact ⟨Int.ofNat_le.mp hlength, writeUrl, hput, hdelivers.2⟩

theorem extracted_delivers (hget : D.signing.presignGet t job.inputArtifactKey = .ok readUrl)
    (hput : D.signing.presignPut t key = .ok writeUrl) (hrows : job.inputRows = some rows)
    (hsent : Sent D.signing operationId job payload (sentInput job rows readUrl)
      (sentOutput key writeUrl) rows)
    (haccepted : ExtractionWorker.validateInput D.platform.maxArtifactBytes (.obj payload) = .ok ())
    (h : Extracted D t job key d) :
    (ExtractionWorker.handler D.platform (.obj payload)).Delivers D.platform writeUrl d := by
  obtain ⟨input, contract, rows', hinput, hpassages, hload, hrun, htable⟩ := h.extracts
  obtain ⟨hlength, url, hurl, hsaved⟩ := h.uploaded
  cases hput.symm.trans hurl
  have hread := (reads_iff hget hrows).mpr hinput
  obtain ⟨fields, descriptor, output, params, heq, hvalid⟩ :=
    ExtractionWorker.validateInput_iff.mp haccepted
  cases heq
  obtain ⟨rfl, rfl⟩ := hsent.artifacts_unique hvalid.artifacts
  have hparams := hvalid.paramsMapping.symm.trans hsent.params
  cases hparams
  refine ExtractionWorker.handler_delivers hvalid ?_ hsaved
  rw [hsent.maxBytesOf_eq, hsent.operation]
  exact ExtractionWorker.work_deliver.mpr ⟨input, contract, rows', ⟨hread.1, hpassages, hread.2⟩, hload,
    hrun, htable, Int.ofNat_le.mpr hlength⟩

/-- What a job has to show for its status. -/
def Holding (D : Deployment) (x : RemoteJob D.backend) (row : Record D.backend) (d : Delivery) : Prop :=
  (∃ response, x.objects x.outputKey = .ok response ∧ response.body = d.payload) ∧
    row.Holds ⟨x.outputKey, D.platform.digest d.payload, d.schemaJson, d.rows⟩

end Journey

/-- **An offload job, end to end.**  Whatever the network, the store and a worker's host do, the row of
    an admitted request that ends SUCCEEDED describes the connected components of the input that the
    request describes, and they are stored under its key.  Where nobody interrupts the job, it ends
    SUCCEEDED if and only if the worker has computed them, and FAILED otherwise. -/
theorem offload_end_to_end (D : Deployment) {cfg : Orchestration.InvokeSettings} {t : String}
    {limit : Option Int} {body : Orchestration.InvokeRequest} {fate : Fate (Option String)}
    {s s' : Orchestration.JobTable} {answer : Answer Nat Orchestration.InvokeBody}
    {row : Admitted (String × String) Orchestration.Submission Orchestration.Progress}
    (hinvoke : Orchestration.invokeOffload cfg t limit body fate s = (s', answer))
    (hrow : s'.rows[s.rows.length]? = some row) {x : RemoteJob D.backend} (htenant : x.tenantId = t)
    {payload : Fields}
    (hpayload : runpodInput D.signing (some row.key.1) row.key.2 row.content x.outputKey = .ok payload)
    (hcarried : Carried D.platform (OffloadWorker.handler D.platform (.obj payload)) x)
    (record : Record D.backend) :
    ((outcome x record).1.status = .succeeded →
      ∃ table, Computed D t body.operationId body.submission x.outputKey table ∧
        Holding D x (outcome x record).1
          ⟨D.platform.encode table, OffloadWorker.outputSchemaJson, table.length⟩) ∧
    (Uninterrupted D.platform (OffloadWorker.handler D.platform (.obj payload)) x record →
      ((outcome x record).1.status = .succeeded ↔
        ∃ table, Computed D t body.operationId body.submission x.outputKey table) ∧
      ((outcome x record).1.status ≠ .succeeded → (outcome x record).1.status = .failed)) := by
  obtain ⟨-, hkey, hcontent⟩ := invoke_row hinvoke hrow
  rw [hkey, hcontent] at hpayload
  obtain ⟨readUrl, writeUrl, rows, hget, hput, hvalidated, hrows, hsent⟩ := runpodInput_urls hpayload
  have hsound : (outcome x record).1.status = .succeeded →
      ∃ table, Computed D t body.operationId body.submission x.outputKey table ∧
        Holding D x (outcome x record).1
          ⟨D.platform.encode table, OffloadWorker.outputSchemaJson, table.length⟩ := by
    intro hsucceeded
    obtain ⟨d, response, schemaJson, count, ⟨table, hcomputed, rfl⟩, hdelivers, hobject, hbody, hdecode,
      hholds⟩ := succeeded_delivered hcarried
        (fun reply hreply houtput => computed_of_output hget hput hrows hsent hreply houtput)
        hsucceeded
    have hread := Prod.mk.inj (Option.some.inj (hdecode.symm.trans (D.encode table)))
    rw [hread.1, hread.2] at hholds
    refine ⟨table, hcomputed, ⟨response, hobject, hbody⟩, ?_⟩
    dsimp only at hholds ⊢
    exact hholds
  refine ⟨hsound, fun hquiet => ⟨⟨fun hsucceeded => ?_, ?_⟩, hquiet.settles.resolve_left⟩⟩
  · obtain ⟨table, hcomputed, -⟩ := hsound hsucceeded
    exact ⟨table, hcomputed⟩
  · rintro ⟨table, hcomputed⟩
    refine delivered_succeeded hcarried (computed_delivers hget hput hrows hsent hcomputed) ?_ ?_ ?_
      hquiet
    · dsimp only
      rw [D.encode]
    · rw [← D.maxBytes]
      exact hcomputed.uploaded.1
    · rw [htenant]
      exact hvalidated

/-- **A shard job, end to end.**  The same of a shard of an admitted extraction: SUCCEEDED means that
    the model has extracted what is stored from the passages that the shard's plan describes. -/
theorem shard_end_to_end (D : Deployment) {cfg : Extraction.SubmitSettings} {tenant : Keys.Uuid}
    {body : Extraction.SubmitRequest} {fate : Fate Extraction.ExtractionJob}
    {s s' : Extraction.JobTable} {answer : Answer Nat Extraction.SubmitBody}
    {row : Admitted Extraction.SubmissionKey Extraction.Submission Extraction.ExtractionJob}
    (hsubmit : Extraction.submit cfg (uuidText tenant) body fate s = (s', answer))
    (hrow : s'.rows[s.rows.length]? = some row) {contract : ExtractionContract} {sha : Sha256}
    {jobId : Keys.Uuid} {plan : Extraction.ShardPlan} {operationId : String}
    {job : Orchestration.Submission}
    (hcreate : createOrchestrationJob contract sha tenant jobId row.content plan =
      .ok (operationId, job))
    {x : RemoteJob D.backend} (htenant : x.tenantId = uuidText tenant) {payload : Fields}
    (hpayload : runpodInput D.signing (some (uuidText tenant)) operationId job x.outputKey =
      .ok payload)
    (hcarried : Carried D.platform (ExtractionWorker.handler D.platform (.obj payload)) x)
    (record : Record D.backend) :
    ((outcome x record).1.status = .succeeded →
      ∃ d, Extracted D (uuidText tenant) job x.outputKey d ∧ Holding D x (outcome x record).1 d) ∧
    (Uninterrupted D.platform (ExtractionWorker.handler D.platform (.obj payload)) x record →
      ((outcome x record).1.status = .succeeded ↔
        ∃ d, Extracted D (uuidText tenant) job x.outputKey d) ∧
      ((outcome x record).1.status ≠ .succeeded → (outcome x record).1.status = .failed)) := by
  obtain ⟨readUrl, writeUrl, rows, hget, hput, hvalidated, hrows, hsent⟩ := runpodInput_urls hpayload
  obtain ⟨hchecks, hoperation, hparams⟩ := submit_row hsubmit hrow
  have haccepted := shard_accepted hchecks hoperation hparams hcreate hsent hrows
    D.platform.maxArtifactBytes
  have hread : ∀ {d}, Extracted D (uuidText tenant) job x.outputKey d →
      D.backend.decode d.payload = some (d.schemaJson, d.rows) := by
    intro d hextracted
    obtain ⟨_, contract, rows, -, -, -, -, htable⟩ := hextracted.extracts
    exact D.fromPylist rows contract d htable
  have hsound : (outcome x record).1.status = .succeeded →
      ∃ d, Extracted D (uuidText tenant) job x.outputKey d ∧
        Holding D x (outcome x record).1 d := by
    intro hsucceeded
    obtain ⟨d, response, schemaJson, count, hextracted, -, hobject, hbody, hdecode, hholds⟩ :=
      succeeded_delivered hcarried
        (fun reply hreply houtput => extracted_of_output hget hput hrows hsent hreply houtput)
        hsucceeded
    cases hdecode.symm.trans (hread hextracted)
    exact ⟨d, hextracted, ⟨response, hobject, hbody⟩, hholds⟩
  refine ⟨hsound, fun hquiet => ⟨⟨fun hsucceeded => ?_, ?_⟩, hquiet.settles.resolve_left⟩⟩
  · obtain ⟨d, hextracted, -⟩ := hsound hsucceeded
    exact ⟨d, hextracted⟩
  · rintro ⟨d, hextracted⟩
    refine delivered_succeeded hcarried
      (extracted_delivers hget hput hrows hsent haccepted hextracted) (hread hextracted) ?_ ?_ hquiet
    · rw [← D.maxBytes]
      exact hextracted.uploaded.1
    · rw [htenant]
      exact hvalidated

/-! ## A delivery -/

theorem outputSchemaJson_plain : OffloadWorker.outputSchemaJson.all PyStr.isPlain = true := by
  decide +kernel

/-- A table of n rows is n bytes. -/
def toyWire : Backend :=
  { Orchestration.toyBackend with
    maxBytes := 1024
    decode := fun stream => some (OffloadWorker.outputSchemaJson, stream.length)
    schema_plain := by
      intro stream schemaJson rows h
      rw [← (Prod.mk.inj (Option.some.inj h)).1]
      exact outputSchemaJson_plain }

def toyWorker : Platform :=
  { toyPlatform with
    decode := fun _ => some ⟨Orchestration.edgeTable Orchestration.smallEdges, lit "\x7b\x7d", 4, true⟩
    encode := fun table => List.replicate table.length 0
    loadContract := .ok []
    runAtlas := fun _ _ _ => .ok (List.replicate 4 [])
    fromPylist := fun rows _ =>
      .ok ⟨List.replicate rows.length 0, OffloadWorker.outputSchemaJson, rows.length⟩ }

theorem toy_hex64 : Text.isHex64
    "e3b0c44298fc1c149afbf4c8996fb92427ae41e4649b934ca495991b7852b855" = true := by decide +kernel

def toyDeployment : Deployment where
  backend := toyWire
  platform := toyWorker
  signing := toySigning
  sha256 _ := rfl
  hex64 _ := toy_hex64
  encode table := by
    show some (OffloadWorker.outputSchemaJson, (List.replicate table.length _).length) = _
    rw [List.length_replicate]
  fromPylist rows contract d h := by
    cases h
    show some (OffloadWorker.outputSchemaJson, (List.replicate rows.length _).length) = _
    rw [List.length_replicate]
  maxBytes := rfl

def toyDelivery : Delivery := ⟨List.replicate 4 0, OffloadWorker.outputSchemaJson, 4⟩

/-- RunPod's answer with it. -/
def toyAnswer : List UInt8 :=
  ((lit "\x7b\"status\":\"COMPLETED\",\"output\":" ++
    Json.writeIn Json.plain toyWire.repr (.obj (outputReply toyWorker toyDelivery)) ++
      lit "\x7d").encode).getD []

/-- The value is what the answer says of its output. -/
def isOutputReply (p : Platform) (d : Delivery) : Option Json → Bool
  | some (.obj [(output, .obj [(schema, .str schemaJson), (count, .int rows), (sha, .str digest)])]) =>
      output == lit "output" && schema == lit "schema_json" && schemaJson == d.schemaJson &&
        count == lit "rows" && rows == d.rows && sha == lit "payload_digest" &&
        digest == p.digest d.payload
  | _ => false

theorem eq_outputReply {p : Platform} {d : Delivery} {value : Option Json}
    (h : isOutputReply p d value = true) : value = some (.obj (outputReply p d)) := by
  unfold isOutputReply at h
  split at h
  · simp only [Bool.and_eq_true, beq_iff_eq] at h
    obtain ⟨⟨⟨⟨⟨⟨rfl, rfl⟩, hschema⟩, rfl⟩, hrows⟩, rfl⟩, hdigest⟩ := h
    rw [hschema, hrows, hdigest]
    rfl
  · cases h

/-- What the control plane reads in it. -/
theorem toy_answer : (match toyDeployment.backend.status (.ok toyAnswer) with
    | .ok s => s.status == lit success &&
        isOutputReply toyWorker toyDelivery (Json.get? s.payload "output")
    | .error _ => false) = true := by decide +kernel

def toyRemote : RemoteJob toyDeployment.backend where
  tenantId := uuidText toyTenant
  operationId := "op"
  jobId := ⟨lit "remote-1", by decide⟩
  timeout := ⟨lit "900", by decide⟩
  first := ⟨.ok toyAnswer, false⟩
  later := []
  cancelReply := .ok []
  objects _ := .ok ⟨4, List.replicate 4 0⟩
  canceled := false

def toyRecord : Record toyDeployment.backend where
  logs := ⟨[], rfl⟩
  error := ⟨[], rfl⟩
  outputSchemaJson := ⟨[], rfl⟩
  outputPayloadDigest := ⟨[], rfl⟩

theorem toy_status : ∃ s, toyDeployment.backend.status (.ok toyAnswer) = .ok s ∧
    s.status = lit success ∧
    Json.get? s.payload "output" = some (.obj (outputReply toyWorker toyDelivery)) := by
  have h := toy_answer
  split at h
  · rename_i s hs
    rw [Bool.and_eq_true, beq_iff_eq] at h
    exact ⟨s, hs, h.1, eq_outputReply h.2⟩
  · cases h

theorem toy_carried {url : PyStr} {run : Run}
    (h : run.Delivers toyWorker url toyDelivery) : Carried toyWorker run toyRemote where
  answers poll hpoll s hs _ := by
    obtain ⟨s', hs', -, houtput⟩ := toy_status
    rw [List.mem_singleton.mp hpoll] at hs
    cases hs'.symm.trans hs
    rw [h.1]
    exact ⟨_, rfl, houtput⟩
  stored url' payload response hsent _ hresponse := by
    rw [h.1] at hsent
    cases List.mem_singleton.mp hsent
    cases hresponse
    rfl

theorem toy_uninterrupted (run : Run) : Uninterrupted toyWorker run toyRemote toyRecord := by
  obtain ⟨s, hs, hsuccess, -⟩ := toy_status
  refine ⟨⟨s, .last hs rfl ?_, hsuccess⟩, fun _ _ _ _ => rfl, rfl, by decide +kernel⟩
  rw [hsuccess]
  decide

/-- The input has four rows, and so has the output. -/
def toyRequest : Orchestration.InvokeRequest where
  operation := "data_science.community.assign"
  operationId := "op"
  input :=
    { arrowSchemaJson := "\x7b\x7d"
      rows := some 4
      payloadDigest := "sha256:e3b0c44298fc1c149afbf4c8996fb92427ae41e4649b934ca495991b7852b855"
      artifactKey := "tenants/00000000-0000-0000-0000-000000000000/inputs/edges.arrow" }

theorem toy_computed : Computed toyDeployment (uuidText toyTenant) "op" toyRequest.submission
    toyRemote.outputKey [(lit "a", 0), (lit "b", 0), (lit "c", 0), (lit "d", 1)] := by
  obtain ⟨rows, hrows, hcomponents⟩ := Orchestration.components_spec Orchestration.smallEdges
  have hsame : Orchestration.components Orchestration.smallEdges =
      some [(lit "a", 0), (lit "b", 0), (lit "c", 0), (lit "d", 1)] := by decide +kernel
  cases hrows.symm.trans hsame
  refine ⟨rfl, by decide, ⟨_, Orchestration.smallEdges, ⟨_, [], rfl, rfl, by decide, by decide +kernel,
    rfl, rfl, rfl⟩, Orchestration.carries_edgeTable _, hcomponents⟩, by decide +kernel, _, rfl, rfl⟩

/-- The job ends SUCCEEDED, with four rows stored. -/
theorem offload_end_to_end_toy : (outcome toyRemote toyRecord).1.status = .succeeded ∧
    ∃ table, Computed toyDeployment (uuidText toyTenant) "op" toyRequest.submission toyRemote.outputKey
        table ∧
      Holding toyDeployment toyRemote (outcome toyRemote toyRecord).1
        ⟨toyDeployment.platform.encode table, OffloadWorker.outputSchemaJson, table.length⟩ := by
  obtain ⟨payload, hpayload⟩ := Fallible.isOk_iff.mp (by decide +kernel :
    (runpodInput toyDeployment.signing (some (uuidText toyTenant)) "op" toyRequest.submission
      toyRemote.outputKey).isOk = true)
  obtain ⟨readUrl, writeUrl, rows, hget, hput, -, hrows, hsent⟩ := runpodInput_urls hpayload
  have hdelivers := computed_delivers hget hput hrows hsent toy_computed
  have hcarried : Carried toyDeployment.platform
      (OffloadWorker.handler toyDeployment.platform (.obj payload)) toyRemote :=
    toy_carried hdelivers
  have h := @offload_end_to_end toyDeployment {} (uuidText toyTenant) none toyRequest (.answered none)
    Admissions.empty _ _ _ rfl rfl toyRemote rfl payload hpayload hcarried toyRecord
  have hsucceeded := (h.2 (toy_uninterrupted _)).1.mpr ⟨_, toy_computed⟩
  exact ⟨hsucceeded, h.1 hsucceeded⟩

def toyShard : Extraction.ShardPlan where
  index := 0
  artifactKey := "tenants/00000000-0000-0000-0000-000000000000/in/0.arrow"
  payloadDigest := "sha256:e3b0c44298fc1c149afbf4c8996fb92427ae41e4649b934ca495991b7852b855"
  schemaJson := "\x7b\x7d"
  rows := 4
  byteLength := 0

theorem toy_extracted {operationId : String} {job : Orchestration.Submission}
    {content : Extraction.Submission} (hatlas : content.operation = "atlas")
    (hcreate : createOrchestrationJob toyContract toySha toyTenant toyTenant content toyShard =
      .ok (operationId, job)) :
    Extracted toyDeployment (uuidText toyTenant) job toyRemote.outputKey toyDelivery := by
  obtain ⟨hoperation, hdigest, hschema, hrows, -⟩ := createOrchestrationJob_ok hcreate
  rw [hatlas] at hoperation
  refine ⟨⟨_, [], List.replicate 4 [], ⟨_, [], rfl, rfl, by decide, ?_, rfl, ?_, hrows⟩, rfl, rfl, ?_,
    rfl⟩, by decide, _, rfl, rfl⟩
  · rw [hdigest]
    decide +kernel
  · rw [hschema]
    rfl
  · rw [hoperation]
    rfl

theorem shard_end_to_end_toy : (outcome toyRemote toyRecord).1.status = .succeeded ∧
    ∃ job d, Extracted toyDeployment (uuidText toyTenant) job toyRemote.outputKey d ∧
      Holding toyDeployment toyRemote (outcome toyRemote toyRecord).1 d := by
  have hrun : (((Extraction.submit toySubmit (uuidText toyTenant) ⟨"atlas", "artifact", [], []⟩
      (.answered {}) Admissions.empty).1.rows[0]?.bind fun row =>
        (createOrchestrationJob toyContract toySha toyTenant toyTenant row.content
          toyShard).toOption).any fun j =>
        (runpodInput toySigning (some (uuidText toyTenant)) j.1 j.2
          toyRemote.outputKey).isOk) = true := by
    decide +kernel
  obtain ⟨j, hj, hsent⟩ := (Option.any_eq_true ..).mp hrun
  obtain ⟨row, hrow, hj⟩ := Option.bind_eq_some_iff.mp hj
  obtain ⟨payload, hpayload⟩ := Fallible.isOk_iff.mp hsent
  have hcreate : createOrchestrationJob toyContract toySha toyTenant toyTenant row.content toyShard =
      .ok (j.1, j.2) := by
    cases hok : createOrchestrationJob toyContract toySha toyTenant toyTenant row.content toyShard with
    | error e =>
      rw [hok] at hj
      cases hj
    | ok j' =>
      rw [hok] at hj
      cases hj
      rfl
  obtain ⟨hchecks, hoperation, hparams⟩ := @submit_row toySubmit (uuidText toyTenant)
    ⟨"atlas", "artifact", [], []⟩ (.answered {}) Admissions.empty _ _ row rfl hrow
  obtain ⟨readUrl, writeUrl, rows, hget, hput, -, hrows, hpayloadSent⟩ := runpodInput_urls hpayload
  have haccepted := shard_accepted hchecks hoperation hparams hcreate hpayloadSent hrows
    toyDeployment.platform.maxArtifactBytes
  have hextracted := toy_extracted hoperation hcreate
  have hcarried : Carried toyDeployment.platform
      (ExtractionWorker.handler toyDeployment.platform (.obj payload)) toyRemote :=
    toy_carried (extracted_delivers hget hput hrows hpayloadSent haccepted hextracted)
  have h := @shard_end_to_end toyDeployment toySubmit toyTenant ⟨"atlas", "artifact", [], []⟩
    (.answered {}) Admissions.empty _ _ row rfl hrow toyContract toySha toyTenant toyShard j.1 j.2
    hcreate toyRemote rfl payload hpayload hcarried toyRecord
  have hsucceeded := (h.2 (toy_uninterrupted _)).1.mpr ⟨toyDelivery, hextracted⟩
  exact ⟨hsucceeded, j.2, h.1 hsucceeded⟩

end ControlPlane.Workers
