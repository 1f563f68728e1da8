/-
  THE WIRE: what `_runpod_input` sends is what the workers accept?

  An offload job comes from `invoke_offload`, a shard job from `submit`, `_operation_params` and
  `_create_orchestration_job`.  Each side of the wire has its checks, and they were written apart.  The
  control plane asks for a digest, a schema and a key; it does not ask what the workers ask of an
  operation id and of a number of rows.

  1. `runpodInput_get`: what the payload holds.
  2. `offload_accepted_iff`: an offload job is accepted iff its operation id is not blank and its rows
     are not negative.
  3. `shard_accepted`: a shard job is always accepted.
-/
import ControlPlane.Extraction.Planner
import ControlPlane.Extraction.Submit
import ControlPlane.Orchestration.Invoke
import ControlPlane.Orchestration.Keys
import ControlPlane.Workers.Requests

namespace ControlPlane.Workers

open Competence (ArtifactError validateKey)
open PyStr (lit)

/-! ## The payload -/

/-- An `ArtifactStore` that signs URLs. -/
structure SigningStore where
  maxBytes : Nat
  /-- `ArtifactStore` refuses another limit. -/
  positive : 0 < maxBytes
  presignGet : String → String → Except ArtifactError PyStr
  presignPut : String → String → Except ArtifactError PyStr
  https_get : ∀ tenantId key url, presignGet tenantId key = .ok url → lit "https://" <+: url
  https_put : ∀ tenantId key url, presignPut tenantId key = .ok url → lit "https://" <+: url

/-- `_runpod_input`. -/
def runpodInput (store : SigningStore) (tenantId : Option String) (operationId : String)
    (job : Orchestration.Submission) (outputArtifactKey : String) : Except ArtifactError Fields :=
  match tenantId with
  | none => .error (.validation "RunPod jobs require an admitted tenant")
  | some tenantId => do
      validateKey tenantId job.inputArtifactKey
      validateKey tenantId outputArtifactKey
      if !Competence.isSha256Address job.inputPayloadDigest then
        .error (.validation "RunPod input payload digest must be a sha256 digest")
      else if job.inputSchemaJson = "" ∨ job.inputRows = none then
        .error (.validation "RunPod input schema and row count are required")
      else
        let readUrl ← store.presignGet tenantId job.inputArtifactKey
        let writeUrl ← store.presignPut tenantId outputArtifactKey
        .ok [(lit "contract", .str (lit "theorem.offload.v1")),
          (lit "operation", .str (lit job.operation)),
          (lit "operation_id", .str (lit operationId)),
          (lit "input", .obj
            [(lit "schema_json", .str (lit job.inputSchemaJson)),
              (lit "rows", (job.inputRows.map Json.int).getD .null),
              (lit "payload_digest", .str (lit job.inputPayloadDigest)),
              (lit "artifact_key", .str (lit job.inputArtifactKey)),
              (lit "read_url", .str readUrl)]),
          (lit "output", .obj
            [(lit "artifact_key", .str (lit outputArtifactKey)),
              (lit "write_url", .str writeUrl)]),
          (lit "params", .obj job.params),
          (lit "max_bytes", .int store.maxBytes)]

/-! ## Shard jobs -/

/-- `str(uuid)`. -/
def uuidText (u : Keys.Uuid) : String := String.ofList (u.str.map fun c => Char.ofNat c.val)

/-- `theorem.extraction.v1.json`, as far as the params take it over. -/
structure ExtractionContract extends Extraction.ContractFile where
  chunking : Json
  model : Json
  named : contract = lit extractionContract

/-- `hashlib.sha256(text.encode("utf-8")).hexdigest()`. -/
structure Sha256 where
  hexdigest : String → String
  hex64 : ∀ text, Text.isHex64 (hexdigest text) = true

/-- `params.get("model_id") or contract["model"]["default_id"]`. -/
def modelId (contract : ExtractionContract) (params : Fields) : Json :=
  let given := get params "model_id"
  if given.truthy then given else .str contract.defaultModelId

/-- `_operation_params`. -/
def operationParams (contract : ExtractionContract) (tenant job : Keys.Uuid) (operation : String)
    (params : Fields) (shard : Nat) : Except PyError Fields :=
  let chosen := modelId contract params
  let params := Json.set params "contract" (.str contract.contract)
  let params := Json.set params "chunking" contract.chunking
  let params := Json.set params "model" contract.model
  let params := Json.set params "model_id" chosen
  let params := Json.set params "prompt_hashes" (.obj contract.promptHashes)
  let params := Json.set params "schema_hash" (.str contract.schemaHash)
  let params := Json.set params "tenant_id" (.str (lit (uuidText tenant)))
  let params := Json.set params "job_id" (.str (lit (uuidText job)))
  let params := Json.set params "shard" (.int shard)
  if operation = "typed" ∧ isMapping (get params "object_type") = false then
    .error ⟨.valueError, lit "typed extraction requires params.object_type"⟩
  else .ok params

/-- `_create_orchestration_job`: the operation id and the row. -/
def createOrchestrationJob (contract : ExtractionContract) (sha : Sha256) (tenant job : Keys.Uuid)
    (row : Extraction.Submission) (shard : Extraction.ShardPlan) :
    Except PyError (String × Orchestration.Submission) :=
  match row.params with
  | .obj params => do
      let params ← operationParams contract tenant job row.operation params shard.index
      .ok (sha.hexdigest (uuidText job ++ ":" ++ toString shard.index ++ ":" ++ shard.payloadDigest),
        { operation := "data_science.extraction." ++ row.operation
          inputPayloadDigest := shard.payloadDigest
          params := params
          inputEntityIds := []
          inputSchemaJson := shard.schemaJson
          inputRows := some shard.rows
          inputArtifactKey := shard.artifactKey })
  | _ => .error { cls := .typeError }

/-! ## Texts on both sides -/

/-- A text of the control plane is blank for the workers too. -/
theorem blank_lit (s : String) : PyStr.blank (lit s) = Text.blank s := by
  rw [PyStr.blank, lit, List.all_map, Text.blank]
  congr 1
  funext c
  have hval : (Fin.ofNat 0x110000 c.toNat).val = c.toNat := Nat.mod_eq_of_lt (PyStr.char_lt c)
  simp only [Function.comp_apply, PyStr.isSpace, Text.isSpace, hval]

theorem bytes_toList (s : String) : Text.bytes s = s.toList.flatMap String.utf8EncodeChar := by
  rw [Text.bytes, ← String.utf8Encode_toList, List.utf8Encode, List.data_toByteArray]

/-- A byte below 0x80 is a character. -/
theorem ascii_char {c : Char} (h : ∀ b ∈ String.utf8EncodeChar c, b.toNat < 0x80) :
    (String.utf8EncodeChar c).map (fun b => (Fin.ofNat 0x110000 b.toNat : CodePoint)) =
      [Fin.ofNat 0x110000 c.toNat] := by
  unfold String.utf8EncodeChar at h ⊢
  dsimp only at h ⊢
  split at h
  · rename_i hascii
    rw [if_pos hascii, List.map_singleton, UInt8.toNat_ofNat', Nat.mod_eq_of_lt (by omega)]
    rfl
  · exfalso
    split at h
    · have hfirst := h _ List.mem_cons_self
      rw [UInt8.toNat_ofNat'] at hfirst
      omega
    · split at h
      · have hfirst := h _ List.mem_cons_self
        rw [UInt8.toNat_ofNat'] at hfirst
        omega
      · have hfirst := h _ List.mem_cons_self
        rw [UInt8.toNat_ofNat'] at hfirst
        omega

theorem lit_ascii {s : String} (h : ∀ b ∈ Text.bytes s, b.toNat < 0x80) :
    lit s = (Text.bytes s).map fun b => Fin.ofNat 0x110000 b.toNat := by
  rw [bytes_toList] at h ⊢
  rw [lit, List.map_flatMap]
  generalize s.toList = chars at h ⊢
  induction chars with
  | nil => rfl
  | cons c chars ih =>
    rw [List.flatMap_cons] at h ⊢
    rw [List.map_cons, ih fun b hb => h b (List.mem_append_right _ hb),
      ascii_char fun b hb => h b (List.mem_append_left _ hb)]
    rfl

theorem hexDigit_range {b : UInt8} (h : Text.isHexDigit b = true) :
    48 ≤ b.toNat ∧ b.toNat ≤ 57 ∨ 97 ≤ b.toNat ∧ b.toNat ≤ 102 := by
  simp only [Text.isHexDigit, Bool.or_eq_true, Bool.and_eq_true, decide_eq_true_eq,
    UInt8.le_iff_toNat_le] at h
  exact h

theorem val_ofByte (b : UInt8) : (Fin.ofNat 0x110000 b.toNat : CodePoint).val = b.toNat := by
  have hlt := b.toNat_lt
  exact Nat.mod_eq_of_lt (by omega)

/-- A digest of the control plane is one for the workers. -/
theorem isSha256Digest_lit {s : String} (h : Competence.isSha256Address s = true) :
    (lit s).isSha256Digest = true := by
  simp only [Competence.isSha256Address, Text.startswith, Bool.and_eq_true] at h
  obtain ⟨hpre, hhex⟩ := h
  obtain ⟨digits, hbytes⟩ := List.isPrefixOf_iff_prefix.mp hpre
  rw [← hbytes, List.drop_left] at hhex
  simp only [Text.areHex64, Bool.and_eq_true, beq_iff_eq] at hhex
  obtain ⟨hlength, hdigits⟩ := hhex
  have hdigit : ∀ b ∈ digits, Text.isHexDigit b = true := List.all_eq_true.mp hdigits
  have hascii : ∀ b ∈ Text.bytes s, b.toNat < 0x80 := by
    intro b hb
    rw [← hbytes] at hb
    rcases List.mem_append.mp hb with hb | hb
    · have hall : ∀ b ∈ Text.bytes "sha256:", b.toNat < 0x80 := by decide +kernel
      exact hall b hb
    · have hrange := hexDigit_range (hdigit b hb)
      omega
  have hhead : (Text.bytes "sha256:").map (fun b => (Fin.ofNat 0x110000 b.toNat : CodePoint)) =
      lit "sha256:" := by decide +kernel
  have hdrop : (lit "sha256:" ++ digits.map fun b => (Fin.ofNat 0x110000 b.toNat : CodePoint)).drop 7 =
      digits.map fun b => Fin.ofNat 0x110000 b.toNat := List.drop_left' (by decide)
  rw [lit_ascii hascii, ← hbytes, List.map_append, hhead]
  simp only [PyStr.isSha256Digest, Bool.and_eq_true, beq_iff_eq]
  refine ⟨⟨List.isPrefixOf_iff_prefix.mpr (List.prefix_append ..), ?_⟩, ?_⟩
  · rw [hdrop, List.length_map, hlength]
  · rw [hdrop, List.all_map, List.all_eq_true]
    intro b hb
    simp only [Function.comp_apply, PyStr.isHexDigit, val_ofByte, Bool.or_eq_true, Bool.and_eq_true,
      decide_eq_true_eq]
    exact hexDigit_range (hdigit b hb)

theorem not_blank_hex64 {s : String} (h : Text.isHex64 s = true) : Text.blank s = false := by
  simp only [Text.isHex64, Text.areHex64, Bool.and_eq_true, beq_iff_eq] at h
  obtain ⟨hlength, hdigits⟩ := h
  have hdigit := List.all_eq_true.mp hdigits
  have hascii : ∀ b ∈ Text.bytes s, b.toNat < 0x80 := by
    intro b hb
    have hrange := hexDigit_range (hdigit b hb)
    omega
  obtain ⟨b, hb⟩ := List.exists_mem_of_length_pos (l := Text.bytes s) (by omega)
  rw [← blank_lit, lit_ascii hascii, PyStr.blank, List.all_map]
  refine List.all_eq_false.mpr ⟨b, hb, ?_⟩
  have hrange := hexDigit_range (hdigit b hb)
  simp only [Function.comp_apply, PyStr.isSpace, val_ofByte, Bool.or_eq_true, Bool.and_eq_true,
    decide_eq_true_eq, beq_iff_eq]
  omega

/-! ## Dictionaries -/

/-- Replacing the value at a key. -/
theorem lookup_replace (fields : Fields) (k name : PyStr) (value : Json) :
    (fields.map fun f => if f.1 = k then (f.1, value) else f).lookup name =
      if name = k then (fields.lookup k).map fun _ => value else fields.lookup name := by
  induction fields with
  | nil => simp
  | cons f fields ih =>
    rw [List.map_cons, List.lookup_cons, List.lookup_cons, List.lookup_cons]
    by_cases hf : f.1 = k
    · by_cases hname : name = k
      · simp [hf, hname]
      · have hne : (name == k) = false := beq_eq_false_iff_ne.mpr hname
        simp [hf, hname, hne, ih]
    · have hkf : (k == f.1) = false := by simpa using fun h => hf h.symm
      rw [if_neg hf, hkf, ih]
      by_cases hname : name = k
      · simp [hname, hkf]
      · simp [hname]

/-- What is set is read, everything else is as it was. -/
theorem get?_set (fields : Fields) (key name : String) (value : Json) :
    Json.get? (Json.set fields key value) name =
      if name = key then some value else Json.get? fields name := by
  have hlit : lit name = lit key ↔ name = key := PyStr.lit_injective.eq_iff
  unfold Json.set
  split
  · rename_i hsome
    rw [Json.get?, lookup_replace]
    simp only [hlit]
    obtain ⟨old, hold⟩ := Option.isSome_iff_exists.mp hsome
    rw [Json.get?] at hold
    rw [hold]
    rfl
  · rename_i hnone
    have hnone : fields.lookup (lit key) = none :=
      Option.not_isSome_iff_eq_none.mp hnone
    rw [Json.get?, List.lookup_append, List.lookup_cons]
    by_cases hname : name = key
    · rw [hname, hnone, if_pos rfl]
      simp
    · have hne : (lit name == lit key) = false := beq_eq_false_iff_ne.mpr fun h => hname (hlit.mp h)
      rw [if_neg hname, hne, List.lookup_nil, Option.or_none]
      rfl

theorem get_set (fields : Fields) (key name : String) (value : Json) :
    get (Json.set fields key value) name = if name = key then value else get fields name := by
  rw [get, get?_set]
  split <;> rfl

/-! ## What is sent -/

variable {store : SigningStore} {tenantId : Option String} {operationId : String}
  {job : Orchestration.Submission} {outputArtifactKey : String} {payload descriptor output : Fields}
  {rows : Int} {rowsOk : Json → Bool}

/-- A payload, as a worker reads it. -/
structure Sent (store : SigningStore) (operationId : String) (job : Orchestration.Submission)
    (payload descriptor output : Fields) (rows : Int) : Prop where
  contract : get payload "contract" = .str (lit offloadContract)
  operation : get payload "operation" = .str (lit job.operation)
  operationId : get payload "operation_id" = .str (lit operationId)
  input : get payload "input" = .obj descriptor
  schemaJson : isStr (get descriptor "schema_json") = true
  inputRows : get descriptor "rows" = .int rows
  payloadDigest : isDigest (get descriptor "payload_digest") = true
  artifactKey : nonEmpty (get descriptor "artifact_key") = true
  readUrl : isHttps (get descriptor "read_url") = true
  outputMapping : get payload "output" = .obj output
  outputKey : nonEmpty (get output "artifact_key") = true
  writeUrl : isHttps (get output "write_url") = true
  params : get payload "params" = .obj job.params
  maxBytes : Json.get? payload "max_bytes" = some (.int store.maxBytes)

theorem validateKey_nonEmpty {t key : String} {u : Unit} (h : validateKey t key = .ok u) :
    nonEmpty (.str (lit key)) = true := by
  unfold validateKey at h
  split at h
  · cases h
  · rename_i hne
    have hlit : lit key ≠ [] := fun heq => hne (PyStr.lit_injective (heq.trans (by decide)))
    simpa [nonEmpty] using hlit

/-- **What `_runpod_input` sends.** -/
theorem runpodInput_sent
    (h : runpodInput store tenantId operationId job outputArtifactKey = .ok payload) :
    ∃ descriptor output rows, job.inputRows = some rows ∧
      Sent store operationId job payload descriptor output rows := by
  unfold runpodInput at h
  split at h
  · cases h
  · rename_i t
    obtain ⟨u, hinput, h⟩ := Fallible.bind_ok.mp h
    obtain ⟨u', houtput, h⟩ := Fallible.bind_ok.mp h
    split at h
    · cases h
    · rename_i hdigest
      split at h
      · cases h
      · rename_i hrequired
        rw [not_or] at hrequired
        obtain ⟨readUrl, hget, h⟩ := Fallible.bind_ok.mp h
        obtain ⟨writeUrl, hput, h⟩ := Fallible.bind_ok.mp h
        obtain ⟨rows, hrows⟩ := Option.ne_none_iff_exists'.mp hrequired.2
        cases h
        rw [hrows]
        refine ⟨_, _, rows, rfl, rfl, rfl, rfl, rfl, rfl, rfl, ?_, ?_, ?_, rfl, ?_, ?_, rfl, rfl⟩
        · refine isSha256Digest_lit ?_
          simpa using hdigest
        · exact validateKey_nonEmpty hinput
        · exact List.isPrefixOf_iff_prefix.mpr (store.https_get _ _ _ hget)
        · exact validateKey_nonEmpty houtput
        · exact List.isPrefixOf_iff_prefix.mpr (store.https_put _ _ _ hput)

theorem Sent.artifacts (h : Sent store operationId job payload descriptor output rows)
    (hrows : rowsOk (.int rows) = true) : Artifacts rowsOk payload descriptor output where
  input := h.input
  schemaJson := h.schemaJson
  rows := h.inputRows ▸ hrows
  payloadDigest := h.payloadDigest
  artifactKey := h.artifactKey
  readUrl := h.readUrl
  outputMapping := h.outputMapping
  outputKey := h.outputKey
  writeUrl := h.writeUrl

theorem Sent.max_positive (h : Sent store operationId job payload descriptor output rows)
    (maxArtifactBytes : Int) :
    positive ((Json.get? payload "max_bytes").getD (.int maxArtifactBytes)) = true := by
  rw [h.maxBytes]
  exact decide_eq_true (Int.natCast_pos.mpr store.positive)

theorem oneOf_lit {texts : List String} {text : String} (h : text ∈ texts) :
    oneOf texts (.str (lit text)) = true :=
  List.any_eq_true.mpr ⟨text, h, beq_self_eq_true _⟩

theorem nonBlank_lit {text : String} :
    nonBlank (.str (lit text)) = true ↔ Text.blank text = false := by
  rw [nonBlank, blank_lit, Bool.not_eq_true']

/-- **An offload job** is accepted iff its id is not blank and its rows are not negative. -/
theorem Sent.offload_iff (h : Sent store operationId job payload descriptor output rows)
    (hoperation : job.operation ∈ OffloadWorker.supportedOperations) :
    OffloadWorker.validateInput (.obj payload) = .ok () ↔
      Text.blank operationId = false ∧ 0 ≤ rows := by
  rw [OffloadWorker.validateInput_iff]
  constructor
  · rintro ⟨fields, descriptor', output', heq, hvalid⟩
    cases heq
    refine ⟨?_, ?_⟩
    · have hid := hvalid.operationId
      rwa [h.operationId, nonBlank_lit] at hid
    · have hrows := hvalid.artifacts.rows
      have hsame : descriptor' = descriptor := by
        have hinput := hvalid.artifacts.input.symm.trans h.input
        cases hinput
        rfl
      rw [hsame, h.inputRows] at hrows
      simpa [isNull, nonNegative] using hrows
  · rintro ⟨hid, hrows⟩
    refine ⟨payload, descriptor, output, rfl, ?_, ?_, ?_, ?_, ?_, ?_⟩
    · rw [h.contract]
      exact beq_self_eq_true _
    · rw [h.operation]
      exact oneOf_lit hoperation
    · rw [h.operationId]
      exact nonBlank_lit.mpr hid
    · exact h.artifacts (by simpa [isNull, nonNegative] using hrows)
    · rw [h.params]
      rfl
    · have hmax := h.max_positive 1
      rw [h.maxBytes, Option.getD_some] at hmax
      rw [get, h.maxBytes, Option.getD_some, hmax, Bool.or_true]

/-! ## Who is admitted -/

/-- The row that is admitted stays the last. -/
theorem enrol_later {κ ν ω : Type} [DecidableEq κ] {s s' : Admissions κ ν ω} {key : κ} {content : ν}
    {progress : ω} {hnew : s.find? key = none} {row : Admitted κ ν ω}
    (hlater : Admissions.Later (s.enrol key content progress hnew) s')
    (hrow : s'.rows[s.rows.length]? = some row) : row.key = key ∧ row.content = content := by
  obtain ⟨row', hrow', hkey, hcontent⟩ := hlater.rows s.rows.length ⟨key, content, progress⟩
    List.getElem?_concat_length
  obtain rfl := Option.some.inj (hrow.symm.trans hrow')
  exact ⟨hkey, hcontent⟩

theorem no_new_row {κ ν ω : Type} {s : Admissions κ ν ω} {row : Admitted κ ν ω}
    (hrow : s.rows[s.rows.length]? = some row) : False := by
  rw [List.getElem?_eq_none (le_refl _)] at hrow
  cases hrow

section Invoke

variable {cfg : Orchestration.InvokeSettings} {t : String} {limit : Option Int}
  {body : Orchestration.InvokeRequest} {fate : Fate (Option String)}
  {s s' : Orchestration.JobTable} {answer : Answer Nat Orchestration.InvokeBody}
  {row : Admitted (String × String) Orchestration.Submission Orchestration.Progress}

/-- A row that `invoke_offload` has inserted. -/
theorem invoke_row (h : Orchestration.invokeOffload cfg t limit body fate s = (s', answer))
    (hrow : s'.rows[s.rows.length]? = some row) : body.operation ∈ Orchestration.registeredOperations ∧
      row.key = (t, body.operationId) ∧ row.content = body.submission := by
  have hregistered : Orchestration.refusal cfg t body = none →
      body.operation ∈ Orchestration.registeredOperations := by
    intro hchecks
    unfold Orchestration.refusal at hchecks
    split at hchecks
    · cases hchecks
    · rename_i hmem
      exact not_not.mp hmem
  unfold Orchestration.invokeOffload at h
  split at h
  · cases h
    exact (no_new_row hrow).elim
  · rename_i hchecks
    split at h
    · cases h
      exact (no_new_row hrow).elim
    · split at h
      · cases h
        exact (no_new_row hrow).elim
      · rename_i hfind
        split at h
        · cases h
          exact (no_new_row hrow).elim
        · have hlater : Admissions.Later
              (s.enrol (t, body.operationId) body.submission {} hfind) s' := by
            rcases Orchestration.dispatchOffload_cases h with
              ⟨rfl, -⟩ | ⟨rfl, -⟩ | ⟨taskId, -, -, rfl⟩
            · exact Admissions.Later.refl _
            · exact Admissions.later_dispatch
            · exact Admissions.later_dispatch.trans (Admissions.later_update _)
          exact ⟨hregistered hchecks, enrol_later hlater hrow⟩

end Invoke

section Submit

variable {cfg : Extraction.SubmitSettings} {t : String} {body : Extraction.SubmitRequest}
  {fate : Fate Extraction.ExtractionJob} {s s' : Extraction.JobTable}
  {answer : Answer Nat Extraction.SubmitBody}
  {row : Admitted Extraction.SubmissionKey Extraction.Submission Extraction.ExtractionJob}
  {params : Fields}

/-- A row that `submit` has inserted. -/
theorem submit_row (h : Extraction.submit cfg t body fate s = (s', answer))
    (hrow : s'.rows[s.rows.length]? = some row) : Extraction.refusal cfg t body = none ∧
      row.content.operation = body.operation ∧
      row.content.params = .obj (Extraction.effectiveParams cfg.contract body.params) := by
  unfold Extraction.submit at h
  split at h
  · cases h
    exact (no_new_row hrow).elim
  · rename_i hchecks
    dsimp only at h
    split at h
    · cases h
      exact (no_new_row hrow).elim
    · split at h
      · cases h
        exact (no_new_row hrow).elim
      · split at h
        · cases h
          exact (no_new_row hrow).elim
        · have hlater : ∀ s₁ : Extraction.JobTable,
              Extraction.dispatchSubmission fate s.rows.length s₁ = (s', answer) →
                Admissions.Later s₁ s' := by
            intro s₁ h
            unfold Extraction.dispatchSubmission at h
            split at h <;> cases h
            · exact Admissions.later_dispatch.trans (Admissions.later_update _)
            · exact Admissions.later_dispatch
            · exact Admissions.Later.refl _
            · exact Admissions.Later.refl _
          obtain ⟨-, hcontent⟩ := enrol_later (hlater _ h) hrow
          rw [hcontent]
          exact ⟨hchecks, rfl, rfl⟩

/-- What the route asks of typed params. -/
theorem validateTypedParams_none (h : Extraction.validateTypedParams params = none) :
    ExtractionWorker.Typed params := by
  unfold Extraction.validateTypedParams at h
  split at h
  · rename_i objectType hobject
    obtain ⟨hnames, hschema⟩ := Option.or_eq_none_iff.mp h
    refine ⟨objectType, by rw [get, hobject]; rfl, fun name hname => ?_, ?_⟩
    · have hcheck := List.findSome?_eq_none_iff.mp hnames name hname
      unfold Extraction.checkObjectTypeField at hcheck
      split at hcheck
      · rename_i text hget
        split at hcheck
        · cases hcheck
        · rename_i hblank
          rw [get, hget, Option.getD_some, nonBlank, Bool.not_eq_true']
          exact Bool.not_eq_true _ ▸ hblank
      · cases hcheck
    · split at hschema
      · rename_i schema hget
        rw [get, hget]
        rfl
      · cases hschema
  · cases h

/-- The object type goes over the wire as it is. -/
theorem ExtractionWorker.Typed.congr {params' : Fields} (h : ExtractionWorker.Typed params)
    (hget : get params' "object_type" = get params "object_type") : ExtractionWorker.Typed params' := by
  obtain ⟨objectType, hobject, hrest⟩ := h.typed
  exact ⟨objectType, hget.trans hobject, hrest⟩

end Submit

section Shards

variable {contract : ExtractionContract} {sha : Sha256} {tenant jobId : Keys.Uuid} {operation : String}
  {params params' : Fields} {index : Nat}

/-- The params of a shard. -/
theorem operationParams_ok
    (h : operationParams contract tenant jobId operation params index = .ok params') :
    isText extractionContract (get params' "contract") = true ∧
      get params' "tenant_id" = .str (lit (uuidText tenant)) ∧
      get params' "job_id" = .str (lit (uuidText jobId)) ∧ get params' "shard" = .int index ∧
      get params' "object_type" = get params "object_type" := by
  unfold operationParams at h
  dsimp only at h
  split at h
  · cases h
  · cases h
    have hcontract : isText extractionContract (.str contract.contract) = true := by
      rw [contract.named]
      exact beq_self_eq_true _
    simp only [get_set, reduceIte, String.reduceEq, and_true]
    exact hcontract

theorem not_blank_uuid (u : Keys.Uuid) : Text.blank (uuidText u) = false := by
  refine List.all_eq_false.mpr ⟨'-', ?_, by decide⟩
  rw [uuidText, String.toList_ofList]
  have hdash : (0x2D : CodePoint) ∈ u.str := by
    rw [Keys.Uuid.str]
    simp only [List.mem_append]
    exact Or.inl (Or.inl (Or.inl (Or.inl (Or.inl (Or.inl (Or.inl (Or.inr (by decide))))))))
  exact List.mem_map.mpr ⟨_, hdash, by decide⟩

/-- **A shard job** is accepted. -/
theorem shard_accepted {cfg : Extraction.SubmitSettings} {t : String}
    {body : Extraction.SubmitRequest} {content : Extraction.Submission} {plan : Extraction.ShardPlan}
    (hchecks : Extraction.refusal cfg t body = none) (hoperation : content.operation = body.operation)
    (hparams : content.params = .obj (Extraction.effectiveParams cfg.contract body.params))
    (hcreate : createOrchestrationJob contract sha tenant jobId content plan = .ok (operationId, job))
    (hsent : Sent store operationId job payload descriptor output rows)
    (hrows : job.inputRows = some rows) (maxArtifactBytes : Int) :
    ExtractionWorker.validateInput maxArtifactBytes (.obj payload) = .ok () := by
  have hknown : body.operation ∈ ["atlas", "typed"] := by
    unfold Extraction.refusal at hchecks
    split at hchecks
    · cases hchecks
    · rename_i hmem
      exact not_not.mp hmem
  have htyped : body.operation = "typed" →
      ExtractionWorker.Typed (Extraction.effectiveParams cfg.contract body.params) := by
    intro heq
    unfold Extraction.refusal at hchecks
    rw [if_neg (not_not.mpr hknown)] at hchecks
    split at hchecks
    · cases hchecks
    · have hlast := (Option.or_eq_none_iff.mp (Option.or_eq_none_iff.mp hchecks).2).2
      exact validateTypedParams_none hlast
  unfold createOrchestrationJob at hcreate
  rw [hparams] at hcreate
  obtain ⟨params, hok, heq⟩ := Fallible.bind_ok.mp hcreate
  obtain ⟨hcontract, htenant, hjob, hshard, hobject⟩ := operationParams_ok hok
  cases heq
  cases hrows
  rw [ExtractionWorker.validateInput_iff]
  have hop : get payload "operation" =
      .str (lit ("data_science.extraction." ++ body.operation)) := by
    rw [hsent.operation, hoperation]
  refine ⟨payload, descriptor, output, params, rfl, ?_, ?_, ?_, ?_, hsent.params, hcontract, ?_, ?_,
    hsent.max_positive _, fun hends => ?_⟩
  · rw [hsent.contract]
    exact beq_self_eq_true _
  · rw [hop]
    have hall : ∀ operation ∈ ["atlas", "typed"],
        "data_science.extraction." ++ operation ∈ ExtractionWorker.supportedOperations := by decide
    exact oneOf_lit (hall _ hknown)
  · rw [hsent.operationId]
    exact nonBlank_lit.mpr (not_blank_hex64 (sha.hex64 _))
  · have hrows : nonNegative (.int (plan.rows : Int)) = true := by
      rw [nonNegative]
      exact decide_eq_true (Int.natCast_nonneg _)
    exact hsent.artifacts hrows
  · intro name hname
    rcases List.mem_pair.mp hname with rfl | rfl
    · rw [htenant]
      exact nonBlank_lit.mpr (not_blank_uuid tenant)
    · rw [hjob]
      exact nonBlank_lit.mpr (not_blank_uuid jobId)
  · rw [hshard]
    rfl
  · refine (htyped ?_).congr hobject
    rcases List.mem_pair.mp hknown with heq | heq
    · rw [hop, heq] at hends
      exact absurd hends (by decide)
    · exact heq

end Shards

/-! ## Both workers -/

/-- The Python operations of `REGISTERED_OPERATIONS` are those that the offload worker serves. -/
theorem python_supported : ∀ operation ∈ Orchestration.registeredOperations,
    Orchestration.isROperation operation = false → operation ∈ OffloadWorker.supportedOperations := by
  decide +kernel

/-- **The wire.**  The payload of a job that `invoke_offload` has inserted for a Python operation is
    accepted if and only if its operation id is not blank and its number of rows is not negative; the
    payload of a shard job of an admitted extraction is always accepted. -/
theorem payload_accepted_iff (store : SigningStore) :
    (∀ cfg t limit body fate s s' answer row,
      Orchestration.invokeOffload cfg t limit body fate s = (s', answer) →
      s'.rows[s.rows.length]? = some row → Orchestration.isROperation body.operation = false →
      ∀ key payload, runpodInput store (some row.key.1) row.key.2 row.content key = .ok payload →
        (OffloadWorker.validateInput (.obj payload) = .ok () ↔
          Text.blank body.operationId = false ∧ ∀ rows, body.input.rows = some rows → 0 ≤ rows)) ∧
    ∀ cfg tenant body fate s s' answer row,
      Extraction.submit cfg (uuidText tenant) body fate s = (s', answer) →
      s'.rows[s.rows.length]? = some row → ∀ contract sha jobId plan operationId job,
      createOrchestrationJob contract sha tenant jobId row.content plan = .ok (operationId, job) →
      ∀ key payload, runpodInput store (some (uuidText tenant)) operationId job key = .ok payload →
        ∀ maxArtifactBytes,
          ExtractionWorker.validateInput maxArtifactBytes (.obj payload) = .ok () := by
  constructor
  · intro cfg t limit body fate s s' answer row hinvoke hrow hpython key payload hsent
    obtain ⟨hregistered, hkey, hcontent⟩ := invoke_row hinvoke hrow
    rw [hkey, hcontent] at hsent
    obtain ⟨descriptor, output, rows, hrows, hsent⟩ := runpodInput_sent hsent
    have hrows : body.input.rows = some rows := hrows
    rw [hsent.offload_iff (python_supported _ hregistered hpython), hrows]
    refine and_congr_right fun _ => ⟨fun h rows' heq => ?_, fun h => h rows rfl⟩
    exact Option.some.inj heq ▸ h
  · intro cfg tenant body fate s s' answer row hsubmit hrow contract sha jobId plan operationId job
      hcreate key payload hsent maxArtifactBytes
    obtain ⟨hchecks, hoperation, hparams⟩ := submit_row hsubmit hrow
    obtain ⟨descriptor, output, rows, hrows, hsent⟩ := runpodInput_sent hsent
    exact shard_accepted hchecks hoperation hparams hcreate hsent hrows maxArtifactBytes

/-- A store that signs nothing. -/
def toySigning : SigningStore where
  maxBytes := 1024
  positive := by decide
  presignGet _ key := .ok (lit ("https://" ++ key))
  presignPut _ key := .ok (lit ("https://" ++ key))
  https_get := by
    rintro t key url ⟨⟩
    exact PyStr.lit_append .. ▸ List.prefix_append ..
  https_put := by
    rintro t key url ⟨⟩
    exact PyStr.lit_append .. ▸ List.prefix_append ..

/-- Three rows, or none, or less. -/
def toyInvoke (operationId : String) (rows : Int) : Orchestration.InvokeRequest where
  operation := "data_science.community.assign"
  operationId := operationId
  input :=
    { arrowSchemaJson := "\x7b\x7d"
      rows := some rows
      payloadDigest := "sha256:0000000000000000000000000000000000000000000000000000000000000000"
      artifactKey := "tenants/acme/inputs/edges.arrow" }

def toyTenant : Keys.Uuid := ⟨0, Nat.pow_pos (Nat.succ_pos 15)⟩

def toyContract : ExtractionContract where
  contract := lit "theorem.extraction.v1"
  defaultModelId := lit "model"
  promptHashes := []
  schemaHash := lit "schema"
  chunking := .obj []
  model := .obj []
  named := rfl

def toySubmit : Extraction.SubmitSettings where
  contract := toyContract.toContractFile
  repr _ := []
  hexdigest _ := ""
  jsonb _ := []

def toySha : Sha256 where
  hexdigest _ := "0000000000000000000000000000000000000000000000000000000000000000"
  hex64 _ := by decide +kernel

def toyPlan : Extraction.ShardPlan where
  index := 0
  artifactKey := "tenants/00000000-0000-0000-0000-000000000000/in/0.arrow"
  payloadDigest := "sha256:0000000000000000000000000000000000000000000000000000000000000000"
  schemaJson := "\x7b\x7d"
  rows := 0
  byteLength := 0

theorem payload_accepted_small :
    (∃ payload, runpodInput toySigning (some "acme") "op" (toyInvoke "op" 3).submission
        "tenants/acme/outputs/0.arrow" = .ok payload ∧
      OffloadWorker.validateInput (.obj payload) = .ok ()) ∧
    ∃ operationId job payload, runpodInput toySigning (some (uuidText toyTenant)) operationId job
        "tenants/00000000-0000-0000-0000-000000000000/outputs/0.arrow" = .ok payload ∧
      ExtractionWorker.validateInput 1024 (.obj payload) = .ok () := by
  constructor
  · obtain ⟨payload, hpayload⟩ := Fallible.isOk_iff.mp (by decide +kernel :
      (runpodInput toySigning (some "acme") "op" (toyInvoke "op" 3).submission
        "tenants/acme/outputs/0.arrow").isOk = true)
    refine ⟨payload, hpayload, ?_⟩
    refine ((payload_accepted_iff toySigning).1 {} "acme" none (toyInvoke "op" 3) (.answered none)
      Admissions.empty _ _ _ rfl rfl (by decide +kernel) _ payload hpayload).mpr ⟨by decide, ?_⟩
    intro rows heq
    cases heq
    decide
  · have hrun : (((Extraction.submit toySubmit (uuidText toyTenant) ⟨"atlas", "artifact", [], []⟩
        (.answered {}) Admissions.empty).1.rows[0]?.bind fun row =>
          (createOrchestrationJob toyContract toySha toyTenant toyTenant row.content toyPlan).toOption).any
        fun j => (runpodInput toySigning (some (uuidText toyTenant)) j.1 j.2
          "tenants/00000000-0000-0000-0000-000000000000/outputs/0.arrow").isOk) = true := by
      decide +kernel
    obtain ⟨j, hj, hsent⟩ := (Option.any_eq_true ..).mp hrun
    obtain ⟨row, hrow, hcreate⟩ := Option.bind_eq_some_iff.mp hj
    obtain ⟨payload, hpayload⟩ := Fallible.isOk_iff.mp hsent
    have hcreate : createOrchestrationJob toyContract toySha toyTenant toyTenant row.content toyPlan =
        .ok (j.1, j.2) := by
      cases hok : createOrchestrationJob toyContract toySha toyTenant toyTenant row.content toyPlan with
      | error e =>
        rw [hok] at hcreate
        cases hcreate
      | ok j' =>
        rw [hok] at hcreate
        cases hcreate
        rfl
    exact ⟨j.1, j.2, payload, hpayload, (payload_accepted_iff toySigning).2 toySubmit toyTenant
      ⟨"atlas", "artifact", [], []⟩ (.answered {}) Admissions.empty _ _ row rfl hrow toyContract toySha
      toyTenant toyPlan j.1 j.2 hcreate _ payload hpayload 1024⟩

/-- An admitted request with -1 rows is refused by the worker. -/
theorem payload_refused : ¬ ∀ (store : SigningStore) cfg t limit body fate s s' answer row,
    Orchestration.invokeOffload cfg t limit body fate s = (s', answer) →
    s'.rows[s.rows.length]? = some row → Orchestration.isROperation body.operation = false →
    ∀ key payload, runpodInput store (some row.key.1) row.key.2 row.content key = .ok payload →
      OffloadWorker.validateInput (.obj payload) = .ok () := by
  intro hlaw
  obtain ⟨payload, hpayload⟩ := Fallible.isOk_iff.mp (by decide +kernel :
    (runpodInput toySigning (some "acme") "op" (toyInvoke "op" (-1)).submission
      "tenants/acme/outputs/0.arrow").isOk = true)
  have haccepted := hlaw toySigning { offloadExecutionMode := "runpod" } "acme" none
    (toyInvoke "op" (-1)) (.answered none) Admissions.empty _ _ _ rfl rfl (by decide +kernel) _ payload
    hpayload
  obtain ⟨descriptor, output, rows, hrows, hsent⟩ := runpodInput_sent hpayload
  have hnegative := ((hsent.offload_iff (by decide)).mp haccepted).2
  cases hrows
  exact absurd hnegative (by decide)

end ControlPlane.Workers
