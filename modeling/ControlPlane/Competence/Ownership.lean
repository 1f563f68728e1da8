/-
  OWNERSHIP of artifacts: the cleanup of one competence job takes nothing from another.

  A cleanup deletes what is recorded on its own row, and it looks at no other row.  That no other row
  records the same key is a chain: a tenant uses an operation id once, so no two rows have one
  request; so their request digests differ; so the documents of their fits differ, which carry the
  digest; so the addresses differ, and with them the ends of the keys.  The two steps from documents to
  digests are SHA-256's, and are asked only of the documents that the run hashes.

  The scopes in the keys play no part in it, neither within a project nor across tenants.
-/
import ControlPlane.Competence.Publication

namespace ControlPlane.Competence

open ControlPlane.Interleave

variable {c : Canonical} {maxBytes : Nat} {d d' : Store c} {p p' : Delivery c} {w : Write c}
  {b b' : JobBinding} {f : Fitted c} {key : String} {documents : List Payload}
  {s s' : Config (Store c) (Delivery c)}
  {C : Config (Store c) (Delivery c) → Event (Delivery c) Answer Move → Prop}

/-! ## What a run hashes -/

/-- No two of these documents have one digest. -/
def CollisionFree (c : Canonical) (documents : List Payload) : Prop :=
  ∀ x ∈ documents, ∀ y ∈ documents, c.hexdigest x = c.hexdigest y → x = y

instance decidableCollisionFree (c : Canonical) (documents : List Payload) :
    Decidable (CollisionFree c documents) :=
  inferInstanceAs (Decidable (∀ x ∈ documents, ∀ y ∈ documents,
    c.hexdigest x = c.hexdigest y → x = y))

def Fitted.payloads (f : Fitted c) : List Payload := [f.payload .priorPack, f.payload .scorerModel]

/-- The fit that a delivery is publishing. -/
def Delivery.fitted (p : Delivery c) : Option (Fitted c) :=
  match p.pc with
  | .put w | .readBack w _ | .record w _ => some w.fitted
  | .finishSuccess f _ => some f
  | .claim | .fit _ | .finishProblem _ | .done _ | .crashed => none

/-- The requests of all rows, and the documents of all fits that are being published. -/
def hashed (s : Config (Store c) (Delivery c)) : List Payload :=
  (s.store.jobs.map fun job => .request job.binding.request) ++
    s.procs.flatMap fun p => (p.fitted.map Fitted.payloads).getD []

/-- Nothing but these documents is hashed. -/
def hashesWithin (documents : List Payload) (s : Config (Store c) (Delivery c))
    (_ : Event (Delivery c) Answer Move) : Bool :=
  (hashed s).all fun x => x ∈ documents

theorem request_within {e : Event (Delivery c) Answer Move} {job : CompetenceJob c}
    (h : hashesWithin documents s e = true) (hjob : job ∈ s.store.jobs) :
    .request job.binding.request ∈ documents :=
  of_decide_eq_true (List.all_eq_true.mp h _
    (List.mem_append_left _ (List.mem_map.mpr ⟨job, hjob, rfl⟩)))

theorem document_within {e : Event (Delivery c) Answer Move}
    (h : hashesWithin documents s e = true) (hp : p ∈ s.procs) (hfitted : p.fitted = some f)
    (kind : ArtifactKind) : f.payload kind ∈ documents := by
  refine of_decide_eq_true (List.all_eq_true.mp h _ (List.mem_append_right _ ?_))
  refine List.mem_flatMap.mpr ⟨p, hp, ?_⟩
  rw [hfitted]
  cases kind <;> simp [Fitted.payloads]

/-! ## Owned keys -/

/-- `request_digest` of a fitted document. -/
def Payload.requestDigest : Payload → Option String
  | .priorPack value => some value.requestDigest
  | .model value => some value.requestDigest
  | _ => none

/-- The key ends in the digest of a document that was fitted for the request. -/
def Owns (c : Canonical) (documents : List Payload) (b : JobBinding) (key : String) : Prop :=
  .request b.request ∈ documents ∧ ∃ x ∈ documents, x.requestDigest = some b.requestDigest ∧
    ∃ pre, key = pre ++ c.hexdigest x

/-- What a submission writes into a row. -/
structure Submitted (c : Canonical) (b : JobBinding) : Prop where
  digest : b.requestDigest = c.address (.request b.request)
  tenant : b.tenantId = b.request.scope.tenantId
  operation : b.operationId = b.request.operationId

theorem owns_keyOf {kind : ArtifactKind} (hrequest : .request b.request ∈ documents)
    (hdocument : f.payload kind ∈ documents) (hdocuments : Documents b.requestDigest f)
    (hkey : b.keyOf f kind = .ok key) : Owns c documents b key := by
  refine ⟨hrequest, f.payload kind, hdocument, ?_, _, keyOf_eq hkey⟩
  cases kind with
  | scorerModel => exact congrArg some hdocuments.model
  | priorPack => exact congrArg some hdocuments.priorPack

/-- **A key has one owner**, when no two documents collide. -/
theorem Owns.unique (hfree : CollisionFree c documents) (hb : Submitted c b) (hb' : Submitted c b')
    (h : Owns c documents b key) (h' : Owns c documents b' key) : b.request = b'.request := by
  obtain ⟨hrequest, x, hx, hxdigest, pre, hkey⟩ := h
  obtain ⟨hrequest', y, hy, hydigest, pre', hkey'⟩ := h'
  obtain rfl : x = y := hfree x hx y hy
    (Text.hex64_of_append (c.hex64 x) (c.hex64 y) (hkey.symm.trans hkey'))
  have hdigest : b.requestDigest = b'.requestDigest := Option.some.inj (hxdigest.symm.trans hydigest)
  rw [hb.digest, hb'.digest] at hdigest
  exact Payload.request.inj (hfree _ hrequest _ hrequest'
    (Text.hex64_of_append (c.hex64 _) (c.hex64 _) hdigest))

/-! ## One step -/

theorem mem_dictSet {entries : List (String × String)} {value : String} {e : String × String}
    (h : e ∈ dictSet entries key value) : e = (key, value) ∨ e ∈ entries := by
  unfold dictSet at h
  split at h
  · obtain ⟨e', he', rfl⟩ := List.mem_map.mp h
    split
    · exact .inl rfl
    · exact .inr he'
  · rcases List.mem_append.mp h with h | h
    · exact .inr h
    · exact .inl (List.mem_singleton.mp h)

theorem claimJob_artifactKeys (taskId : String) (job : CompetenceJob c) :
    (claimJob taskId job).artifactKeys = job.artifactKeys := by
  unfold claimJob
  split
  · rfl
  · split <;> rfl

theorem finishProblem_artifactKeys (problem : Problem) (job : CompetenceJob c) :
    (finishProblem problem job).1.artifactKeys = job.artifactKeys := by
  unfold finishProblem
  split <;> rfl

theorem finishSuccess_artifactKeys (scorer : ScorerArtifact c) (keys : List (String × String))
    (job : CompetenceJob c) : (finishSuccess scorer keys job).1.artifactKeys = job.artifactKeys ∨
      (finishSuccess scorer keys job).1.artifactKeys = keys := by
  unfold finishSuccess
  split
  · exact .inl rfl
  · split
    · exact .inl rfl
    · split
      · exact .inl rfl
      · exact .inr rfl

theorem recordArtifact_artifactKeys {artifactId : String} {job job' : CompetenceJob c}
    (h : recordArtifact artifactId key job = .ok job') :
    job'.artifactKeys = dictSet job.artifactKeys artifactId key := by
  unfold recordArtifact at h
  split at h
  · cases h
  · cases h
    rfl

theorem Bound.found {jobId : String} {job : CompetenceJob c}
    (hids : (d.jobs.map CompetenceJob.id).Nodup) (h : Bound d jobId b)
    (hjob : d.find jobId = some job) : job.binding = b := by
  obtain ⟨row, hrow, hid, rfl⟩ := h
  obtain ⟨hmem, hid'⟩ := find_some hjob
  rw [Table.eq_of_key hids hmem hrow (hid'.trans hid.symm)]

/-- A delivery that publishes this fit may record this key: it is the fit's own. -/
def Publishes (C : Config (Store c) (Delivery c) → Event (Delivery c) Answer Move → Prop)
    (maxBytes : Nat) (s : Config (Store c) (Delivery c)) (p : Delivery c) (b : JobBinding)
    (key : String) : Prop :=
  ∃ f kind, p.fitted = some f ∧ Computed C maxBytes b f s ∧ b.keyOf f kind = .ok key

/-- What a row transaction records was recorded before, or is the key of what is being published. -/
theorem Next.records {job' : CompetenceJob c} {e : String × String}
    (hids : (s.store.jobs.map CompetenceJob.id).Nodup) (hp : Told C maxBytes s p)
    (h : Next maxBytes s.store p (.save job') p') (he : e ∈ job'.artifactKeys) :
    ∃ job ∈ s.store.jobs, job'.id = job.id ∧ job'.binding = job.binding ∧
      (e ∈ job.artifactKeys ∨ Publishes C maxBytes s p job.binding e.2) := by
  cases h with
  | @claim job hpc hjob =>
    rw [claimJob_artifactKeys] at he
    exact ⟨job, (find_some hjob).1, (claimJob_keeps ..).id, (claimJob_keeps ..).binding, .inl he⟩
  | @record w key job job' hpc hjob hrecord =>
    have hkeeps := recordArtifact_keeps hrecord
    refine ⟨job, (find_some hjob).1, hkeeps.id, hkeeps.binding, ?_⟩
    rw [recordArtifact_artifactKeys hrecord] at he
    rcases mem_dictSet he with rfl | he
    · simp only [Told, hpc] at hp
      obtain ⟨hunderway, hdelivered⟩ := hp
      have hbinding := hunderway.bound.found hids hjob
      exact .inr ⟨w.fitted, w.kind, by rw [Delivery.fitted, hpc], hbinding ▸ hunderway.computed,
        hbinding ▸ hdelivered.placed⟩
    · exact .inl he
  | @finishSuccess f keys job hpc hjob =>
    have hkeeps := finishSuccess_keeps f.scorer keys job
    refine ⟨job, (find_some hjob).1, hkeeps.id, hkeeps.binding, ?_⟩
    rcases finishSuccess_artifactKeys f.scorer keys job with hkeys | hkeys
    · exact .inl (hkeys ▸ he)
    · rw [hkeys] at he
      simp only [Told, hpc] at hp
      obtain ⟨b, hbound, hcomputed, priorKey, modelKey, hprior, hmodel, rfl⟩ := hp
      obtain rfl := hbound.found hids hjob
      have hfitted : p.fitted = some f := by rw [Delivery.fitted, hpc]
      rcases mem_dictSet he with rfl | he
      · exact .inr ⟨f, .scorerModel, hfitted, hcomputed, hmodel.placed⟩
      · rcases mem_dictSet he with rfl | he
        · exact .inr ⟨f, .priorPack, hfitted, hcomputed, hprior.placed⟩
        · cases he
  | @finishProblem problem job hpc hjob =>
    have hkeeps := finishProblem_keeps problem job
    rw [finishProblem_artifactKeys] at he
    exact ⟨job, (find_some hjob).1, hkeeps.id, hkeeps.binding, .inl he⟩

/-! ## Runs -/

/-- Every row is as it was submitted, no two have one request, and each owns what it records. -/
structure Owned (documents : List Payload) (d : Store c) : Prop where
  submitted : ∀ job ∈ d.jobs, Submitted c job.binding
  distinct : (d.jobs.map fun job => job.binding.request).Nodup
  owns : ∀ job ∈ d.jobs, ∀ e ∈ job.artifactKeys, Owns c documents job.binding e.2

/-- Rows that keep their bindings. -/
theorem Owned.rebound (hd : Owned documents d)
    (hbindings : d'.jobs.map CompetenceJob.binding = d.jobs.map CompetenceJob.binding)
    (howns : ∀ job' ∈ d'.jobs, ∀ e ∈ job'.artifactKeys, Owns c documents job'.binding e.2) :
    Owned documents d' := by
  refine ⟨fun job' hjob' => ?_, ?_, howns⟩
  · have hmem : job'.binding ∈ d.jobs.map CompetenceJob.binding :=
      hbindings ▸ List.mem_map_of_mem hjob'
    obtain ⟨job, hjob, hsame⟩ := List.mem_map.mp hmem
    exact hsame ▸ hd.submitted job hjob
  · have hrequests := congrArg (List.map JobBinding.request) hbindings
    rw [List.map_map, List.map_map] at hrequests
    exact hrequests ▸ hd.distinct

theorem Owned.act {e : Event (Delivery c) Answer Move} (hs : Known C maxBytes s)
    (hd : Owned documents s.store) (hwithin : hashesWithin documents s e = true) (hp : p ∈ s.procs)
    (h : Next maxBytes s.store p w p') : Owned documents (s.store.apply w) := by
  refine hd.rebound (h.bindings hs.ids) fun job' hjob' entry hentry => ?_
  cases w with
  | nothing | put => exact hd.owns job' hjob' entry hentry
  | save saved =>
    obtain ⟨old, hold, hkeeps⟩ := h.saved
    rcases (mem_save (find_some hold).1 hkeeps.id).mp hjob' with rfl | ⟨hmem, -⟩
    · obtain ⟨job, hjob, -, hbinding, hrecorded | ⟨f, kind, hfitted, hcomputed, hkey⟩⟩ :=
        h.records hs.ids (hs.told p hp) hentry
      · exact hbinding ▸ hd.owns job hjob entry hrecorded
      · rw [hbinding]
        exact owns_keyOf (request_within hwithin hjob) (document_within hwithin hp hfitted kind)
          hcomputed.documents hkey
    · exact hd.owns job' hmem entry hentry

theorem Owned.submit {operation : Operation} {tenantId id : String} {projects : List String}
    {body : FitRequest} {reused : Bool} (hd : Owned documents d)
    (h : submit operation tenantId projects id body d = .ok (reused, d')) : Owned documents d' := by
  rcases submit_cases h with rfl | ⟨htenant, hnew, rfl⟩
  · exact hd
  · refine ⟨fun job hjob => ?_, List.nodup_cons.mpr ⟨fun hmem => ?_, hd.distinct⟩,
      fun job hjob e he => ?_⟩
    · rcases List.mem_cons.mp hjob with rfl | hjob
      · exact ⟨rfl, htenant.symm, rfl⟩
      · exact hd.submitted job hjob
    · -- a row with this request has this tenant and this operation id
      obtain ⟨job, hjob, hrequest⟩ := List.mem_map.mp hmem
      have hsubmitted := hd.submitted job hjob
      refine hnew job hjob ?_ ?_
      · rw [hsubmitted.tenant, hrequest, htenant]
      · rw [hsubmitted.operation, hrequest]
    · rcases List.mem_cons.mp hjob with rfl | hjob
      · cases he
      · exact hd.owns job hjob e he

theorem Owned.sweep (hd : Owned documents d) (stale : List String) :
    Owned documents (sweep stale d) := by
  have hrow : ∀ job : CompetenceJob c, ∀ job', job' = (if job.id ∈ stale ∧ job.status = .running then
      { job with status := .queued, celeryTaskId := "" } else job) →
      job'.binding = job.binding ∧ job'.artifactKeys = job.artifactKeys := by
    rintro job _ rfl
    split <;> exact ⟨rfl, rfl⟩
  refine hd.rebound ?_ fun job' hjob' e he => ?_
  · rw [Competence.sweep, List.map_map]
    exact List.map_congr_left fun job _ => (hrow job _ rfl).1
  · obtain ⟨job, hjob, rfl⟩ := List.mem_map.mp hjob'
    obtain ⟨hbinding, hkeys⟩ := hrow job _ rfl
    rw [hkeys] at he
    rw [hbinding]
    exact hd.owns job hjob e he

theorem Owned.cleanup (hids : (d.jobs.map CompetenceJob.id).Nodup) (hd : Owned documents d)
    (tenantId jobId : String) (body : CleanupRequest) (configured : Reply)
    (answer : String → Reply) :
    Owned documents (cleanup tenantId jobId body configured answer d).1 := by
  have hmoved := cleanup_moved d tenantId jobId body configured answer
  generalize (Competence.cleanup tenantId jobId body configured answer d).1 = d' at hmoved
  cases hmoved with
  | same => exact hd
  | delete => exact ⟨hd.submitted, hd.distinct, hd.owns⟩
  | @cleanup _ _ _ _ _ job objects digest receipt hjob =>
    refine hd.rebound ?_ fun job' hjob' e he => ?_
    · refine Table.modify_map fun r hr hid => ?_
      rw [Table.eq_of_key hids hr hjob hid]
    · rcases (mem_save hjob (by rfl)).mp hjob' with rfl | ⟨hmem, -⟩
      · exact hd.owns job hjob e he
      · exact hd.owns job' hmem e he

theorem owned_reach
    (h : (jobMachine c maxBytes).Reach (fun s e => hashesWithin documents s e) (initial c) s) :
    Owned documents s.store := by
  refine (Program.Reach.invariant (jobMachine c maxBytes)
    (I := fun s => Known (fun s e => hashesWithin documents s e) maxBytes s ∧ Owned documents s.store)
    ?_ h ⟨known_reach .refl, fun _ h => absurd h List.not_mem_nil, List.nodup_nil,
      fun _ h => absurd h List.not_mem_nil⟩).2
  rintro s e s' ⟨hknown, howned⟩ hC he
  refine ⟨hknown.step hC he, ?_⟩
  cases e with
  | spawn p =>
    obtain ⟨-, rfl⟩ := (jobMachine c maxBytes).step_spawn he
    exact howned
  | act i answer =>
    obtain ⟨p, d', p', hget, hact, rfl⟩ := (jobMachine c maxBytes).step_act he
    obtain ⟨w, hnext, rfl⟩ := jobMachine_act hact
    exact howned.act hknown hC (List.mem_of_getElem? hget) hnext
  | env m =>
    obtain ⟨d', hmove, rfl⟩ := (jobMachine c maxBytes).step_env he
    cases m with
    | submit operation tenantId projects id body =>
      simp only [jobMachine, move] at hmove
      split at hmove
      · cases hmove
      split at hmove
      · rename_i hsubmit
        cases hmove
        exact howned.submit hsubmit
      · cases hmove
        exact howned
    | sweep stale =>
      cases hmove
      exact howned.sweep stale
    | cleanup tenantId jobId body configured answer =>
      cases hmove
      exact howned.cleanup hknown.ids tenantId jobId body configured answer

/-! ## Cleanups -/

/-- The keys that a successful cleanup with these artifacts deletes; a job that has its receipt is
    not cleaned again. -/
def CompetenceJob.deletedKeys (job : CompetenceJob c) (artifactIds : List String) : List String :=
  if job.cleanupReceipt.isSome then []
  else artifactIds.filterMap fun artifactId => job.artifactKeys.lookup artifactId

theorem deleteObject_filter (objects : List StoredObject) (key : String) (keys : List String) :
    (deleteObject objects key).filter (fun o => o.key ∉ keys) =
      objects.filter fun o => o.key ∉ key :: keys := by
  rw [deleteObject, List.filter_filter]
  refine List.filter_congr fun o _ => ?_
  by_cases hkey : o.key = key <;> simp [hkey]

/-- When all deletions succeed, each key was recorded and admitted, and the objects under these keys
    are gone, and no others. -/
theorem deleteArtifacts_keys {job : CompetenceJob c} {tenantId candidateId : String}
    {answer : String → Reply} {artifactIds : List String} {objects objects' : List StoredObject}
    (h : deleteArtifacts job tenantId candidateId answer artifactIds objects = (objects', .ok ())) :
    objects' = objects.filter (fun o =>
        o.key ∉ artifactIds.filterMap fun artifactId => job.artifactKeys.lookup artifactId) ∧
      ∀ key ∈ artifactIds.filterMap fun artifactId => job.artifactKeys.lookup artifactId,
        validateCompetenceKey c tenantId job.binding.projectId candidateId key = .ok () := by
  induction artifactIds generalizing objects with
  | nil =>
    cases h
    exact ⟨by simp, fun _ hkey => absurd hkey List.not_mem_nil⟩
  | cons artifactId rest ih =>
    unfold deleteArtifacts at h
    split at h
    · cases h
    rename_i key hkey
    split at h
    · cases h
    rename_i hvalid
    split at h
    · obtain ⟨hobjects, hkeys⟩ := ih h
      have hcons : ((artifactId :: rest).filterMap fun artifactId => job.artifactKeys.lookup artifactId) =
          key :: rest.filterMap fun artifactId => job.artifactKeys.lookup artifactId :=
        List.filterMap_cons_some hkey
      rw [hcons]
      refine ⟨hobjects.trans (deleteObject_filter ..), fun key' hkey' => ?_⟩
      rcases List.mem_cons.mp hkey' with rfl | hkey'
      · exact hvalid
      · exact hkeys key' hkey'
    · split at h <;> cases h

/-- What a cleanup that answers with a receipt has done. -/
theorem cleanup_ok {tenantId jobId : String} {body : CleanupRequest} {configured : Reply}
    {answer : String → Reply} {receipt : CleanupReceipt}
    (h : cleanup tenantId jobId body configured answer d = (d', .ok receipt)) :
    ∃ job ∈ d.jobs, job.id = jobId ∧
      d'.objects = d.objects.filter (fun o => o.key ∉ job.deletedKeys body.artifactIds) ∧
      ∀ key ∈ job.deletedKeys body.artifactIds, validateCompetenceKey c job.binding.tenantId
        job.binding.projectId job.binding.request.scope.candidateId key = .ok () := by
  unfold cleanup at h
  iterate 4
    split at h
    · cases h
  split at h
  · cases h
  rename_i job hfound
  have hrow := List.find?_some hfound
  simp only [decide_eq_true_eq] at hrow
  refine ⟨job, List.mem_of_find?_eq_some hfound, hrow.1, ?_⟩
  split at h
  · cases h
  rename_i hscope
  split at h
  · -- the receipt is there, and nothing is deleted
    rename_i hreceipt
    have hkeys : job.deletedKeys body.artifactIds = [] := if_pos (by rw [hreceipt]; rfl)
    split at h
    · cases h
    · cases h
      exact ⟨by simp [hkeys], fun key hkey => by rw [hkeys] at hkey; cases hkey⟩
  · rename_i hreceipt
    have hkeys : job.deletedKeys body.artifactIds =
        body.artifactIds.filterMap fun artifactId => job.artifactKeys.lookup artifactId :=
      if_neg (by rw [hreceipt]; exact Bool.false_ne_true)
    split at h
    · cases h
    split at h
    · cases h
    dsimp only at h
    split at h
    · cases h
    rename_i hdeleted
    cases h
    obtain ⟨hobjects, hvalid⟩ := deleteArtifacts_keys (Prod.ext rfl hdeleted)
    rw [hkeys, hrow.2, ← not_not.mp (not_or.mp hscope).1]
    exact ⟨hobjects, hvalid⟩

/-- **Cleanups are isolated.**  In every reachable state, a successful cleanup deletes exactly the
    objects under keys that are recorded on its own row, each of them in the scope of the job, and no
    other row of any tenant, project or candidate records one of these keys; when SHA-256 tells the
    documents that the run has hashed apart. -/
theorem cleanup_isolated (maxBytes : Nat) (hfree : CollisionFree c documents)
    (h : (jobMachine c maxBytes).Reach (fun s e => hashesWithin documents s e) (initial c) s)
    {tenantId jobId : String} {body : CleanupRequest} {configured : Reply} {answer : String → Reply}
    {receipt : CleanupReceipt}
    (hok : (cleanup tenantId jobId body configured answer s.store).2 = .ok receipt) :
    ∃ job ∈ s.store.jobs, job.id = jobId ∧
      (cleanup tenantId jobId body configured answer s.store).1.objects =
        s.store.objects.filter (fun o => o.key ∉ job.deletedKeys body.artifactIds) ∧
      ∀ key ∈ job.deletedKeys body.artifactIds,
        validateCompetenceKey c job.binding.tenantId job.binding.projectId
          job.binding.request.scope.candidateId key = .ok () ∧
        ∀ other ∈ s.store.jobs, other.id ≠ jobId → key ∉ other.artifactKeys.map Prod.snd := by
  obtain ⟨job, hjob, hid, hobjects, hvalid⟩ := cleanup_ok (Prod.ext rfl hok)
  have howned := owned_reach h
  refine ⟨job, hjob, hid, hobjects, fun key hkey => ⟨hvalid key hkey, fun other hother hne hmem => ?_⟩⟩
  obtain ⟨entry, hentry, rfl⟩ := List.mem_map.mp hmem
  have hown : Owns c documents job.binding entry.2 := by
    unfold CompetenceJob.deletedKeys at hkey
    split at hkey
    · cases hkey
    · obtain ⟨artifactId, -, hlookup⟩ := List.mem_filterMap.mp hkey
      exact howned.owns job hjob (artifactId, entry.2) (Table.mem_of_lookup hlookup)
  have hsame : job.binding.request = other.binding.request :=
    hown.unique hfree (howned.submitted job hjob) (howned.submitted other hother)
      (howned.owns other hother entry hentry)
  have hrow : job = other := Table.eq_of_key howned.distinct hjob hother hsame
  exact hne (hrow ▸ hid)

/-! ## A concrete run -/

/-- A fit is recorded up to its prior pack; a refit has been submitted. -/
def recordPriorPack : List (Event (Delivery recorded) Answer Move) :=
  [firstSubmission, .env (.submit .refit recordedScope.tenantId [recordedScope.projectId]
      "44444444-4444-4444-8444-444444444444" secondFit.request),
    firstDelivery "task-1"] ++ firstSteps 5

def firstCleanup : CleanupRequest where
  contract := competenceExchangeSchema
  cleanupOperationId := "cleanup-1"
  jobId := firstJobId
  scope := recordedScope
  artifactIds := [firstPriorPackId]

theorem cleanup_isolated_first : ∃ s : Config (Store recorded) (Delivery recorded),
    s.store.jobs.length = 2 ∧ ∃ job ∈ s.store.jobs, job.id = firstJobId ∧
      (cleanup recordedScope.tenantId firstJobId firstCleanup .ok (fun _ => .ok) s.store).1.objects =
        s.store.objects.filter (fun o => o.key ∉ job.deletedKeys firstCleanup.artifactIds) ∧
      ∀ key ∈ job.deletedKeys firstCleanup.artifactIds,
        validateCompetenceKey recorded job.binding.tenantId job.binding.projectId
          job.binding.request.scope.candidateId key = .ok () ∧
        ∀ other ∈ s.store.jobs, other.id ≠ firstJobId → key ∉ other.artifactKeys.map Prod.snd := by
  have hrun : ((jobMachine recorded 67108864).run (initial recorded) (recordPriorPack.take 5)).any
      (fun m => decide (CollisionFree recorded (hashed m)) &&
        ((jobMachine recorded 67108864).runWhen (fun s e => hashesWithin (hashed m) s e)
          (initial recorded) recordPriorPack).any fun s => s.store.jobs.length == 2 &&
            (cleanup recordedScope.tenantId firstJobId firstCleanup .ok (fun _ => .ok)
              s.store).2.toBool) = true := by
    decide +kernel
  obtain ⟨m, -, hrest⟩ := (Option.any_eq_true ..).mp hrun
  obtain ⟨hfree, hlater⟩ := Bool.and_eq_true _ _ ▸ hrest
  obtain ⟨s, hs, hdone⟩ := (Option.any_eq_true ..).mp hlater
  obtain ⟨htwo, hanswer⟩ := Bool.and_eq_true _ _ ▸ hdone
  cases hok : (cleanup recordedScope.tenantId firstJobId firstCleanup .ok (fun _ => .ok) s.store).2 with
  | error problem => rw [hok] at hanswer; cases hanswer
  | ok receipt =>
    exact ⟨s, beq_iff_eq.mp htwo, cleanup_isolated 67108864 (of_decide_eq_true hfree)
      (Program.runWhen_reach _ recordPriorPack hs) hok⟩

end ControlPlane.Competence
