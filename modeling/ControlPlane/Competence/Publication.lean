/-
  PUBLICATION of a fit, under every interleaving: what a job that becomes SUCCEEDED has in the store.

  The local variables of a delivery do not say that its artifacts have been put and read back; the
  run does.  `Told` says of every program point what has happened before a delivery can be there, with
  `Program.Once` for the past: at the end BOTH documents of the fit have been put under their keys by
  a delivery of the job, and a delivery of the job has found their exact bytes there.  No hypothesis
  is needed for that: a retry begins again at its claim, a crash ends the delivery, and what another
  delivery does in between takes nothing back that has happened.

  Without cleanups nothing is ever deleted, so at the moment of success an object of the recorded
  content address still is under each key (`published_before_success`).
-/
import ControlPlane.Competence.Success

namespace ControlPlane.Competence

open ControlPlane.Interleave

variable {c : Canonical} {maxBytes : Nat} {d d' : Store c} {p p' : Delivery c} {w : Write c}
  {w' : Publication c} {b : JobBinding} {f : Fitted c} {key : String}

/-! ## Documents and keys -/

theorem ContentAddressedArtifact.artifactId_of_ok {artifactId payloadDigest mediaType : String}
    {kind : ArtifactKind} {byteLength : Nat} {v : ContentAddressedArtifact}
    (h : modelValidate artifactId kind payloadDigest mediaType byteLength = .ok v) :
    v.artifactId = artifactId := by
  unfold modelValidate at h
  split at h
  · split at h
    · cases h
    · cases h
      rfl
  · cases h

theorem PriorPackArtifact.priorPackId_of_ok {priorPackId : String}
    {artifact : ContentAddressedArtifact} {v : PriorPackArtifact}
    (h : modelValidate priorPackId artifact = .ok v) : v.priorPackId = priorPackId := by
  unfold modelValidate at h
  split at h
  · cases h
    rfl
  · cases h

/-- The documents of a fit carry the digest of the request, and its scorer names their addresses. -/
structure Documents (requestDigest : String) (f : Fitted c) : Prop where
  model : f.modelPayload.requestDigest = requestDigest
  priorPack : f.priorPackPayload.requestDigest = requestDigest
  modelId : f.scorer.fields.modelArtifact.artifactId = c.address (f.payload .scorerModel)
  priorPackId : f.scorer.fields.priorPack.priorPackId = c.address (f.payload .priorPack)

theorem assemble_documents {request : FitRequest} {requestDigest : String} {k : Learned}
    (h : assemble c request requestDigest k = .ok f) : Documents requestDigest f := by
  unfold assemble at h
  -- three documents that JSON can express, then the mean, the artifacts and the prior
  obtain ⟨-, -, h⟩ := ok_of_bind h
  obtain ⟨-, -, h⟩ := ok_of_bind h
  obtain ⟨-, -, h⟩ := ok_of_bind h
  obtain ⟨mean, -, h⟩ := ok_of_bind h
  obtain ⟨modelArtifact, hmodel, h⟩ := ok_of_bind h
  obtain ⟨priorArtifact, -, h⟩ := ok_of_bind h
  obtain ⟨priorPackArtifact, hpack, h⟩ := ok_of_bind h
  obtain ⟨prior, -, h⟩ := ok_of_bind h
  obtain ⟨posterior, -, h⟩ := ok_of_bind h
  obtain ⟨receipt, -, h⟩ := ok_of_bind h
  obtain ⟨scorer, hscorer, h⟩ := ok_of_bind h
  cases h
  refine ⟨rfl, rfl, ?_, ?_⟩
  · rw [ScorerArtifact.fields_of_ok hscorer]
    exact ContentAddressedArtifact.artifactId_of_ok hmodel
  · rw [ScorerArtifact.fields_of_ok hscorer]
    exact PriorPackArtifact.priorPackId_of_ok hpack

theorem fitJob_documents {jobs : List (CompetenceJob c)} (h : fitJob jobs b = .ok f) :
    Documents b.requestDigest f := by
  obtain ⟨scorer, previous, -, hfit⟩ := fitJob_ok h
  obtain ⟨-, -, hfit⟩ := ok_of_bind hfit
  obtain ⟨start, -, hfit⟩ := ok_of_bind hfit
  obtain ⟨⟨posterior, observations⟩, -, hfit⟩ := ok_of_bind hfit
  exact assemble_documents hfit

/-- The key of one document of a fit, in the scope of the job. -/
def JobBinding.keyOf (b : JobBinding) (f : Fitted c) (kind : ArtifactKind) :
    Except ArtifactError String :=
  competenceArtifactKey c b.tenantId b.projectId b.request.scope.candidateId kind
    (c.address (f.payload kind))

theorem target_keyOf (h : w'.target maxBytes = .ok key) :
    w'.job.keyOf w'.fitted w'.kind = .ok key := by
  unfold Publication.target at h
  split at h
  · cases h
  split at h
  · cases h
  · exact h

/-- Behind the scope and the kind, a key is the digest of what it is for. -/
theorem keyOf_eq {kind : ArtifactKind} (h : b.keyOf f kind = .ok key) :
    key = competencePrefix c b.tenantId b.projectId b.request.scope.candidateId ++ kind.text ++ "/" ++
      c.hexdigest (f.payload kind) := by
  unfold JobBinding.keyOf competenceArtifactKey at h
  split at h
  · cases h
  split at h
  · cases h
  · rw [← Except.ok.inj h, Canonical.address, Text.removeprefix_append]

/-! ## What has happened in a run -/

section

variable (C : Config (Store c) (Delivery c) → Event (Delivery c) Answer Move → Prop) (maxBytes : Nat)

/-- A delivery has computed this fit. -/
def Computed (b : JobBinding) (f : Fitted c) (s : Config (Store c) (Delivery c)) : Prop :=
  (jobMachine c maxBytes).Once C (initial c) (fun m => fitJob m.store.jobs b = .ok f) s

/-- A delivery of the job has put the payload under the key. -/
def Written (jobId key : String) (payload : Payload) (s : Config (Store c) (Delivery c)) : Prop :=
  (jobMachine c maxBytes).Once C (initial c) (fun m => ⟨key, payload, jobId⟩ ∈ m.store.objects) s

/-- A delivery of the job has put the payload under the key, and one that has just read the key found
    these exact bytes. -/
def ReadBack (jobId key : String) (payload : Payload) (s : Config (Store c) (Delivery c)) : Prop :=
  (jobMachine c maxBytes).Once C (initial c) (fun m => Written C maxBytes jobId key payload m ∧
    (∃ p ∈ m.procs, ∃ w, p.jobId = jobId ∧ p.pc = .record w key ∧ w.payload = payload) ∧
    (m.store.objects.find? fun o => o.key = key).map StoredObject.payload = some payload) s

/-- One document of the fit has been published for the job. -/
structure Delivered (b : JobBinding) (f : Fitted c) (kind : ArtifactKind) (key : String)
    (s : Config (Store c) (Delivery c)) : Prop where
  placed : b.keyOf f kind = .ok key
  readBack : ReadBack C maxBytes b.id key (f.payload kind) s

/-- What has happened when a delivery comes to an artifact. -/
def DeliveredBefore (w : Publication c) (s : Config (Store c) (Delivery c)) : Prop :=
  match w.kind with
  | .priorPack => w.published = []
  | .scorerModel => ∃ priorKey, Delivered C maxBytes w.job w.fitted .priorPack priorKey s ∧
      w.published = dictSet [] (c.address (w.fitted.payload .priorPack)) priorKey

/-- The delivery is publishing a fit of its own job. -/
structure Underway (jobId : String) (w : Publication c) (s : Config (Store c) (Delivery c)) :
    Prop where
  bound : Bound s.store jobId w.job
  computed : Computed C maxBytes w.job w.fitted s
  before : DeliveredBefore C maxBytes w s

/-- Both documents of the fit have been published for the job, under the keys of the dict. -/
def AllDelivered (b : JobBinding) (f : Fitted c) (keys : List (String × String))
    (s : Config (Store c) (Delivery c)) : Prop :=
  ∃ priorKey modelKey, Delivered C maxBytes b f .priorPack priorKey s ∧
    Delivered C maxBytes b f .scorerModel modelKey s ∧
    keys = dictSet (dictSet [] (c.address (f.payload .priorPack)) priorKey)
      (c.address (f.payload .scorerModel)) modelKey

/-- What has happened before a delivery can be where it is. -/
def Told (s : Config (Store c) (Delivery c)) (p : Delivery c) : Prop :=
  match p.pc with
  | .fit b => Bound s.store p.jobId b
  | .put w => Underway C maxBytes p.jobId w s
  | .readBack w key => Underway C maxBytes p.jobId w s ∧ w.job.keyOf w.fitted w.kind = .ok key ∧
      Written C maxBytes p.jobId key w.payload s
  | .record w key => Underway C maxBytes p.jobId w s ∧
      Delivered C maxBytes w.job w.fitted w.kind key s
  | .finishSuccess f keys => ∃ b, Bound s.store p.jobId b ∧ Computed C maxBytes b f s ∧
      AllDelivered C maxBytes b f keys s
  | .finishProblem problem => problem.status ≠ .succeeded
  | .claim | .done _ | .crashed => True

end

variable {C : Config (Store c) (Delivery c) → Event (Delivery c) Answer Move → Prop}
  {s s' : Config (Store c) (Delivery c)} {jobId : String}

/-! ## Bindings -/

theorem Bound.id (h : Bound d jobId b) : b.id = jobId := by
  obtain ⟨job, -, hid, rfl⟩ := h
  exact hid

/-- No row is forgotten or bound anew. -/
def Grown (d d' : Store c) : Prop :=
  d.jobs.map CompetenceJob.binding <:+ d'.jobs.map CompetenceJob.binding

theorem Bound.grown (h : Bound d jobId b) (hgrown : Grown d d') : Bound d' jobId b := by
  obtain ⟨job, hjob, hid, hb⟩ := h
  obtain ⟨job', hjob', hsame⟩ := List.mem_map.mp (hgrown.subset (List.mem_map_of_mem hjob))
  exact ⟨job', hjob', (congrArg JobBinding.id hsame).trans hid, hsame.trans hb⟩

/-- A row transaction keeps all bindings. -/
theorem Next.bindings (hids : (d.jobs.map CompetenceJob.id).Nodup) (h : Next maxBytes d p w p') :
    (d.apply w).jobs.map CompetenceJob.binding = d.jobs.map CompetenceJob.binding := by
  cases w with
  | save job' =>
    obtain ⟨job, hjob, hkeeps⟩ := h.saved
    refine Table.modify_map fun r hr hid => ?_
    obtain rfl := Table.eq_of_key hids hr (find_some hjob).1 (hid.trans hkeeps.id)
    exact hkeeps.binding
  | _ => rfl

theorem Next.grown (hids : (d.jobs.map CompetenceJob.id).Nodup) (h : Next maxBytes d p w p') :
    Grown d (d.apply w) := by
  rw [Grown, h.bindings hids]

/-- A submission that is accepted adds a job, bound to the request, or finds it there. -/
theorem submit_cases {operation : Operation} {tenantId id : String} {projects : List String}
    {body : FitRequest} {reused : Bool}
    (h : submit operation tenantId projects id body d = .ok (reused, d')) :
    d' = d ∨ (body.scope.tenantId = tenantId ∧
      (∀ job ∈ d.jobs, job.binding.tenantId = tenantId → job.binding.operationId ≠ body.operationId) ∧
      d' = { d with
        jobs :=
          { binding :=
              { id := id
                tenantId := tenantId
                projectId := body.scope.projectId
                operation := operation
                operationId := body.operationId
                requestDigest := c.address (.request body)
                request := body }
            status := .queued } :: d.jobs }) := by
  unfold submit at h
  split at h
  · cases h
  split at h
  · cases h
  rename_i htenant
  split at h
  · cases h
  dsimp only at h
  split at h
  · split at h
    · cases h
    · cases h
      exact .inl rfl
  · rename_i hnew
    cases h
    refine .inr ⟨not_not.mp htenant, fun job hjob hsame hop => ?_, rfl⟩
    exact List.find?_eq_none.mp hnew job hjob (decide_eq_true ⟨hsame, hop⟩)

theorem Moved.grown {m : Move} (h : Moved d m d') (hids : (d.jobs.map CompetenceJob.id).Nodup) :
    Grown d d' := by
  cases h with
  | same | delete => exact List.suffix_refl _
  | submit binding => exact List.suffix_cons _ _
  | sweep stale =>
    have hsame : (Competence.sweep stale d).jobs.map CompetenceJob.binding =
        d.jobs.map CompetenceJob.binding := by
      rw [Competence.sweep, List.map_map]
      refine List.map_congr_left fun job _ => ?_
      simp only [Function.comp]
      split <;> rfl
    rw [Grown, hsame]
  | @cleanup _ _ _ _ _ job objects digest receipt hjob =>
    have hsame : (Store.apply { d with objects := objects } (.save
        { job with cleanupRequestDigest := digest, cleanupReceipt := some receipt })).jobs.map
          CompetenceJob.binding = d.jobs.map CompetenceJob.binding := by
      refine Table.modify_map fun r hr hid => ?_
      rw [Table.eq_of_key hids hr hjob hid]
    rw [Grown, hsame]

/-! ## What has happened stays so -/

theorem Computed.documents (h : Computed C maxBytes b f s) : Documents b.requestDigest f := by
  obtain ⟨m, -, -, hfit⟩ := h
  exact fitJob_documents hfit

theorem Delivered.later {kind : ArtifactKind} (h : Delivered C maxBytes b f kind key s)
    (hs : (jobMachine c maxBytes).Reach C s s') : Delivered C maxBytes b f kind key s' :=
  ⟨h.placed, h.readBack.later hs⟩

theorem DeliveredBefore.later (h : DeliveredBefore C maxBytes w' s)
    (hs : (jobMachine c maxBytes).Reach C s s') : DeliveredBefore C maxBytes w' s' := by
  unfold DeliveredBefore at h ⊢
  split at h
  · exact h
  · obtain ⟨priorKey, hprior, hpublished⟩ := h
    exact ⟨priorKey, hprior.later hs, hpublished⟩

theorem Underway.later (h : Underway C maxBytes jobId w' s)
    (hs : (jobMachine c maxBytes).Reach C s s') (hgrown : Grown s.store s'.store) :
    Underway C maxBytes jobId w' s' :=
  ⟨h.bound.grown hgrown, h.computed.later hs, h.before.later hs⟩

theorem AllDelivered.later {keys : List (String × String)} (h : AllDelivered C maxBytes b f keys s)
    (hs : (jobMachine c maxBytes).Reach C s s') : AllDelivered C maxBytes b f keys s' := by
  obtain ⟨priorKey, modelKey, hprior, hmodel, hkeys⟩ := h
  exact ⟨priorKey, modelKey, hprior.later hs, hmodel.later hs, hkeys⟩

theorem Told.later (h : Told C maxBytes s p) (hs : (jobMachine c maxBytes).Reach C s s')
    (hgrown : Grown s.store s'.store) : Told C maxBytes s' p := by
  unfold Told at h ⊢
  split at h
  · exact h.grown hgrown
  · exact h.later hs hgrown
  · exact ⟨h.1.later hs hgrown, h.2.1, h.2.2.later hs⟩
  · exact ⟨h.1.later hs hgrown, h.2.later hs⟩
  · obtain ⟨b, hbound, hcomputed, hall⟩ := h
    exact ⟨b, hbound.grown hgrown, hcomputed.later hs, hall.later hs⟩
  · exact h
  · trivial
  · trivial
  · trivial

theorem told_fail (e : ArtifactError) : Told C maxBytes s (p.fail e) := by
  unfold Delivery.fail
  split
  · exact ArtifactError.problem_status _
  · split
    · trivial
    · exact ArtifactError.problem_status _

/-! ## One step of a delivery -/

/-- What `get_bytes` has found when the comparisons pass. -/
theorem verify_ok {objects : List StoredObject} (h : w'.verify maxBytes key objects = .ok ()) :
    (objects.find? fun o => o.key = key).map StoredObject.payload = some w'.payload := by
  unfold Publication.verify at h
  split at h
  · cases h
  · rename_i o ho
    split at h
    · cases h
    split at h
    · cases h
    rename_i hsame
    rw [ho, Option.map_some, not_not.mp hsame]

/-- After a record, the delivery goes on to the model, or to the end with both documents. -/
theorem told_next (h : Underway C maxBytes p.jobId w' s)
    (hdelivered : Delivered C maxBytes w'.job w'.fitted w'.kind key s) :
    Told C maxBytes s { p with pc := w'.next key } := by
  obtain ⟨hbound, hcomputed, hbefore⟩ := h
  obtain ⟨job, fitted, kind, published⟩ := w'
  cases kind with
  | priorPack =>
    obtain rfl : published = [] := hbefore
    exact ⟨hbound, hcomputed, key, hdelivered, rfl⟩
  | scorerModel =>
    obtain ⟨priorKey, hprior, hpublished⟩ := hbefore
    dsimp only at hpublished
    subst hpublished
    exact ⟨job, hbound, hcomputed, priorKey, key, hprior, hdelivered, rfl⟩

/-- **A delivery that steps** has been told what its next program point asks for. -/
theorem Told.act {i : Nat} (hids : (s.store.jobs.map CompetenceJob.id).Nodup)
    (hreach : (jobMachine c maxBytes).Reach C (initial c) s) (hget : s.procs[i]? = some p)
    (hp : Told C maxBytes s p) (h : Next maxBytes s.store p w p')
    (hstep : (jobMachine c maxBytes).Reach C s ⟨s.store.apply w, s.procs.set i p'⟩) :
    Told C maxBytes ⟨s.store.apply w, s.procs.set i p'⟩ p' := by
  have hgrown := h.grown hids
  have hmem : p' ∈ s.procs.set i p' :=
    List.mem_set (List.getElem?_eq_some_iff.mp hget).1 p'
  have hlater := hp.later hstep hgrown
  cases h with
  | crash | missing => trivial
  | fail _ e | putFail _ _ e => exact told_fail e
  | unfit _ e => exact e.problem_status
  | @claim job hpc hjob =>
    obtain ⟨hmem, hid⟩ := find_some hjob
    unfold afterClaim
    split
    · exact ⟨_, (mem_save hmem (claimJob_keeps ..).id).mpr (.inl rfl),
        (claimJob_keeps ..).id.trans hid, rfl⟩
    · trivial
  | fit hpc hfit =>
    simp only [Told, hpc] at hlater
    exact ⟨hlater, ⟨s, hreach, hstep, hfit⟩, rfl⟩
  | put hpc htarget =>
    simp only [Told, hpc] at hlater
    exact ⟨hlater, target_keyOf htarget, .now (hreach.trans hstep) (List.mem_cons_self ..)⟩
  | readBack hpc hverify =>
    simp only [Told, hpc] at hlater
    obtain ⟨hunderway, hkey, hwritten⟩ := hlater
    refine ⟨hunderway, hkey, ?_⟩
    rw [hunderway.bound.id]
    exact .now (hreach.trans hstep)
      ⟨hwritten, ⟨_, hmem, _, rfl, rfl, rfl⟩, verify_ok hverify⟩
  | record hpc =>
    simp only [Told, hpc] at hlater
    exact told_next hlater.1 hlater.2
  | finishSuccess | finishProblem => trivial

/-! ## Runs -/

/-- Where a run has led. -/
structure Known (C : Config (Store c) (Delivery c) → Event (Delivery c) Answer Move → Prop)
    (maxBytes : Nat) (s : Config (Store c) (Delivery c)) : Prop where
  reached : (jobMachine c maxBytes).Reach C (initial c) s
  ids : (s.store.jobs.map CompetenceJob.id).Nodup
  told : ∀ p ∈ s.procs, Told C maxBytes s p

theorem Known.step {e : Event (Delivery c) Answer Move} (hs : Known C maxBytes s) (hC : C s e)
    (h : (jobMachine c maxBytes).step s e = some s') : Known C maxBytes s' := by
  have hstep : (jobMachine c maxBytes).Reach C s s' := .single ⟨e, hC, h⟩
  have hreached := hs.reached.trans hstep
  cases e with
  | spawn p =>
    obtain ⟨hstart, rfl⟩ := (jobMachine c maxBytes).step_spawn h
    refine ⟨hreached, hs.ids, fun q hq => ?_⟩
    rcases List.mem_append.mp hq with hq | hq
    · exact (hs.told q hq).later hstep (List.suffix_refl _)
    · obtain rfl : q = p := List.mem_singleton.mp hq
      have hstarts : q.pc = .claim ∧ q.taskId ≠ "" := by
        simpa [jobMachine, Delivery.starts] using hstart
      simp only [Told, hstarts.1]
  | act i answer =>
    obtain ⟨p, d', p', hget, hact, rfl⟩ := (jobMachine c maxBytes).step_act h
    obtain ⟨w, hnext, rfl⟩ := jobMachine_act hact
    refine ⟨hreached, nodup_apply hs.ids, fun q hq => ?_⟩
    rcases List.mem_or_eq_of_mem_set hq with hq | rfl
    · exact (hs.told q hq).later hstep (hnext.grown hs.ids)
    · exact (hs.told p (List.mem_of_getElem? hget)).act hs.ids hs.reached hget hnext hstep
  | env m =>
    obtain ⟨d', hmove, rfl⟩ := (jobMachine c maxBytes).step_env h
    have hmoved := move_cases hmove
    exact ⟨hreached, nodup_moved hs.ids hmoved, fun q hq =>
      (hs.told q hq).later hstep (hmoved.grown hs.ids)⟩

theorem known_reach (h : (jobMachine c maxBytes).Reach C (initial c) s) : Known C maxBytes s :=
  Program.Reach.invariant (jobMachine c maxBytes) (fun _ _ _ hI hC he => hI.step hC he) h
    ⟨.refl, List.nodup_nil, fun _ h => absurd h List.not_mem_nil⟩

/-! ## The object store -/

/-- Every object lies under a key that ends in its own digest. -/
def Filed (d : Store c) : Prop := ∀ o ∈ d.objects, ∃ pre, o.key = pre ++ c.hexdigest o.payload

theorem Next.filed (h : Next maxBytes d p w p') (hd : Filed d) : Filed (d.apply w) := by
  cases w with
  | put o =>
    intro o' ho'
    rcases List.mem_cons.mp ho' with rfl | ho'
    · cases h with
      | put _ htarget | putFail _ htarget => exact ⟨_, keyOf_eq (target_keyOf htarget)⟩
    · exact hd o' (List.mem_filter.mp ho').1
  | _ => exact hd

theorem Moved.filed {m : Move} (h : Moved d m d') (hd : Filed d) : Filed d' := by
  cases h with
  | same | submit | sweep => exact hd
  | delete _ hobjects => exact fun o ho => hd o (hobjects ho)
  | cleanup _ _ _ _ _ hobjects => exact fun o ho => hd o (hobjects ho)

theorem filed_reach (h : (jobMachine c maxBytes).Reach C (initial c) s) : Filed s.store := by
  refine Program.Reach.invariant (I := fun s => Filed s.store) (jobMachine c maxBytes) ?_ h
    fun _ ho => absurd ho List.not_mem_nil
  intro s e s' hs _ he
  cases e with
  | spawn p =>
    obtain ⟨-, rfl⟩ := (jobMachine c maxBytes).step_spawn he
    exact hs
  | act i answer =>
    obtain ⟨p, d', p', -, hact, rfl⟩ := (jobMachine c maxBytes).step_act he
    obtain ⟨w, hnext, rfl⟩ := jobMachine_act hact
    exact hnext.filed hs
  | env m =>
    obtain ⟨d', hmove, rfl⟩ := (jobMachine c maxBytes).step_env he
    exact (move_cases hmove).filed hs

/-- Every event but a cleanup request. -/
def uncleaned (_ : Config (Store c) (Delivery c)) : Event (Delivery c) Answer Move → Bool
  | .env (.cleanup ..) => false
  | _ => true

/-- Every key of one store has an object in the other. -/
def KeysKept (d d' : Store c) : Prop := ∀ o ∈ d.objects, ∃ o' ∈ d'.objects, o'.key = o.key

theorem KeysKept.of_objects (h : d'.objects = d.objects) : KeysKept d d' :=
  fun o ho => ⟨o, h ▸ ho, rfl⟩

theorem keysKept_apply (d : Store c) (w : Write c) : KeysKept d (d.apply w) := by
  cases w with
  | put o =>
    intro o' ho'
    by_cases hkey : o'.key = o.key
    · exact ⟨o, List.mem_cons_self .., hkey.symm⟩
    · exact ⟨o', List.mem_cons_of_mem _ (List.mem_filter.mpr ⟨ho', by simpa using hkey⟩), rfl⟩
  | _ => exact .of_objects rfl

/-- Only a cleanup takes objects away. -/
theorem keysKept_move {m : Move} (huncleaned : uncleaned s (.env m) = true)
    (h : move d m = some d') : KeysKept d d' := by
  cases m with
  | submit operation tenantId projects id body =>
    simp only [move] at h
    split at h
    · cases h
    split at h
    · rename_i hsubmit
      cases h
      rcases submit_cases hsubmit with rfl | ⟨-, -, rfl⟩ <;> exact .of_objects rfl
    · cases h
      exact .of_objects rfl
  | sweep stale =>
    cases h
    exact .of_objects rfl
  | cleanup => cases huncleaned

theorem keysKept_reach
    (h : (jobMachine c maxBytes).Reach (fun s e => uncleaned s e) s s') :
    KeysKept s.store s'.store := by
  refine Program.Reach.invariant (I := fun m => KeysKept s.store m.store) (jobMachine c maxBytes)
    ?_ h (.of_objects rfl)
  intro m e m' hm hC he o ho
  obtain ⟨o', ho', hkey⟩ := hm o ho
  have hstep : KeysKept m.store m'.store := by
    cases e with
    | spawn p =>
      obtain ⟨-, rfl⟩ := (jobMachine c maxBytes).step_spawn he
      exact .of_objects rfl
    | act i answer =>
      obtain ⟨p, d', p', -, hact, rfl⟩ := (jobMachine c maxBytes).step_act he
      obtain ⟨w, -, rfl⟩ := jobMachine_act hact
      exact keysKept_apply m.store w
    | env m =>
      obtain ⟨d', hmove, rfl⟩ := (jobMachine c maxBytes).step_env he
      exact keysKept_move hC hmove
  obtain ⟨o'', ho'', hkey'⟩ := hstep o' ho'
  exact ⟨o'', ho'', hkey'.trans hkey⟩

/-- What has been read back is there, up to the digest: whoever wrote the key again wrote what has the
    same address. -/
theorem Delivered.stored {kind : ArtifactKind}
    (h : Delivered (fun s e => uncleaned s e) maxBytes b f kind key s) :
    ∃ o ∈ s.store.objects, o.key = key ∧ c.address o.payload = c.address (f.payload kind) := by
  obtain ⟨hplaced, m, hm, hreach, -, -, hfound⟩ := h
  obtain ⟨o, ho, -⟩ := Option.map_eq_some_iff.mp hfound
  have hkey : o.key = key := by simpa using List.find?_some ho
  obtain ⟨o', ho', hsame⟩ := keysKept_reach hreach o (List.mem_of_find?_eq_some ho)
  obtain ⟨pre, hpre⟩ := filed_reach (hm.trans hreach) o' ho'
  refine ⟨o', ho', hsame.trans hkey, congrArg ("sha256:" ++ ·) ?_⟩
  exact Text.hex64_of_append (c.hex64 _) (c.hex64 _)
    (hpre.symm.trans (hsame.trans (hkey.trans (keyOf_eq hplaced))))

/-! ## Success -/

/-- Only `_finish_success` makes a row SUCCEEDED. -/
theorem Next.succeeds {job : CompetenceJob c} (hp : Told C maxBytes s p)
    (h : Next maxBytes s.store p w p') (hjob : job ∈ (s.store.apply w).jobs)
    (hsucceeded : job.status = .succeeded)
    (hbefore : ∀ old ∈ s.store.jobs, old.id = job.id → old.status ≠ .succeeded) :
    ∃ f keys old, p.pc = .finishSuccess f keys ∧ s.store.find p.jobId = some old ∧
      job.binding = old.binding ∧ job.scorer = some f.scorer ∧ job.artifactKeys = keys := by
  have hnew : ∀ saved : CompetenceJob c, w = .save saved → job = saved := by
    rintro saved rfl
    obtain ⟨old, hold, hkeeps⟩ := h.saved
    rcases (mem_save (find_some hold).1 hkeeps.id).mp hjob with rfl | ⟨hmem, -⟩
    · rfl
    · exact absurd hsucceeded (hbefore job hmem rfl)
  have hopen : ∀ old : CompetenceJob c, s.store.find p.jobId = some old → job.id = old.id →
      old.status ≠ .succeeded := fun old hold hid => hbefore old (find_some hold).1 hid.symm
  cases h with
  | crash | missing | fit | unfit | fail | readBack | put | putFail =>
    exact absurd hsucceeded (hbefore job hjob rfl)
  | @claim old _ hold =>
    obtain rfl := hnew _ rfl
    exact absurd hsucceeded
      ((claimJob_freezes p.taskId old).2 (hopen old hold (claimJob_keeps ..).id))
  | @record _ _ old _ _ hold hrecord =>
    obtain rfl := hnew _ rfl
    rw [recordArtifact_status hrecord] at hsucceeded
    exact absurd hsucceeded (hopen old hold (recordArtifact_keeps hrecord).id)
  | @finishSuccess f keys old hpc hold =>
    obtain rfl := hnew _ rfl
    obtain ⟨hfreezes, hwrites⟩ := finishSuccess_freezes f.scorer keys old
    obtain ⟨hscorer, hkeys⟩ := hwrites
      (hopen old hold (finishSuccess_keeps ..).id) hsucceeded
    exact ⟨f, keys, old, hpc, hold, hfreezes.binding, hscorer, hkeys⟩
  | @finishProblem problem old hpc hold =>
    obtain rfl := hnew _ rfl
    simp only [Told, hpc] at hp
    exact absurd hsucceeded
      (finishProblem_freezes hp (hopen old hold (finishProblem_keeps ..).id)).2

/-- A job that names what it has published. -/
structure PublishedJob (maxBytes : Nat) (s : Config (Store c) (Delivery c)) (job : CompetenceJob c)
    (f : Fitted c) (priorKey modelKey : String) : Prop where
  /-- A delivery of the run has fitted the request of the job. -/
  computed : Computed (fun s e => uncleaned s e) maxBytes job.binding f s
  scorer : job.scorer = some f.scorer
  modelId : f.scorer.fields.modelArtifact.artifactId = c.address (f.payload .scorerModel)
  priorPackId : f.scorer.fields.priorPack.priorPackId = c.address (f.payload .priorPack)
  priorPack : Delivered (fun s e => uncleaned s e) maxBytes job.binding f .priorPack priorKey s
  model : Delivered (fun s e => uncleaned s e) maxBytes job.binding f .scorerModel modelKey s
  /-- `artifact_keys_json` maps these two digests, and nothing else. -/
  keys : ∀ artifactId, job.artifactKeys.lookup artifactId =
    if artifactId = f.scorer.fields.modelArtifact.artifactId then some modelKey
    else if artifactId = f.scorer.fields.priorPack.priorPackId then some priorKey else none
  priorStored : ∃ o ∈ s.store.objects, o.key = priorKey ∧
    c.address o.payload = f.scorer.fields.priorPack.priorPackId
  modelStored : ∃ o ∈ s.store.objects, o.key = modelKey ∧
    c.address o.payload = f.scorer.fields.modelArtifact.artifactId

/-- **Published before success.**  In every run without cleanup requests, whatever fails, is retried,
    crashes, is delivered twice or swept, a job that becomes SUCCEEDED has the scorer of a fit whose
    prior pack and model a delivery of the job has put under the job's own keys and a delivery of the
    job has read back, byte for byte; its dict maps the two addresses to the two keys, and objects of
    these addresses are there. -/
theorem published_before_success (maxBytes : Nat) {s s' : Config (Store c) (Delivery c)}
    {e : Event (Delivery c) Answer Move} {job : CompetenceJob c}
    (h : (jobMachine c maxBytes).Reach (fun s e => uncleaned s e) (initial c) s)
    (he : uncleaned s e = true) (hstep : (jobMachine c maxBytes).step s e = some s')
    (hjob : job ∈ s'.store.jobs) (hsucceeded : job.status = .succeeded)
    (hbefore : ∀ old ∈ s.store.jobs, old.id = job.id → old.status ≠ .succeeded) :
    ∃ f priorKey modelKey, PublishedJob maxBytes s' job f priorKey modelKey := by
  have hlater : (jobMachine c maxBytes).Reach (fun s e => uncleaned s e) s s' := .single ⟨e, he, hstep⟩
  have hknown := known_reach h
  cases e with
  | spawn p =>
    obtain ⟨-, rfl⟩ := (jobMachine c maxBytes).step_spawn hstep
    exact absurd hsucceeded (hbefore job hjob rfl)
  | env m =>
    obtain ⟨d', hmove, rfl⟩ := (jobMachine c maxBytes).step_env hstep
    cases move_cases hmove with
    | same | delete => exact absurd hsucceeded (hbefore job hjob rfl)
    | submit =>
      rcases List.mem_cons.mp hjob with rfl | hjob
      · cases hsucceeded
      · exact absurd hsucceeded (hbefore job hjob rfl)
    | sweep stale =>
      obtain ⟨old, hold, rfl⟩ := List.mem_map.mp hjob
      split at hsucceeded
      · cases hsucceeded
      · rename_i hrow
        exact absurd hsucceeded (hbefore old hold (by rw [if_neg hrow]))
    | cleanup => cases he
  | act i answer =>
    obtain ⟨p, d', p', hget, hact, rfl⟩ := (jobMachine c maxBytes).step_act hstep
    obtain ⟨w, hnext, rfl⟩ := jobMachine_act hact
    have hp := hknown.told p (List.mem_of_getElem? hget)
    obtain ⟨f, keys, old, hpc, hold, hbinding, hscorer, hkeys⟩ :=
      hnext.succeeds hp hjob hsucceeded hbefore
    simp only [Told, hpc] at hp
    obtain ⟨b, hbound, hcomputed, priorKey, modelKey, hprior, hmodel, rfl⟩ := hp
    obtain rfl : job.binding = b := by
      obtain ⟨row, hrow, hid, rfl⟩ := hbound
      obtain ⟨hmem, hid'⟩ := find_some hold
      rw [hbinding, Table.eq_of_key hknown.ids hmem hrow (hid'.trans hid.symm)]
    have hdocuments := hcomputed.documents
    refine ⟨f, priorKey, modelKey, hcomputed.later hlater, hscorer, hdocuments.modelId,
      hdocuments.priorPackId, hprior.later hlater, hmodel.later hlater, fun artifactId => ?_, ?_, ?_⟩
    · rw [hkeys, lookup_dictSet, lookup_dictSet, hdocuments.modelId, hdocuments.priorPackId]
      rfl
    · rw [hdocuments.priorPackId]
      exact (hprior.later hlater).stored
    · rw [hdocuments.modelId]
      exact (hmodel.later hlater).stored

/-- One delivery runs to its last step. -/
theorem published_before_success_first : ∃ s : Config (Store recorded) (Delivery recorded),
    ∃ job ∈ s.store.jobs, job.status = .succeeded ∧
      ∃ f priorKey modelKey, PublishedJob 67108864 s job f priorKey modelKey := by
  have hrun : ((jobMachine recorded 67108864).runWhen (fun s e => uncleaned s e)
      (initial recorded) (succeed.take 10)).any (fun s =>
        (s.store.jobs.all fun job => job.status != .succeeded) &&
          ((jobMachine recorded 67108864).step s (.act 0 (.store .ok))).any fun s' =>
            s'.store.jobs.any fun job => job.status == .succeeded) = true := by
    decide +kernel
  obtain ⟨s, hs, hrest⟩ := (Option.any_eq_true ..).mp hrun
  obtain ⟨hopen, hlast⟩ := Bool.and_eq_true _ _ ▸ hrest
  obtain ⟨s', hs', hsome⟩ := (Option.any_eq_true ..).mp hlast
  obtain ⟨job, hjob, hstatus⟩ := List.any_eq_true.mp hsome
  have hsucceeded : job.status = .succeeded := beq_iff_eq.mp hstatus
  have hbefore : ∀ old ∈ s.store.jobs, old.id = job.id → old.status ≠ .succeeded :=
    fun old hold _ => bne_iff_ne.mp (List.all_eq_true.mp hopen old hold)
  exact ⟨s', job, hjob, hsucceeded, published_before_success 67108864
    (Program.runWhen_reach _ (succeed.take 10) hs) rfl hs' hjob hsucceeded hbefore⟩

end ControlPlane.Competence
