/-
  IDEMPOTENCY KEYS on the three submission routes.

  A first call has named a job under an operation id.  Then anything may happen: other calls, work on
  the rows (`Later`).  A second call of the same tenant under the same id FAILS CLOSED when it is a
  reuse of that job for the same computation, or a refusal that changes nothing.

  * competence and training compare what the job was admitted with, and always fail closed,
  * offload compares nothing: it fails closed if and only if the second request is refused by its own
    checks or repeats the computation of the first (`keys_fail_closed`).
-/
import ControlPlane.Competence.Lease
import ControlPlane.Orchestration.Invoke
import ControlPlane.Rl.Submit

namespace ControlPlane

open Admissions (Later)

/-! ## Offload -/

namespace Orchestration

/-- Two descriptors of one input.  A SHA-256 digest names the bytes wherever they are stored; without
    one the key is all that names them. -/
def SameInput (a b : ArrowBatchDescriptor) : Prop :=
  a.payloadDigest = b.payloadDigest ∧ a.arrowSchemaJson = b.arrowSchemaJson ∧ a.rows = b.rows ∧
    (Competence.isSha256Address a.payloadDigest = true ∨ a.artifactKey = b.artifactKey)

/-- The operation, its input and its parameters; the order of keys in `params` says nothing. -/
def SameComputation (repr : PyFloat → PyStr) (a b : InvokeRequest) : Prop :=
  a.operation = b.operation ∧ SameInput a.input b.input ∧ a.inputEntityIds = b.inputEntityIds ∧
    Json.dumps repr (.obj a.params) = Json.dumps repr (.obj b.params)

variable {cfg : InvokeSettings} {tenantId : String} {limit : Option Int} {body : InvokeRequest}
  {fate : Fate (Option String)} {s s' : JobTable} {answer : Answer Nat InvokeBody}

/-- A job that an answer names is in the table under the request's key. -/
theorem submitted_find {i : Nat} {reused : Bool} {reply : InvokeBody}
    (h : invokeOffload cfg tenantId limit body fate s = (s', .submitted i reused reply)) :
    ∃ row, s'.find? (tenantId, body.operationId) = some (row, i) := by
  rcases invoke_cases h with ⟨-, ⟨_, _, h⟩ | h⟩ | ⟨-, rfl, existing, j, hfind, heq⟩ |
    ⟨hnew, -, hdispatch⟩
  · cases h
  · cases h
  · cases heq
    exact ⟨existing, hfind⟩
  · rcases dispatchOffload_cases hdispatch with ⟨-, h, -⟩ | ⟨-, h, -⟩ | ⟨taskId, -, heq, rfl⟩
    · cases h
    · cases h
    · cases heq
      -- the row was admitted, and stays where it is
      obtain ⟨row, hrow, -⟩ := (Admissions.later_dispatch.trans (Admissions.later_update _)).find?
        (Admissions.find?_enrol hnew)
      exact ⟨row, hrow⟩

/-- Under a key that is in the table, a call is refused by its own checks, dies, or is a reuse. -/
theorem invoke_under_key (cfg : InvokeSettings) (limit : Option Int) (fate : Fate (Option String))
    {row : Admitted (String × String) Submission Progress} {i : Nat}
    (hfind : s.find? (tenantId, body.operationId) = some (row, i)) :
    (((refusal cfg tenantId body).isSome = true ∨ fate = .rolledBack) ∧
      ((∃ status detail, invokeOffload cfg tenantId limit body fate s =
        (s, .refused status detail)) ∨ invokeOffload cfg tenantId limit body fate s = (s, .raised))) ∨
    (refusal cfg tenantId body = none ∧ fate ≠ .rolledBack ∧ ∃ reply,
      invokeOffload cfg tenantId limit body fate s = (s, .submitted i true reply)) := by
  unfold invokeOffload
  split
  · rename_i hrefused
    exact Or.inl ⟨Or.inl (by simp [hrefused]), Or.inl ⟨_, _, rfl⟩⟩
  · rename_i hchecks
    split
    · rename_i hfate
      exact Or.inl ⟨Or.inr hfate, Or.inr rfl⟩
    · rename_i hfate
      split
      · rename_i existing j hfind'
        obtain ⟨rfl, rfl⟩ := Prod.mk.inj (Option.some.inj (hfind'.symm.trans hfind))
        exact Or.inr ⟨hchecks, hfate, _, rfl⟩
      · rename_i hnone
        cases hnone.symm.trans hfind

/-- **Offload fails closed** only when the second request is stopped before the table is looked at, or
    asks for the same. -/
theorem invoke_failsClosed_iff {same : Prop} {limit' : Option Int} {body' : InvokeRequest}
    {fate' : Fate (Option String)} {s₁ s₂ : JobTable} {first : Nat} {reused : Bool}
    {reply : InvokeBody}
    (h : invokeOffload cfg tenantId limit body fate s = (s₁, .submitted first reused reply))
    (hlater : Later s₁ s₂) (hid : body.operationId = body'.operationId) :
    FailsClosed first same s₂ (invokeOffload cfg tenantId limit' body' fate' s₂) ↔
      (refusal cfg tenantId body').isSome = true ∨ fate' = .rolledBack ∨ same := by
  obtain ⟨row₁, hrow₁⟩ := submitted_find h
  obtain ⟨row, hrow, -⟩ := hlater.find? hrow₁
  rw [hid] at hrow
  rcases invoke_under_key cfg limit' fate' hrow with
    ⟨hstopped, hanswer⟩ | ⟨hchecks, hfate, reply', hanswer⟩
  · refine iff_of_true ?_ (hstopped.imp_right Or.inl)
    rcases hanswer with ⟨status, detail, hanswer⟩ | hanswer
    · rw [hanswer]
      exact rfl
    · rw [hanswer]
      exact rfl
  · -- a reuse, whatever the second request asks for
    rw [hanswer]
    constructor
    · rintro ⟨-, -, hsame⟩
      exact Or.inr (Or.inr hsame)
    · rintro (hrefused | hdead | hsame)
      · rw [hchecks] at hrefused
        cases hrefused
      · exact absurd hdead hfate
      · exact ⟨rfl, rfl, hsame⟩

end Orchestration

/-! ## Competence -/

namespace Competence

variable {c : Canonical}

/-- The fields of the unique constraint. -/
def JobBinding.key (b : JobBinding) : String × String := (b.tenantId, b.operationId)

/-- What happens to the rows between two calls: they stay bound to what they were submitted with, and
    the unique constraint holds. -/
structure Later (d d' : Store c) : Prop where
  kept : ∀ job ∈ d.jobs, ∃ job' ∈ d'.jobs, job'.binding = job.binding
  unique : (d'.jobs.map fun job => job.binding.key).Nodup

/-- The job that `_submission` names in the answer to this request. -/
def Store.submitted (d : Store c) (tenantId operationId : String) : Option (CompetenceJob c) :=
  d.jobs.find? fun job => job.binding.tenantId = tenantId ∧ job.binding.operationId = operationId

/-- `_submit` with its answer. -/
def submitted (operation : Operation) (tenantId : String) (projects : List String) (id : String)
    (body : FitRequest) (d : Store c) : Store c × ControlPlane.Answer String Unit :=
  match submit operation tenantId projects id body d with
  | .error (status, refusal) => (d, .refused status refusal.detail)
  | .ok (reused, d') => match d'.submitted tenantId body.operationId with
    | none => (d', .raised)
    | some job => (d', .submitted job.id reused ())

/-- What a job must be bound to for a request to be answered with it. -/
structure JobBinding.Matches (b : JobBinding) (operation : Operation) (tenantId : String)
    (body : FitRequest) : Prop where
  key : b.key = (tenantId, body.operationId)
  operation : b.operation = operation
  request : b.request = body

theorem submitted_eq_some {d : Store c} {tenantId operationId : String} {job : CompetenceJob c}
    (h : d.submitted tenantId operationId = some job) :
    job ∈ d.jobs ∧ job.binding.key = (tenantId, operationId) := by
  have hkey := List.find?_some h
  simp only [decide_eq_true_eq] at hkey
  exact ⟨List.mem_of_find?_eq_some h, Prod.ext hkey.1 hkey.2⟩

/-- The job that an answer names is bound to its request. -/
theorem submitted_matches {operation : Operation} {tenantId id job : String}
    {projects : List String} {body : FitRequest} {d d' : Store c} {reused : Bool}
    (h : submitted operation tenantId projects id body d = (d', .submitted job reused ())) :
    ∃ row ∈ d'.jobs, row.id = job ∧ row.binding.Matches operation tenantId body := by
  unfold submitted at h
  split at h
  · cases h
  · rename_i reused' d'' hsubmit
    split at h
    · cases h
    · rename_i row hrow
      cases h
      obtain ⟨hmem, hkey⟩ := submitted_eq_some hrow
      refine ⟨row, hmem, rfl, ?_⟩
      -- what the row was compared with, or made of
      unfold submit at hsubmit
      split at hsubmit
      · cases hsubmit
      split at hsubmit
      · cases hsubmit
      split at hsubmit
      · cases hsubmit
      dsimp only at hsubmit
      split at hsubmit
      · rename_i existing hexisting
        split at hsubmit
        · cases hsubmit
        · rename_i hsame
          cases hsubmit
          obtain rfl : existing = row := Option.some.inj (hexisting.symm.trans hrow)
          rw [not_not] at hsame
          exact ⟨hkey, congrArg JobBinding.operation hsame, congrArg JobBinding.request hsame⟩
      · cases hsubmit
        rw [Store.submitted, List.find?_cons_of_pos (by simp)] at hrow
        cases hrow
        exact ⟨hkey, rfl, rfl⟩

/-- Two rows under one key are one row. -/
theorem Later.unique_row {d d' : Store c} (h : Later d d') {job job' : CompetenceJob c}
    (hjob : job ∈ d'.jobs) (hjob' : job' ∈ d'.jobs) (hkey : job.binding.key = job'.binding.key) :
    job = job' :=
  List.inj_on_of_nodup_map h.unique hjob hjob' hkey

/-- Under a key that is in the table, a call is refused or is a reuse of the row. -/
theorem submit_under_key (operation : Operation) {tenantId : String} (projects : List String)
    (id : String) {body : FitRequest} {d : Store c} {existing : CompetenceJob c}
    (hfind : d.submitted tenantId body.operationId = some existing) :
    (∃ e, submit operation tenantId projects id body d = .error e) ∨
      submit operation tenantId projects id body d = .ok (true, d) ∧
        existing.binding.Matches operation tenantId body := by
  unfold submit
  split
  · exact Or.inl ⟨_, rfl⟩
  split
  · exact Or.inl ⟨_, rfl⟩
  split
  · exact Or.inl ⟨_, rfl⟩
  dsimp only
  split
  · rename_i row hrow
    obtain rfl : row = existing := Option.some.inj (hrow.symm.trans hfind)
    split
    · exact Or.inl ⟨_, rfl⟩
    · rename_i hsame
      rw [not_not] at hsame
      exact Or.inr ⟨rfl, (submitted_eq_some hfind).2, congrArg JobBinding.operation hsame,
        congrArg JobBinding.request hsame⟩
  · rename_i hnone
    cases hnone.symm.trans hfind

/-- **Competence fails closed.** -/
theorem submitted_failsClosed {operation operation' : Operation} {tenantId id id' first : String}
    {projects projects' : List String} {body body' : FitRequest} {d d₁ d₂ : Store c} {reused : Bool}
    (h : submitted operation tenantId projects id body d = (d₁, .submitted first reused ()))
    (hlater : Later d₁ d₂) (hid : body.operationId = body'.operationId) :
    FailsClosed first (operation = operation' ∧ body = body') d₂
      (submitted operation' tenantId projects' id' body' d₂) := by
  obtain ⟨row₁, hrow₁, hfirst, hmatch⟩ := submitted_matches h
  obtain ⟨row, hrow, hbinding⟩ := hlater.kept row₁ hrow₁
  have hkey : row.binding.key = (tenantId, body'.operationId) := by
    rw [hbinding, hmatch.key, hid]
  have hfound : (d₂.submitted tenantId body'.operationId).isSome = true := by
    refine List.find?_isSome.mpr ⟨row, hrow, ?_⟩
    have h₁ := congrArg Prod.fst hkey
    have h₂ := congrArg Prod.snd hkey
    simpa [JobBinding.key] using And.intro h₁ h₂
  obtain ⟨existing, hexisting⟩ := Option.isSome_iff_exists.mp hfound
  obtain ⟨hmem, hkey'⟩ := submitted_eq_some hexisting
  -- the row that is found is the first call's
  obtain rfl : row = existing := hlater.unique_row hrow hmem (hkey.trans hkey'.symm)
  rcases submit_under_key operation' projects' id' hexisting with ⟨e, he⟩ | ⟨hok, hmatch'⟩
  · rw [submitted, he]
    exact rfl
  · rw [submitted, hok]
    simp only [hexisting]
    refine ⟨rfl, ?_, ?_, ?_⟩
    · rw [← hfirst, CompetenceJob.id, CompetenceJob.id, hbinding]
    · rw [← hmatch.operation, ← hmatch'.operation, hbinding]
    · rw [← hmatch.request, ← hmatch'.request, hbinding]

end Competence

/-! ## Training and evaluation -/

namespace Rl

/-- The operation, the taskset, the configuration up to the order of its keys, and the image. -/
def SameComputation (repr : PyFloat → PyStr) (operation operation' : Operation)
    (a b : RunRequest) : Prop :=
  operation = operation' ∧ a.tasksetRef = b.tasksetRef ∧ a.imageDigest = b.imageDigest ∧
    Json.canonicalJson repr (.obj a.config) = Json.canonicalJson repr (.obj b.config)

/-- SHA-256 does not collide on the two configurations. -/
def NoCollision (cfg : DigestSettings) (a b : RunRequest) : Prop :=
  ∀ p q, Json.canonicalJson cfg.repr (.obj a.config) = some p →
    Json.canonicalJson cfg.repr (.obj b.config) = some q → cfg.hexdigest p = cfg.hexdigest q → p = q

variable {cfg : DigestSettings}

theorem configDigest_inj {a b : RunRequest} {digest : String} (hcollision : NoCollision cfg a b)
    (ha : configDigest cfg a.config = some digest) (hb : configDigest cfg b.config = some digest) :
    Json.canonicalJson cfg.repr (.obj a.config) = Json.canonicalJson cfg.repr (.obj b.config) := by
  obtain ⟨p, hp, hpd⟩ := Option.map_eq_some_iff.mp ha
  obtain ⟨q, hq, hqd⟩ := Option.map_eq_some_iff.mp hb
  have hhex : cfg.hexdigest p = cfg.hexdigest q :=
    String.append_right_inj _ |>.mp (hpd.trans hqd.symm)
  rw [hp, hq, hcollision p q hp hq hhex]

/-- **Training fails closed**, as long as the digest tells the two configurations apart. -/
theorem submitRun_failsClosed {tenantId : String} {operation operation' : Operation}
    {body body' : RunRequest} {fate fate' : Fate Unit} {s s₁ s₂ : RunTable} {first : Nat}
    {reused : Bool} {reply : SubmissionBody}
    (h : submitRun cfg tenantId operation body fate s = (s₁, .submitted first reused reply))
    (hlater : Later s₁ s₂) (hid : body.operationId = body'.operationId)
    (hcollision : NoCollision cfg body body') :
    FailsClosed first (SameComputation cfg.repr operation operation' body body') s₂
      (submitRun cfg tenantId operation' body' fate' s₂) := by
  obtain ⟨row₁, hrow₁, hmatch⟩ := submitted_matches h
  obtain ⟨row, hrow, hcontent⟩ := hlater.find? hrow₁
  rw [hid] at hrow
  obtain ⟨s', answer, hsecond⟩ : ∃ s' answer,
      submitRun cfg tenantId operation' body' fate' s₂ = (s', answer) := ⟨_, _, rfl⟩
  obtain ⟨rfl, ⟨reply', rfl⟩ | ⟨status, detail, rfl⟩ | rfl⟩ := submit_under_key hrow hsecond
  · -- a reuse: both requests are the row's
    obtain ⟨row', hrow', hmatch'⟩ := submitted_matches hsecond
    obtain rfl : row' = row := congrArg Prod.fst (Option.some.inj (hrow'.symm.trans hrow))
    rw [hcontent] at hmatch'
    rw [hsecond]
    exact ⟨rfl, rfl, hmatch.operation.symm.trans hmatch'.operation,
      hmatch.tasksetRef.symm.trans hmatch'.tasksetRef,
      hmatch.imageDigest.symm.trans hmatch'.imageDigest,
      configDigest_inj hcollision hmatch.digest hmatch'.digest⟩
  · rw [hsecond]
    exact rfl
  · rw [hsecond]
    exact rfl

end Rl

/-! ## The three routes -/

/-- **Idempotency keys fail closed** on the competence and training routes always, on the offload route
    if and only if the second request does not get past its own checks or repeats the first one's
    computation. -/
theorem keys_fail_closed (repr : PyFloat → PyStr) (cfg : Orchestration.InvokeSettings)
    (c : Competence.Canonical) (digests : Rl.DigestSettings) (tenantId : String) :
    (∀ (limit limit' : Option Int) (body body' : Orchestration.InvokeRequest)
      (fate fate' : Fate (Option String)) (s s₁ s₂ : Orchestration.JobTable) (first : Nat)
      (reused : Bool) (reply : Orchestration.InvokeBody),
      Orchestration.invokeOffload cfg tenantId limit body fate s =
        (s₁, .submitted first reused reply) → Later s₁ s₂ → body.operationId = body'.operationId →
      (FailsClosed first (Orchestration.SameComputation repr body body') s₂
          (Orchestration.invokeOffload cfg tenantId limit' body' fate' s₂) ↔
        (Orchestration.refusal cfg tenantId body').isSome = true ∨ fate' = .rolledBack ∨
          Orchestration.SameComputation repr body body')) ∧
    (∀ (operation : Competence.Operation) (id id' : String) (projects projects' : List String) (body body' : Competence.FitRequest)
      (d d₁ d₂ : Competence.Store c) (first : String) (reused : Bool),
      Competence.submitted operation tenantId projects id body d =
        (d₁, .submitted first reused ()) → Competence.Later d₁ d₂ →
      body.operationId = body'.operationId →
      FailsClosed first (body = body') d₂
        (Competence.submitted operation tenantId projects' id' body' d₂)) ∧
    ∀ (operation : Rl.Operation) (body body' : Rl.RunRequest) (fate fate' : Fate Unit) (s s₁ s₂ : Rl.RunTable) (first : Nat)
      (reused : Bool) (reply : Rl.SubmissionBody),
      Rl.submitRun digests tenantId operation body fate s = (s₁, .submitted first reused reply) →
      Later s₁ s₂ → body.operationId = body'.operationId → Rl.NoCollision digests body body' →
      FailsClosed first (Rl.SameComputation digests.repr operation operation body body') s₂
        (Rl.submitRun digests tenantId operation body' fate' s₂) := by
  refine ⟨?_, ?_, ?_⟩
  · intro limit limit' body body' fate fate' s s₁ s₂ first reused reply h hlater hid
    exact Orchestration.invoke_failsClosed_iff h hlater hid
  · intro operation id id' projects projects' body body' d d₁ d₂ first reused h hlater hid
    have hclosed : FailsClosed first (operation = operation ∧ body = body') d₂
        (Competence.submitted operation tenantId projects' id' body' d₂) :=
      Competence.submitted_failsClosed h hlater hid
    simpa using hclosed
  · intro operation body body' fate fate' s s₁ s₂ first reused reply h hlater hid hcoll
    exact Rl.submitRun_failsClosed h hlater hid hcoll

/-! ## Concrete requests -/

/-- Two operations under one id. -/
def offloadRequest (operation : String) : Orchestration.InvokeRequest where
  operation := operation
  operationId := "op-1"
  input := {}

/-- The digest of the only configuration below. -/
def fixtureDigest : Rl.DigestSettings where
  repr := fun _ => []
  hexdigest := fun _ => "25f6051fe7024a90ef71a1e738ec9c05d9e53c0e458441302064e004559aff24"

def evalRequest : Rl.RunRequest where
  operationId := "op-1"
  tasksetRef := "django-v1"
  config := [(PyStr.lit "model", .str (PyStr.lit "fixture-model"))]

theorem keys_fail_closed_repeated :
    (∃ s reply, Orchestration.invokeOffload {} "acme" none (offloadRequest "data_science.gnn.embed")
        (.answered none) Admissions.empty = (s, .submitted 0 false reply) ∧
      FailsClosed 0 (Orchestration.SameComputation (fun _ => [])
        (offloadRequest "data_science.gnn.embed") (offloadRequest "data_science.gnn.embed")) s
        (Orchestration.invokeOffload {} "acme" none (offloadRequest "data_science.gnn.embed")
          (.answered none) s)) ∧
    (∃ d : Competence.Store Competence.recorded,
      Competence.submitted .fit Competence.recordedScope.tenantId
        [Competence.recordedScope.projectId] Competence.firstJobId Competence.firstFit.request ⟨[], []⟩
        = (d, .submitted Competence.firstJobId false ()) ∧
      FailsClosed Competence.firstJobId
        (Competence.firstFit.request = Competence.firstFit.request) d
        (Competence.submitted .fit Competence.recordedScope.tenantId
          [Competence.recordedScope.projectId] "job-2" Competence.firstFit.request d)) ∧
    ∃ s reply, Rl.submitRun fixtureDigest "acme" .eval evalRequest (.answered ()) Admissions.empty =
        (s, .submitted 0 false reply) ∧
      FailsClosed 0 (Rl.SameComputation (fun _ => []) .eval .eval evalRequest evalRequest) s
        (Rl.submitRun fixtureDigest "acme" .eval evalRequest (.answered ()) s) := by
  have hfit : (Competence.submitted (c := Competence.recorded) .fit
      Competence.recordedScope.tenantId [Competence.recordedScope.projectId] Competence.firstJobId
      Competence.firstFit.request ⟨[], []⟩).2 = .submitted Competence.firstJobId false () := by
    decide +kernel
  have hunique : ((Competence.submitted (c := Competence.recorded) .fit
      Competence.recordedScope.tenantId [Competence.recordedScope.projectId] Competence.firstJobId
      Competence.firstFit.request ⟨[], []⟩).1.jobs.map fun job => job.binding.key).Nodup := by
    decide +kernel
  have heval : (Rl.submitRun fixtureDigest "acme" .eval evalRequest (.answered ())
      Admissions.empty).2 = .submitted 0 false ⟨.queued,
        "sha256:25f6051fe7024a90ef71a1e738ec9c05d9e53c0e458441302064e004559aff24"⟩ := by
    decide +kernel
  have hcollision : Rl.NoCollision fixtureDigest evalRequest evalRequest := by
    intro p q hp hq _
    exact Option.some.inj (hp.symm.trans hq)
  refine ⟨⟨_, _, rfl, ?_⟩, ⟨_, Prod.ext rfl hfit, ?_⟩, ⟨_, _, Prod.ext rfl heval, ?_⟩⟩
  · refine ((keys_fail_closed (fun _ => []) {} Competence.recorded fixtureDigest "acme").1 none none
      _ _ (.answered none) _ Admissions.empty _ _ 0 false _ rfl (Later.refl _) rfl).mpr
      (Or.inr (Or.inr ?_))
    exact ⟨rfl, ⟨rfl, rfl, rfl, Or.inr rfl⟩, rfl, rfl⟩
  · exact (keys_fail_closed (fun _ => []) {} Competence.recorded fixtureDigest
      Competence.recordedScope.tenantId).2.1 _ _ _ _ _ _ _ _ _ _ _ _ (Prod.ext rfl hfit)
      ⟨fun job hjob => ⟨job, hjob, rfl⟩, hunique⟩ rfl
  · exact (keys_fail_closed (fun _ => []) {} Competence.recorded fixtureDigest "acme").2.2
      _ _ _ _ (.answered ()) _ _ _ 0 false _ (Prod.ext rfl heval) (Later.refl _) rfl hcollision

/-- The second request names another operation, and is answered with the job of the first. -/
theorem offload_key_reused : ¬ ∀ (repr : PyFloat → PyStr) (cfg : Orchestration.InvokeSettings)
    (tenantId : String) (limit limit' : Option Int) (body body' : Orchestration.InvokeRequest)
    (fate fate' : Fate (Option String)) (s s₁ s₂ : Orchestration.JobTable) (first : Nat)
    (reused : Bool) (reply : Orchestration.InvokeBody),
    Orchestration.invokeOffload cfg tenantId limit body fate s =
      (s₁, .submitted first reused reply) → Later s₁ s₂ → body.operationId = body'.operationId →
    FailsClosed first (Orchestration.SameComputation repr body body') s₂
      (Orchestration.invokeOffload cfg tenantId limit' body' fate' s₂) := by
  intro hlaw
  obtain ⟨-, -, hsame⟩ := hlaw (fun _ => []) {} "acme" none none
    (offloadRequest "data_science.gnn.embed") (offloadRequest "data_science.gnn.denoise")
    (.answered none) (.answered none) Admissions.empty _ _ 0 false _ rfl (Later.refl _) rfl
  exact absurd hsame.1 (by decide)

end ControlPlane
