/-
  THE QUOTA: who looks at `concurrent_jobs` before a job of the tenant becomes QUEUED or RUNNING?

  `_enforce_concurrent_job_quota` is called by `invoke_offload` and by nobody else, and a tenant's
  jobs become active in four more ways:

  * `_create_orchestration_job` inserts a QUEUED row for every shard of an extraction, all shards of
    a submission in one transaction, a replanned shard by itself,
  * `schedule` inserts a QUEUED row for a document, and requeues a FAILED one,
  * `re_run_job` requeues a row whatever its status is,
  * `dispatch_offload` writes RUNNING over whatever the row has become since it read it.

  `demand` is how many rows a step activates in one of these ways.  The limit is kept THROUGHOUT a
  history if and only if every step of it finds room for its demand (`concurrent_jobs_iff`); an
  invoke, a completion and a cancellation demand nothing.
-/
import ControlPlane.Histories
import ControlPlane.Orchestration.Invoke

namespace ControlPlane.Orchestration

/-! ## The writers of the job table -/

/-- The table, and the jobs that a running `dispatch_offload` has read with a status other than
    CANCELED and has not written yet. -/
structure Ledger where
  jobs : JobTable
  cleared : List Nat := []

/-- What touches a status: transactions one after another, and `dispatch_offload`, which is none, in
    two pieces.  Celery delivers a task late or more than once. -/
inductive Step where
  | invoke (tenantId : String) (body : InvokeRequest) (fate : Fate (Option String))
  /-- The transaction of `submit_extraction`, or the row of one replanned shard: operation ids and
      what the rows are created with. -/
  | createJobs (tenantId : String) (shards : List (String × Submission))
  | schedule (tenantId operationId : String) (document : Submission)
  | reRunJob (i : Nat)
  /-- `dispatch_offload.delay`, and the save of the id it answers with. -/
  | delay (i : Nat) (taskId : Option String)
  | dispatchReads (i : Nat)
  | dispatchWrites (i : Nat) (taskId : Option String)
  /-- `admit_document` and `escalate_claims` take a queued job in one UPDATE. -/
  | claim (i : Nat)
  | succeed (i : Nat)
  | fail (i : Nat)
  | cancel (i : Nat)

/-- `_create_orchestration_job` for one shard after the other; a second row under one key is an
    `IntegrityError`. -/
def createOrchestrationJobs (tenantId : String) :
    List (String × Submission) → JobTable → Option JobTable
  | [], s => some s
  | (operationId, job) :: rest, s =>
      match h : s.find? (tenantId, operationId) with
      | some _ => none
      | none => createOrchestrationJobs tenantId rest (s.enrol (tenantId, operationId) job {} h)

/-- The job has a `document_extraction_run`. -/
def Submission.isDocument (job : Submission) : Bool :=
  Text.startswith job.operation "document.extraction."

def setStatus (status : Status) (i : Nat) (s : JobTable) : JobTable :=
  s.update i fun p => { p with status := status }

/-- `schedule`; `operationId` is the digest of the document, its types and its kind. -/
def schedule (tenantId operationId : String) (document : Submission) (s : JobTable) : JobTable :=
  match h : s.find? (tenantId, operationId) with
  | none => s.enrol (tenantId, operationId) document {} h
  -- a job without a run raises, and the transaction is rolled back
  | some (job, i) =>
      if job.content.isDocument ∧ job.progress.status = .failed then setStatus .queued i s else s

/-- The twin that `dispatch_offload` looks for does not exist: the constraint leaves one row for a
    tenant and an operation id. -/
def dispatchReads (i : Nat) (s : Ledger) : Ledger :=
  match s.jobs.rows[i]? with
  | some job =>
      if i ∈ s.jobs.dispatches ∧ job.progress.status ≠ .canceled then
        { s with cleared := i :: s.cleared }
      else s
  | none => s

def dispatchWrites (i : Nat) (taskId : Option String) (s : Ledger) : Ledger :=
  if i ∈ s.cleared then
    { jobs := s.jobs.update i fun p => { status := .running, celeryTaskId := taskId.getD p.celeryTaskId }
      cleared := s.cleared.erase i }
  else s

variable (cfg : InvokeSettings) (limits : String → Option Int)

/-- A step of anybody; `limits` is the `concurrent_jobs` of each tenant's active plan. -/
def Ledger.step (s : Ledger) : Step → Ledger
  | .invoke tenantId body fate =>
      { s with jobs := (invokeOffload cfg tenantId (limits tenantId) body fate s.jobs).1 }
  | .createJobs tenantId shards =>
      { s with jobs := (createOrchestrationJobs tenantId shards s.jobs).getD s.jobs }
  | .schedule tenantId operationId document =>
      { s with jobs := schedule tenantId operationId document s.jobs }
  | .reRunJob i => { s with jobs := setStatus .queued i s.jobs }
  | .delay i taskId =>
      { s with jobs := (s.jobs.dispatch i).update i fun p =>
          { p with celeryTaskId := taskId.getD p.celeryTaskId } }
  | .dispatchReads i => dispatchReads i s
  | .dispatchWrites i taskId => dispatchWrites i taskId s
  | .claim i => { s with jobs := s.jobs.update i fun p =>
      if p.status = .queued then { p with status := .running } else p }
  | .succeed i => { s with jobs := setStatus .succeeded i s.jobs }
  | .fail i => { s with jobs := setStatus .failed i s.jobs }
  | .cancel i => { s with jobs := setStatus .canceled i s.jobs }

def Ledger.run (s : Ledger) (history : List Step) : Ledger := history.foldl (Ledger.step cfg limits) s

/-! ## Active jobs, and what a step activates -/

/-- `status__in=ACTIVE_JOB_STATUSES`. -/
def Status.active (status : Status) : Bool := status == .queued || status == .running

def countsFor (tenantId : String) (row : Admitted (String × String) Submission Progress) : Bool :=
  row.key.1 == tenantId && row.progress.status.active

/-- The tenant's QUEUED and RUNNING jobs. -/
def activeJobs (tenantId : String) (s : JobTable) : Nat := s.rows.countP (countsFor tenantId)

/-- 1 for a job of the tenant in a terminal status. -/
def woken (tenantId : String) (s : JobTable) (i : Nat) : Nat :=
  match s.rows[i]? with
  | some job => if job.key.1 = tenantId ∧ job.progress.status.terminal then 1 else 0
  | none => 0

/-- The rows can be inserted: their operation ids are new to the tenant, and different. -/
def Fresh (tenantId : String) (shards : List (String × Submission)) (s : JobTable) : Prop :=
  (shards.map Prod.fst).Nodup ∧
    ∀ operationId ∈ shards.map Prod.fst, s.find? (tenantId, operationId) = none

instance (tenantId : String) (shards : List (String × Submission)) (s : JobTable) :
    Decidable (Fresh tenantId shards s) := by unfold Fresh; infer_instance

/-- How many jobs of the tenant a step activates without asking for the quota. -/
def Step.demand (tenantId : String) (s : Ledger) : Step → Nat
  | .createJobs t shards => if t = tenantId ∧ Fresh t shards s.jobs then shards.length else 0
  | .schedule t operationId _ =>
      match s.jobs.find? (t, operationId) with
      | none => if t = tenantId then 1 else 0
      | some (job, i) =>
          if job.content.isDocument ∧ job.progress.status = .failed then woken tenantId s.jobs i else 0
  | .reRunJob i => woken tenantId s.jobs i
  | .dispatchWrites i _ => if i ∈ s.cleared then woken tenantId s.jobs i else 0
  | .invoke .. | .delay .. | .dispatchReads _ | .claim _ | .succeed _ | .fail _ | .cancel _ => 0

/-! ## Counting -/

variable {tenantId : String} {s : JobTable} {i : Nat}

@[simp] theorem activeJobs_dispatch : activeJobs tenantId (s.dispatch i) = activeJobs tenantId s := rfl

theorem activeJobs_enrol {key : String × String} {job : Submission} (h : s.find? key = none) :
    activeJobs tenantId (s.enrol key job {} h) =
      activeJobs tenantId s + if key.1 = tenantId then 1 else 0 := by
  have hlast : countsFor tenantId ⟨key, job, {}⟩ = (key.1 == tenantId) := by
    simp [countsFor, Status.active]
  rw [activeJobs, Admissions.enrol, List.countP_append, List.countP_singleton, hlast]
  simp only [activeJobs, beq_iff_eq]

/-- What an update does to the count, by what it does to its row. -/
theorem activeJobs_update {job : Admitted (String × String) Submission Progress}
    (hjob : s.rows[i]? = some job) (f : Progress → Progress) :
    activeJobs tenantId (s.update i f) + (countsFor tenantId job).toNat =
      activeJobs tenantId s + (countsFor tenantId { job with progress := f job.progress }).toNat := by
  obtain ⟨hi, hget⟩ := List.getElem?_eq_some_iff.mp hjob
  obtain ⟨before, job', after, hrows, rfl, hmodify⟩ :=
    List.exists_of_modify (fun job => { job with progress := f job.progress }) hi
  obtain rfl : job' = job := by simpa [hrows] using hjob
  have hcount : ∀ row, (before ++ row :: after).countP (countsFor tenantId) =
      before.countP (countsFor tenantId) + after.countP (countsFor tenantId) +
        (countsFor tenantId row).toNat := by
    intro row
    rw [List.countP_append, List.countP_cons]
    cases countsFor tenantId row with
    | false => simp
    | true =>
      simp only [if_true, Bool.toNat_true]
      omega
  calc activeJobs tenantId (s.update before.length f) + (countsFor tenantId job').toNat
      = (before ++ { job' with progress := f job'.progress } :: after).countP (countsFor tenantId) +
          (countsFor tenantId job').toNat := congrArg (·.countP (countsFor tenantId) + _) hmodify
    _ = (before ++ job' :: after).countP (countsFor tenantId) +
          (countsFor tenantId { job' with progress := f job'.progress }).toNat := by
        rw [hcount, hcount]
        omega
    _ = activeJobs tenantId s + (countsFor tenantId { job' with progress := f job'.progress }).toNat :=
        congrArg (·.countP (countsFor tenantId) + _) hrows.symm

theorem update_missing (hi : s.rows[i]? = none) (f : Progress → Progress) :
    activeJobs tenantId (s.update i f) = activeJobs tenantId s :=
  congrArg (·.countP (countsFor tenantId)) (List.modify_eq_self (List.getElem?_eq_none_iff.mp hi))

theorem Status.terminal_eq (status : Status) : status.terminal = !status.active := by
  cases status <;> rfl

/-- QUEUED or RUNNING, written over any row, activates a row that was terminal. -/
theorem activeJobs_wake {f : Progress → Progress} (hf : ∀ p, (f p).status.active = true) :
    activeJobs tenantId (s.update i f) = activeJobs tenantId s + woken tenantId s i := by
  cases hjob : s.rows[i]? with
  | none => rw [update_missing hjob, woken, hjob]; rfl
  | some job =>
    have hcount : activeJobs tenantId (s.update i f) +
          (job.key.1 == tenantId && job.progress.status.active).toNat =
        activeJobs tenantId s + (job.key.1 == tenantId && (f job.progress).status.active).toNat :=
      activeJobs_update hjob f
    have hwoken : woken tenantId s i =
        (job.key.1 == tenantId && !job.progress.status.active).toNat := by
      rw [woken, hjob]
      dsimp only
      rw [Status.terminal_eq]
      by_cases htenant : job.key.1 = tenantId
      · rw [htenant]
        cases job.progress.status.active <;> simp
      · rw [if_neg fun h => htenant h.1, beq_false_of_ne htenant, Bool.false_and, Bool.toNat_false]
    rw [hf, Bool.and_true] at hcount
    rw [hwoken]
    cases htenant : job.key.1 == tenantId <;> cases hactive : job.progress.status.active <;>
      simp only [htenant, hactive, Bool.and_true, Bool.true_and, Bool.false_and, Bool.not_true,
        Bool.not_false, Bool.toNat_true, Bool.toNat_false] at hcount ⊢ <;> omega

/-- A write that activates no row adds nothing to the count. -/
theorem activeJobs_settle {f : Progress → Progress}
    (hf : ∀ p, (f p).status.active = true → p.status.active = true) :
    activeJobs tenantId (s.update i f) ≤ activeJobs tenantId s := by
  cases hjob : s.rows[i]? with
  | none => rw [update_missing hjob]
  | some job =>
    have hcount := @activeJobs_update tenantId s i job hjob f
    have hless : (countsFor tenantId { job with progress := f job.progress }).toNat ≤
        (countsFor tenantId job).toNat := by
      refine Bool.toNat_le_toNat fun hcounts => ?_
      obtain ⟨htenant, hactive⟩ := Bool.and_eq_true_iff.mp hcounts
      exact Bool.and_eq_true_iff.mpr ⟨htenant, hf job.progress hactive⟩
    omega

/-! ## Inserting the rows of an extraction -/

section Create

variable {t : String} {shards : List (String × Submission)} {s' : JobTable}

theorem find?_enrol_eq_none {key key' : String × String} {job : Submission} (h : s.find? key = none) :
    (s.enrol key job {} h).find? key' = none ↔ key' ≠ key ∧ s.find? key' = none := by
  rw [Admissions.find?_eq_none, Admissions.find?_eq_none, Admissions.enrol, List.map_append,
    List.mem_append, not_or, and_comm]
  simp

/-- All rows are inserted, or none: the second case is a key that was there, or comes twice. -/
theorem createOrchestrationJobs_isSome :
    (createOrchestrationJobs t shards s).isSome = true ↔ Fresh t shards s := by
  induction shards generalizing s with
  | nil => simp [createOrchestrationJobs, Fresh]
  | cons shard rest ih =>
    obtain ⟨operationId, job⟩ := shard
    rw [createOrchestrationJobs]
    split
    · rename_i hfind
      refine iff_of_false Bool.false_ne_true fun hfresh => ?_
      rw [hfresh.2 operationId (List.mem_cons_self ..)] at hfind
      cases hfind
    · rename_i hnew
      rw [ih, Fresh, Fresh, List.map_cons, List.nodup_cons]
      constructor
      · rintro ⟨hnodup, hrest⟩
        have hother : ∀ id ∈ rest.map Prod.fst, id ≠ operationId ∧ s.find? (t, id) = none := by
          intro id hid
          obtain ⟨hne, hfind⟩ := (find?_enrol_eq_none hnew).mp (hrest id hid)
          exact ⟨fun hid => hne (by rw [hid]), hfind⟩
        refine ⟨⟨fun hmem => (hother _ hmem).1 rfl, hnodup⟩, fun id hid => ?_⟩
        rcases List.mem_cons.mp hid with rfl | hid
        · exact hnew
        · exact (hother id hid).2
      · rintro ⟨⟨hnot, hnodup⟩, hall⟩
        refine ⟨hnodup, fun id hid => (find?_enrol_eq_none hnew).mpr ⟨fun heq => ?_, ?_⟩⟩
        · obtain ⟨-, rfl⟩ := Prod.mk.inj heq
          exact hnot hid
        · exact hall id (List.mem_cons_of_mem _ hid)

theorem createOrchestrationJobs_count (h : createOrchestrationJobs t shards s = some s') :
    activeJobs tenantId s' = activeJobs tenantId s + if t = tenantId then shards.length else 0 := by
  induction shards generalizing s with
  | nil =>
    obtain rfl : s = s' := Option.some.inj h
    simp
  | cons shard rest ih =>
    rw [createOrchestrationJobs] at h
    split at h
    · cases h
    · rw [ih h, activeJobs_enrol, List.length_cons]
      split <;> omega

theorem activeJobs_create :
    activeJobs tenantId ((createOrchestrationJobs t shards s).getD s) =
      activeJobs tenantId s + if t = tenantId ∧ Fresh t shards s then shards.length else 0 := by
  cases hcreate : createOrchestrationJobs t shards s with
  | none =>
    have hstale : ¬Fresh t shards s := fun hfresh => by
      simpa [hcreate] using createOrchestrationJobs_isSome.mpr hfresh
    rw [if_neg fun h => hstale h.2]
    rfl
  | some s' =>
    have hfresh : Fresh t shards s := createOrchestrationJobs_isSome.mp (by rw [hcreate]; rfl)
    rw [Option.getD_some, createOrchestrationJobs_count hcreate]
    simp only [hfresh, and_true]

end Create

/-! ## What one step does to the count -/

section Step

variable {cfg : InvokeSettings} {limits : String → Option Int} {limit : Int}

theorem dispatchOffload_count {operationId : String} {fate : Fate (Option String)} :
    activeJobs tenantId (dispatchOffload operationId fate i s).1 ≤ activeJobs tenantId s := by
  cases fate with
  | answered taskId => exact activeJobs_settle (s := s.dispatch i) fun _ h => h
  | unanswered | notDispatched | rolledBack => exact Nat.le_refl _

/-- What the quota lets through leaves room for one more row. -/
theorem enforce_room (h : enforceConcurrentJobQuota (some limit) tenantId s = none)
    (hkept : (activeJobs tenantId s : Int) ≤ limit) : (activeJobs tenantId s : Int) + 1 ≤ limit := by
  have hcount : (s.rows.countP fun row => row.key.1 == tenantId &&
      (row.progress.status == .queued || row.progress.status == .running)) = activeJobs tenantId s := rfl
  simp only [enforceConcurrentJobQuota, Option.bind_some, hcount] at h
  split at h
  · omega
  · split at h
    · cases h
    · omega

/-- The route inserts only under the limit. -/
theorem invokeOffload_within {t : String} {body : InvokeRequest} {fate : Fate (Option String)}
    (hlimit : limits tenantId = some limit) (h : (activeJobs tenantId s : Int) ≤ limit) :
    (activeJobs tenantId (invokeOffload cfg t (limits t) body fate s).1 : Int) ≤ limit := by
  unfold invokeOffload
  split
  · exact h
  · split
    · exact h
    · split
      · exact h
      · rename_i hnew
        split
        · exact h
        · rename_i hquota
          have hdispatch := @dispatchOffload_count tenantId
            (s.enrol (t, body.operationId) body.submission {} hnew) s.rows.length body.operationId fate
          rw [activeJobs_enrol] at hdispatch
          by_cases htenant : t = tenantId
          · subst htenant
            rw [hlimit] at hquota
            have hroom := enforce_room hquota h
            rw [if_pos rfl] at hdispatch
            omega
          · rw [if_neg htenant] at hdispatch
            omega

theorem activeJobs_schedule {t operationId : String} {document : Submission} :
    activeJobs tenantId (schedule t operationId document s) = activeJobs tenantId s +
      (Step.schedule t operationId document).demand tenantId ⟨s, []⟩ := by
  unfold schedule Step.demand
  dsimp only
  split
  · rename_i hnew
    rw [activeJobs_enrol, hnew]
  · rename_i job i hfind
    rw [hfind]
    dsimp only
    split
    · exact activeJobs_wake fun _ => rfl
    · rfl

/-- **A step keeps the limit if and only if there is room for its demand.** -/
theorem step_within {s : Ledger} (e : Step) (hlimit : limits tenantId = some limit)
    (h : (activeJobs tenantId s.jobs : Int) ≤ limit) :
    (activeJobs tenantId (s.step cfg limits e).jobs : Int) ≤ limit ↔
      (activeJobs tenantId s.jobs + e.demand tenantId s : Int) ≤ limit := by
  have hsettle : ∀ {i : Nat} {f : Progress → Progress},
      (∀ p, (f p).status.active = true → p.status.active = true) →
      ((activeJobs tenantId (s.jobs.update i f) : Int) ≤ limit ↔
        (activeJobs tenantId s.jobs + (0 : Nat) : Int) ≤ limit) := by
    intro i f hf
    have hless := @activeJobs_settle tenantId s.jobs i f hf
    exact iff_of_true (by omega) (by omega)
  cases e with
  | invoke t body fate =>
    exact iff_of_true (invokeOffload_within hlimit h) (by simpa [Step.demand] using h)
  | createJobs t shards =>
    simp only [Ledger.step, activeJobs_create, Step.demand, Nat.cast_add]
  | schedule t operationId document =>
    simp only [Ledger.step, activeJobs_schedule, Nat.cast_add]
    rfl
  | reRunJob i =>
    have hwake := @activeJobs_wake tenantId s.jobs i (fun p => { p with status := .queued }) fun _ => rfl
    simp only [Ledger.step, setStatus, hwake, Step.demand, Nat.cast_add]
  | dispatchWrites i taskId =>
    simp only [Ledger.step, dispatchWrites, Step.demand]
    split
    · have hwake := @activeJobs_wake tenantId s.jobs i
        (fun p => { status := .running, celeryTaskId := taskId.getD p.celeryTaskId }) fun _ => rfl
      simp only [hwake, Nat.cast_add]
    · simp
  | dispatchReads i =>
    have hsame : (dispatchReads i s).jobs = s.jobs := by
      unfold dispatchReads
      split
      · split <;> rfl
      · rfl
    simp [Ledger.step, hsame, Step.demand]
  | delay i taskId =>
    exact hsettle (i := i) (f := fun p => { p with celeryTaskId := taskId.getD p.celeryTaskId })
      fun _ hactive => hactive
  | claim i =>
    refine hsettle fun p hactive => ?_
    by_cases hqueued : p.status = .queued
    · rw [hqueued]
      rfl
    · rwa [if_neg hqueued] at hactive
  | succeed i | fail i | cancel i => exact hsettle fun _ hactive => nomatch hactive

end Step

/-! ## Every history -/

/-- **The limit is kept throughout a history if and only if every insert, requeue and late dispatch
    of it comes while the tenant has room.** -/
theorem concurrent_jobs_iff (cfg : InvokeSettings) (limits : String → Option Int) {tenantId : String}
    {limit : Int} (hlimit : limits tenantId = some limit) (s : Ledger)
    (hs : (activeJobs tenantId s.jobs : Int) ≤ limit) (history : List Step) :
    (∀ before, before <+: history →
      (activeJobs tenantId (s.run cfg limits before).jobs : Int) ≤ limit) ↔
    ∀ before e, before ++ [e] <+: history →
      (activeJobs tenantId (s.run cfg limits before).jobs +
        e.demand tenantId (s.run cfg limits before) : Int) ≤ limit := by
  refine Histories.throughout_iff hs (fun before e hbefore => ?_) history
  rw [Ledger.run, List.foldl_append]
  exact step_within e hlimit hbefore

def atlasShard (operationId : String) : String × Submission :=
  (operationId,
    ⟨"data_science.extraction.atlas", "sha256:aa", [], [], "\x7b\x7d", some 1, "input.arrow"⟩)

/-- One shard, which succeeds, and is run once more. -/
theorem concurrent_jobs_rerun :
    let history := [.createJobs "tenant" [atlasShard "shard-0"], .succeed 0, .reRunJob 0]
    let run := Ledger.run {} (fun _ => some 1) ⟨.empty, []⟩
    (∀ before, before <+: history → (activeJobs "tenant" (run before).jobs : Int) ≤ 1) ↔
    ∀ before e, before ++ [e] <+: history →
      (activeJobs "tenant" (run before).jobs + Step.demand "tenant" (run before) e : Int) ≤ 1 :=
  concurrent_jobs_iff {} (fun _ => some 1) rfl ⟨.empty, []⟩ (by decide) _

/-- One active job is allowed, and the extraction has two shards. -/
theorem extraction_ignores_quota :
    ¬∀ (limits : String → Option Int) (tenantId : String) (limit : Int),
      limits tenantId = some limit →
      ∀ s : Ledger, (activeJobs tenantId s.jobs : Int) ≤ limit →
      ∀ history : List Step, (activeJobs tenantId (s.run {} limits history).jobs : Int) ≤ limit := by
  intro hall
  have htwo := hall (fun _ => some 1) "tenant" 1 rfl ⟨.empty, []⟩ (by decide)
    [.createJobs "tenant" [atlasShard "shard-0", atlasShard "shard-1"]]
  exact absurd htwo (by decide)

end ControlPlane.Orchestration
