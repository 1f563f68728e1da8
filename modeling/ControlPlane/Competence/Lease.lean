/-
  THE LEASE of a competence job: a RUNNING row names, in `celery_task_id`, the one task that works on
  it.

  `_claim_job` answers with the row whether it took the lease or found it taken, and its caller
  looks at the status only; so a second delivery of a RUNNING job works without a lease
  (`lease_shared`).  After the claim nobody looks at the lease again: when the row leaves RUNNING, by
  a sweep or by a twin of the same task, a worker that is still alive goes on without one.
  `respectsLease` excludes these two things and no others, and then every delivery at work holds the
  lease (`lease_exclusive`).
-/
import ControlPlane.Competence.Tasks
import ControlPlane.Competence.Lineage

namespace ControlPlane.Competence

open ControlPlane.Interleave

variable {c : Canonical} {maxBytes : Nat} {d d' : Store c} {p p' q : Delivery c} {w : Write c}

/-! ## Holding the lease -/

/-- A row under which this task is the one that works. -/
def CompetenceJob.leasedTo (job : CompetenceJob c) (taskId : String) : Bool :=
  job.status == .running && job.celeryTaskId == taskId

/-- A delivery at work holds the lease of its job. -/
def HoldsLease (d : Store c) (p : Delivery c) : Prop :=
  p.working = true → ∃ job ∈ d.jobs, job.id = p.jobId ∧ job.leasedTo p.taskId = true

/-! ## The condition -/

/-- Another task holds the lease. -/
def CompetenceJob.leasedToOther (job : CompetenceJob c) (taskId : String) : Bool :=
  job.status == .running && job.celeryTaskId != "" && job.celeryTaskId != taskId

/-- Nobody but delivery number `i` is at work on this job. -/
def aloneAt (procs : List (Delivery c)) (i : Nat) (jobId : String) : Bool :=
  procs.zipIdx.all fun q => q.2 == i || q.1.jobId != jobId || !q.1.working

/-- No delivery claims a job whose lease another task holds, and no finish and no sweep takes a row
    out of RUNNING while another delivery is at work on the job. -/
def respectsLease (s : Config (Store c) (Delivery c)) : Event (Delivery c) Answer Move → Bool
  | .act i (.store _) => (s.procs[i]?).all fun p => match p.pc with
    | .claim => (s.store.find p.jobId).all fun job => !job.leasedToOther p.taskId
    | .finishSuccess .. | .finishProblem _ => aloneAt s.procs i p.jobId
    | _ => true
  | .env (.sweep stale) => s.procs.all fun p => !p.working || !stale.contains p.jobId
  | _ => true

theorem aloneAt_iff {procs : List (Delivery c)} {i : Nat} {jobId : String} :
    aloneAt procs i jobId = true ↔
      ∀ j q, procs[j]? = some q → j ≠ i → q.jobId = jobId → q.working = false := by
  simp only [aloneAt, List.all_eq_true, Prod.forall, List.mem_zipIdx_iff_getElem?]
  constructor
  · intro h j q hq hne hjob
    simpa [hne, hjob] using h q j hq
  · intro h q j hq
    by_cases hne : j = i
    · simp [hne]
    · by_cases hjob : q.jobId = jobId
      · simp [h j q hq hne hjob]
      · simp [hjob]

/-! ## What a step does to a lease -/

/-- A claim that does not run into another task's lease and finds work to do takes the lease. -/
theorem claimJob_leased {taskId : String} {job : CompetenceJob c}
    (hother : job.leasedToOther taskId = false) (hrunning : (claimJob taskId job).status = .running) :
    (claimJob taskId job).leasedTo taskId = true := by
  unfold claimJob at hrunning ⊢
  split
  · rename_i hdone
    rw [if_pos hdone] at hrunning
    rw [hrunning] at hdone
    simp at hdone
  · split
    · rename_i hlease
      simp [CompetenceJob.leasedToOther, hlease.1, hlease.2.1, hlease.2.2] at hother
    · simp [CompetenceJob.leasedTo]

/-- Such a claim leaves the lease of a task alone: it can only be the claimer's own. -/
theorem claimJob_leasedTo {taskId taskId' : String} {job : CompetenceJob c}
    (hother : job.leasedToOther taskId = false) (hnamed : taskId' ≠ "")
    (hlease : job.leasedTo taskId' = true) : (claimJob taskId job).leasedTo taskId' = true := by
  simp only [CompetenceJob.leasedTo, Bool.and_eq_true, beq_iff_eq] at hlease
  obtain ⟨hstatus, htask⟩ := hlease
  have hown : taskId' = taskId := by
    by_contra hne
    simp [CompetenceJob.leasedToOther, hstatus, htask, hnamed, hne] at hother
  rw [← hown] at hother ⊢
  refine claimJob_leased hother ?_
  simp [claimJob, hstatus, htask]

theorem HoldsLease.of_jobs (h : HoldsLease d q) (hjobs : d'.jobs = d.jobs) : HoldsLease d' q :=
  fun hq => hjobs ▸ h hq

/-- Saving a row keeps the leases that the new row keeps. -/
theorem HoldsLease.save (hids : (d.jobs.map CompetenceJob.id).Nodup) {job job' : CompetenceJob c}
    (hjob : job ∈ d.jobs) (hid : job'.id = job.id)
    (hkeep : q.working = true → q.jobId = job.id → job.leasedTo q.taskId = true →
      job'.leasedTo q.taskId = true) (h : HoldsLease d q) : HoldsLease (d.apply (.save job')) q := by
  intro hq
  obtain ⟨r, hr, hrid, hlease⟩ := h hq
  by_cases hsame : r.id = job.id
  · obtain rfl := Table.eq_of_key hids hr hjob hsame
    exact ⟨job', (mem_save hjob hid).mpr (Or.inl rfl), hid.trans hrid, hkeep hq hrid.symm hlease⟩
  · exact ⟨r, (mem_save hjob hid).mpr (Or.inr ⟨hr, fun heq => hsame (heq.trans hid)⟩), hrid, hlease⟩

theorem recordArtifact_leasedTo {artifactId key : String} {job job' : CompetenceJob c}
    (h : recordArtifact artifactId key job = .ok job') (taskId : String) :
    job'.leasedTo taskId = job.leasedTo taskId := by
  unfold recordArtifact at h
  split at h
  · cases h
  · cases h
    rfl

/-- **The delivery that steps** keeps the lease, takes it with its claim, or stops working. -/
theorem Next.own (hids : (d.jobs.map CompetenceJob.id).Nodup) (h : Next maxBytes d p w p')
    (hclaim : p.pc = .claim → ∀ job, d.find p.jobId = some job → job.leasedToOther p.taskId = false)
    (hp : HoldsLease d p) : HoldsLease (d.apply w) p' := by
  obtain ⟨hjobId, htaskId⟩ := h.same
  -- while it works, the lease it had is the lease it needs
  have hstill : p.working = true → HoldsLease d p' := by
    intro hworking _
    rw [hjobId, htaskId]
    exact hp hworking
  cases h with
  | crash | missing | finishSuccess | finishProblem => exact fun hp' => by cases hp'
  | @claim job hpc hjob =>
    obtain ⟨hmem, hid⟩ := find_some hjob
    intro hworking
    have hrunning : (claimJob p.taskId job).status = .running := by
      by_contra hne
      simp [Delivery.working, afterClaim, hne] at hworking
    have hid' : (claimJob p.taskId job).id = job.id := (claimJob_keeps p.taskId job).id
    exact ⟨_, (mem_save hmem hid').mpr (Or.inl rfl), hid'.trans hid,
      claimJob_leased (hclaim hpc job hjob) hrunning⟩
  | fit hpc | unfit hpc | readBack hpc => exact hstill (by rw [Delivery.working, hpc])
  | fail hworking => exact hstill hworking
  | put hpc | putFail hpc => exact (hstill (by rw [Delivery.working, hpc])).of_jobs rfl
  | record hpc hjob hrecord =>
    have hid := (recordArtifact_keeps hrecord).id
    refine (hstill (by rw [Delivery.working, hpc])).save hids (find_some hjob).1 hid ?_
    exact fun _ _ hlease => (recordArtifact_leasedTo hrecord _).trans hlease

/-- **Everybody else** keeps the lease when one delivery steps. -/
theorem Next.other (hids : (d.jobs.map CompetenceJob.id).Nodup) (h : Next maxBytes d p w p')
    (hclaim : p.pc = .claim → ∀ job, d.find p.jobId = some job → job.leasedToOther p.taskId = false)
    (hfinish : (∃ f keys, p.pc = .finishSuccess f keys) ∨ (∃ problem, p.pc = .finishProblem problem) →
      q.jobId = p.jobId → q.working = false)
    (hnamed : q.taskId ≠ "") (hq : HoldsLease d q) : HoldsLease (d.apply w) q := by
  cases h with
  | crash | missing | fit | unfit | fail | readBack => exact hq
  | put | putFail => exact hq.of_jobs rfl
  | claim hpc hjob =>
    obtain ⟨hmem, -⟩ := find_some hjob
    refine hq.save hids hmem (claimJob_keeps ..).id ?_
    exact fun _ _ hlease => claimJob_leasedTo (hclaim hpc _ hjob) hnamed hlease
  | record hpc hjob hrecord =>
    have hid := (recordArtifact_keeps hrecord).id
    refine hq.save hids (find_some hjob).1 hid ?_
    exact fun _ _ hlease => (recordArtifact_leasedTo hrecord _).trans hlease
  | finishSuccess hpc hjob =>
    obtain ⟨hmem, hid⟩ := find_some hjob
    refine hq.save hids hmem (finishSuccess_keeps ..).id ?_
    intro hworking hsame
    rw [hfinish (Or.inl ⟨_, _, hpc⟩) (hsame.trans hid)] at hworking
    cases hworking
  | finishProblem hpc hjob =>
    obtain ⟨hmem, hid⟩ := find_some hjob
    refine hq.save hids hmem (finishProblem_keeps ..).id ?_
    intro hworking hsame
    rw [hfinish (Or.inr ⟨_, hpc⟩) (hsame.trans hid)] at hworking
    cases hworking

/-- Submissions and cleanups leave leases alone, and so does a sweep that spares the job. -/
theorem HoldsLease.moved {m : Move} (hids : (d.jobs.map CompetenceJob.id).Nodup) (h : Moved d m d')
    (hsweep : ∀ stale, m = .sweep stale → q.working = true → q.jobId ∉ stale)
    (hq : HoldsLease d q) : HoldsLease d' q := by
  cases h with
  | same | delete => exact hq
  | submit binding hnew =>
    intro hworking
    obtain ⟨r, hr, hrid, hlease⟩ := hq hworking
    exact ⟨r, List.mem_cons_of_mem _ hr, hrid, hlease⟩
  | sweep stale =>
    intro hworking
    obtain ⟨r, hr, hrid, hlease⟩ := hq hworking
    have hspared : ¬ (r.id ∈ stale ∧ r.status = .running) := fun hstale =>
      hsweep stale rfl hworking (hrid ▸ hstale.1)
    exact ⟨r, List.mem_map.mpr ⟨r, hr, if_neg hspared⟩, hrid, hlease⟩
  | cleanup digest receipt hjob =>
    have hq' : HoldsLease { d with objects := _ } q := hq.of_jobs rfl
    exact hq'.save hids hjob rfl fun _ _ hlease => hlease

/-! ## Lease exclusivity -/

/-- Rows have distinct ids, every delivery has a task id, and those at work hold their leases. -/
structure Leased (s : Config (Store c) (Delivery c)) : Prop where
  ids : (s.store.jobs.map CompetenceJob.id).Nodup
  named : ∀ p ∈ s.procs, p.taskId ≠ ""
  holds : ∀ p ∈ s.procs, HoldsLease s.store p

/-- What the condition says about a delivery that steps. -/
theorem respectsLease_act {s : Config (Store c) (Delivery c)} {i : Nat} {reply : Reply}
    (hC : respectsLease s (.act i (.store reply)) = true) (hget : s.procs[i]? = some p) :
    (p.pc = .claim → ∀ job, s.store.find p.jobId = some job → job.leasedToOther p.taskId = false) ∧
    ((∃ f keys, p.pc = .finishSuccess f keys) ∨ (∃ problem, p.pc = .finishProblem problem) →
      aloneAt s.procs i p.jobId = true) := by
  simp only [respectsLease, hget, Option.all_some] at hC
  constructor
  · intro hpc job hjob
    rw [hpc] at hC
    simpa [hjob] using hC
  · rintro (⟨f, keys, hpc⟩ | ⟨problem, hpc⟩)
    · rw [hpc] at hC
      exact hC
    · rw [hpc] at hC
      exact hC

/-- A step of one delivery: its own lease, and everybody else's. -/
theorem Leased.act {s : Config (Store c) (Delivery c)} {i : Nat} {answer : Answer} (hs : Leased s)
    (hC : respectsLease s (.act i answer) = true) (hget : s.procs[i]? = some p)
    (h : (jobMachine c maxBytes).act s.store p answer = some (d', p')) :
    HoldsLease d' p' ∧ ∀ j q, s.procs[j]? = some q → j ≠ i → HoldsLease d' q := by
  have hp := List.mem_of_getElem? hget
  cases answer with
  | crash =>
    cases h
    refine ⟨fun hworking => ?_, fun j q hq _ => hs.holds q (List.mem_of_getElem? hq)⟩
    cases hworking
  | store reply =>
    obtain ⟨w, hnext, rfl⟩ := jobMachine_act h
    obtain ⟨hclaim, hfinish⟩ := respectsLease_act hC hget
    refine ⟨hnext.own hs.ids hclaim (hs.holds p hp), fun j q hq hne => ?_⟩
    have hqmem := List.mem_of_getElem? hq
    refine hnext.other hs.ids hclaim (fun hpc hjob => ?_) (hs.named q hqmem) (hs.holds q hqmem)
    exact aloneAt_iff.mp (hfinish hpc) j q hq hne hjob

/-- **One step** that respects the leases keeps them. -/
theorem Leased.step {s s' : Config (Store c) (Delivery c)} {e : Event (Delivery c) Answer Move}
    (hs : Leased s) (hC : respectsLease s e = true)
    (h : (jobMachine c maxBytes).step s e = some s') : Leased s' := by
  cases e with
  | spawn p =>
    obtain ⟨hstart, rfl⟩ := (jobMachine c maxBytes).step_spawn h
    obtain ⟨hpc, hnamed⟩ : p.pc = .claim ∧ p.taskId ≠ "" := by
      simpa [jobMachine, Delivery.starts] using hstart
    refine ⟨hs.ids, fun q hq => ?_, fun q hq => ?_⟩
    · rcases List.mem_append.mp hq with hq | hq
      · exact hs.named q hq
      · exact List.mem_singleton.mp hq ▸ hnamed
    · rcases List.mem_append.mp hq with hq | hq
      · exact hs.holds q hq
      · obtain rfl := List.mem_singleton.mp hq
        intro hworking
        simp [Delivery.working, hpc] at hworking
  | env m =>
    obtain ⟨d', hmove, rfl⟩ := (jobMachine c maxBytes).step_env h
    have hmoved := move_cases hmove
    refine ⟨nodup_moved hs.ids hmoved, hs.named, fun q hq => ?_⟩
    refine (hs.holds q hq).moved hs.ids hmoved fun stale hstale hworking => ?_
    subst hstale
    have hspared := List.all_eq_true.mp hC q hq
    simpa [hworking] using hspared
  | act i answer =>
    obtain ⟨p, d', p', hget, hact, rfl⟩ := (jobMachine c maxBytes).step_act h
    obtain ⟨hown, hothers⟩ := hs.act hC hget hact
    obtain ⟨w, hnext, rfl⟩ := jobMachine_act hact
    have hp := List.mem_of_getElem? hget
    refine ⟨nodup_apply hs.ids, fun q hq => ?_, fun q hq => ?_⟩
    · rcases List.mem_or_eq_of_mem_set hq with hq | rfl
      · exact hs.named q hq
      · exact hnext.same.2 ▸ hs.named p hp
    · obtain ⟨j, hj⟩ := List.mem_iff_getElem?.mp hq
      rw [List.getElem?_set] at hj
      split at hj
      · split at hj
        · exact Option.some.inj hj ▸ hown
        · cases hj
      · rename_i hne
        exact hothers j q hj fun heq => hne heq.symm

/-- **Every delivery at work holds the lease of its job**, in every run that respects the leases; so
    no two tasks work on one job at a time. -/
theorem lease_exclusive (maxBytes : Nat) {s : Config (Store c) (Delivery c)}
    (h : (jobMachine c maxBytes).Reach (fun s e => respectsLease s e) (initial c) s) :
    (∀ p ∈ s.procs, p.working = true →
      ∃ job ∈ s.store.jobs, job.id = p.jobId ∧ job.leasedTo p.taskId = true) ∧
    ∀ p ∈ s.procs, ∀ q ∈ s.procs, p.working = true → q.working = true → p.jobId = q.jobId →
      p.taskId = q.taskId := by
  have hinit : Leased (initial c) :=
    ⟨List.nodup_nil, fun _ hp => absurd hp List.not_mem_nil, fun _ hp => absurd hp List.not_mem_nil⟩
  have hs : Leased s :=
    Program.Reach.invariant (jobMachine c maxBytes) (fun _ _ _ hI hC he => hI.step hC he) h hinit
  refine ⟨hs.holds, fun p hp q hq hpw hqw hjob => ?_⟩
  obtain ⟨r, hr, hrid, hrp⟩ := hs.holds p hp hpw
  obtain ⟨r', hr', hrid', hrq⟩ := hs.holds q hq hqw
  obtain rfl := Table.eq_of_key hs.ids hr hr' (hrid.trans (hjob.trans hrid'.symm))
  simp only [CompetenceJob.leasedTo, Bool.and_eq_true, beq_iff_eq] at hrp hrq
  exact hrp.2.symm.trans hrq.2

/-! ## Concrete runs -/

def firstJobId : String := "33333333-3333-4333-8333-333333333333"

def firstSubmission : Event (Delivery recorded) Answer Move :=
  .env (.submit .fit recordedScope.tenantId [recordedScope.projectId] firstJobId firstFit.request)

/-- A message that the broker delivers for the first job. -/
def firstDelivery (taskId : String) : Event (Delivery recorded) Answer Move :=
  .spawn { jobId := firstJobId, taskId := taskId, retries := 0, pc := .claim }

/-- One delivery, which claims the job. -/
def oneClaim : List (Event (Delivery recorded) Answer Move) :=
  [firstSubmission, firstDelivery "task-1", .act 0 (.store .ok)]

theorem lease_exclusive_claim : ∃ s : Config (Store recorded) (Delivery recorded),
    (∃ p ∈ s.procs, p.working = true) ∧ ∀ p ∈ s.procs, p.working = true →
      ∃ job ∈ s.store.jobs, job.id = p.jobId ∧ job.leasedTo p.taskId = true := by
  have hrun : ((jobMachine recorded 67108864).runWhen (fun s e => respectsLease s e)
      (initial recorded) oneClaim).any (fun s => s.procs.any Delivery.working) = true := by
    decide +kernel
  obtain ⟨s, hs, hworking⟩ := (Option.any_eq_true ..).mp hrun
  exact ⟨s, List.any_eq_true.mp hworking,
    (lease_exclusive 67108864 (Program.runWhen_reach _ oneClaim hs)).1⟩

/-- The sweep redispatched the job while it was queued: two deliveries under two task ids.  The
    second finds the row RUNNING, and works. -/
def twoClaims : List (Event (Delivery recorded) Answer Move) :=
  [firstSubmission, firstDelivery "task-1", firstDelivery "task-2", .act 0 (.store .ok),
    .act 1 (.store .ok)]

theorem lease_shared : ∃ s : Config (Store recorded) (Delivery recorded),
    (jobMachine recorded 67108864).Reach Program.Any (initial recorded) s ∧
      ∃ p ∈ s.procs, ∃ q ∈ s.procs, p.working = true ∧ q.working = true ∧ p.jobId = q.jobId ∧
        p.taskId ≠ q.taskId := by
  have hrun : ((jobMachine recorded 67108864).run (initial recorded) twoClaims).any (fun s =>
      s.procs.any fun p => s.procs.any fun q => p.working && q.working && p.jobId == q.jobId &&
        p.taskId != q.taskId) = true := by
    decide +kernel
  obtain ⟨s, hs, hshared⟩ := (Option.any_eq_true ..).mp hrun
  refine ⟨s, Program.run_reach _ twoClaims hs, ?_⟩
  simpa only [List.any_eq_true, Bool.and_eq_true, beq_iff_eq, bne_iff_ne, and_assoc] using hshared

end ControlPlane.Competence
