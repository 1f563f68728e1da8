/-
  CLEANUP of a competence job: deletes the artifacts recorded on the row and leaves a receipt there.

  `cleanup_competence_job` compares its request with `artifact_keys_json` and with nothing else.  It
  does not see a delivery that has written its prior pack and is about to write its model, nor an
  object that was written and never recorded; and `_claim_job` does not see the receipt.  So a job
  can succeed with artifacts that were cleaned (`succeeded_cleaned`).

  `cleansQuietly` says when a cleanup may take effect and which claims may work.  In every run that
  keeps to it a receipt is final: the job has no object in the store, never again gets one, and
  does not come to succeed (`cleanup_final`).
-/
import ControlPlane.Competence.Lease

namespace ControlPlane.Competence

open ControlPlane.Interleave

variable {c : Canonical} {maxBytes : Nat} {d d' : Store c} {p p' : Delivery c} {w : Write c}

/-! ## The condition -/

/-- A cleanup takes effect only while no delivery is at work on the job and every object that the
    job has in the store is recorded on its row; and a delivery that claims a job with a receipt
    finds it SUCCEEDED, REFUSED or CANCELED. -/
def cleansQuietly (s : Config (Store c) (Delivery c)) : Event (Delivery c) Answer Move → Bool
  | .act i (.store _) => (s.procs[i]?).all fun p => p.pc != .claim ||
      (s.store.find p.jobId).all fun job => job.cleanupReceipt.isNone ||
        job.status == .succeeded || job.status == .refused || job.status == .canceled
  | .env (.cleanup tenantId jobId body configured answer) =>
      (cleanup tenantId jobId body configured answer s.store).1 == s.store ||
        ((s.procs.all fun p => p.jobId != jobId || !p.working) &&
          s.store.objects.all fun o => o.writtenBy != jobId ||
            (s.store.find jobId).any fun job => job.recorded o.key)
  | _ => true

/-! ## Quiet jobs -/

/-- No object of the job is in the store, and nobody is at work on it. -/
structure Quiet (d : Store c) (procs : List (Delivery c)) (jobId : String) : Prop where
  clean : ∀ o ∈ d.objects, o.writtenBy ≠ jobId
  idle : ∀ p ∈ procs, p.jobId = jobId → p.working = false

/-- Rows have distinct ids, and a job with a receipt is quiet. -/
structure Cleaned (s : Config (Store c) (Delivery c)) : Prop where
  ids : (s.store.jobs.map CompetenceJob.id).Nodup
  quiet : ∀ job ∈ s.store.jobs, job.cleanupReceipt ≠ none → Quiet s.store s.procs job.id

/-- A claim leaves a finished row alone, and so does its caller. -/
theorem claimJob_finished (taskId : String) {job : CompetenceJob c}
    (h : job.status = .succeeded ∨ job.status = .refused ∨ job.status = .canceled) :
    claimJob taskId job = job ∧ afterClaim (claimJob taskId job) = .done (.joined job.status) := by
  have hsame : claimJob taskId job = job := if_pos h
  rw [hsame]
  refine ⟨rfl, if_neg fun hrunning => ?_⟩
  rw [hrunning] at h
  simp at h

/-- A step for another job touches neither the row nor the objects of this one. -/
theorem Next.elsewhere {job : CompetenceJob c} (h : Next maxBytes d p w p')
    (hne : p.jobId ≠ job.id) (hjob : job ∈ d.jobs) (hclean : ∀ o ∈ d.objects, o.writtenBy ≠ job.id) :
    job ∈ (d.apply w).jobs ∧ ∀ o ∈ (d.apply w).objects, o.writtenBy ≠ job.id := by
  cases w with
  | nothing => exact ⟨hjob, hclean⟩
  | save job' =>
    obtain ⟨old, hold, hkeeps⟩ := h.saved
    obtain ⟨hmem, hid⟩ := find_some hold
    refine ⟨(mem_save hmem hkeeps.id).mpr (Or.inr ⟨hjob, fun heq => hne ?_⟩), hclean⟩
    exact hid.symm.trans (hkeeps.id.symm.trans heq.symm)
  | put o =>
    have howner : o.writtenBy = p.jobId := by
      cases h <;> rfl
    refine ⟨hjob, fun o' ho' => ?_⟩
    rcases List.mem_cons.mp ho' with rfl | ho'
    · exact howner ▸ hne
    · exact hclean o' (List.mem_filter.mp ho').1

/-- **A delivery that steps** leaves a quiet job quiet, and its row as it is. -/
theorem Next.quiet {job : CompetenceJob c} {procs : List (Delivery c)}
    (hids : (d.jobs.map CompetenceJob.id).Nodup) (h : Next maxBytes d p w p') (hp : p ∈ procs)
    (hclaim : p.pc = .claim → p.jobId = job.id →
      job.status = .succeeded ∨ job.status = .refused ∨ job.status = .canceled)
    (hjob : job ∈ d.jobs) (hquiet : Quiet d procs job.id) :
    job ∈ (d.apply w).jobs ∧ (∀ o ∈ (d.apply w).objects, o.writtenBy ≠ job.id) ∧
      (p'.jobId = job.id → p'.working = false) := by
  by_cases hsame : p.jobId = job.id
  · -- nobody is at work on the job, so this delivery dies or claims
    have hidle : p.working = false := hquiet.idle p hp hsame
    cases h with
    | crash | missing => exact ⟨hjob, hquiet.clean, fun _ => rfl⟩
    | claim hpc hfound =>
      obtain ⟨hmem, hid⟩ := find_some hfound
      obtain rfl := Table.eq_of_key hids hmem hjob (hid.trans hsame)
      obtain ⟨hrow, hcaller⟩ := claimJob_finished p.taskId (hclaim hpc hsame)
      refine ⟨?_, hquiet.clean, fun _ => ?_⟩
      · rw [hrow]
        exact (mem_save hjob rfl).mpr (Or.inl rfl)
      · rw [Delivery.working, hcaller]
    | fail hworking => rw [hidle] at hworking; cases hworking
    | fit hpc | unfit hpc | put hpc | putFail hpc | readBack hpc | record hpc | finishSuccess hpc
    | finishProblem hpc => rw [Delivery.working, hpc] at hidle; cases hidle
  · obtain ⟨hrow, hclean⟩ := h.elsewhere hsame hjob hquiet.clean
    exact ⟨hrow, hclean, fun heq => absurd (h.same.1.symm.trans heq) hsame⟩

/-- A move other than a cleanup of the job itself leaves a quiet job quiet; of its row at most the
    lease moves. -/
theorem Quiet.moved {job : CompetenceJob c} {procs : List (Delivery c)} {m : Move}
    (hids : (d.jobs.map CompetenceJob.id).Nodup) (h : Moved d m d') (hjob : job ∈ d.jobs)
    (hreceipt : job.cleanupReceipt ≠ none) (hquiet : Quiet d procs job.id) :
    Quiet d' procs job.id ∧ ∃ job' ∈ d'.jobs, job'.id = job.id ∧
      job'.cleanupReceipt = job.cleanupReceipt ∧ (job'.status = .succeeded → job.status = .succeeded) := by
  cases h with
  | same => exact ⟨hquiet, job, hjob, rfl, rfl, id⟩
  | submit => exact ⟨⟨hquiet.clean, hquiet.idle⟩, job, List.mem_cons_of_mem _ hjob, rfl, rfl, id⟩
  | sweep stale =>
    refine ⟨⟨hquiet.clean, hquiet.idle⟩, _, List.mem_map.mpr ⟨job, hjob, rfl⟩, ?_⟩
    split
    · exact ⟨rfl, rfl, fun h => by cases h⟩
    · exact ⟨rfl, rfl, id⟩
  | delete _ hobjects =>
    exact ⟨⟨fun o ho => hquiet.clean o (hobjects ho), hquiet.idle⟩, job, hjob, rfl, rfl, id⟩
  | @cleanup _ _ _ _ _ job' _ digest receipt hjob' _ hfirst hobjects _ =>
    -- it is another job's row that gets its receipt now
    have hne : job.id ≠ job'.id := fun heq => by
      rw [Table.eq_of_key hids hjob hjob' heq] at hreceipt
      exact hreceipt hfirst
    refine ⟨⟨fun o ho => hquiet.clean o (hobjects ho), hquiet.idle⟩, job, ?_, rfl, rfl, id⟩
    refine (mem_save hjob' ?_).mpr (Or.inr ⟨hjob, hne⟩)
    rfl

/-! ## Receipts are final -/

/-- What the condition says about a delivery that claims a job with a receipt. -/
theorem cleansQuietly_claim {s : Config (Store c) (Delivery c)} {i : Nat} {reply : Reply}
    {job : CompetenceJob c} (hC : cleansQuietly s (.act i (.store reply)) = true)
    (hget : s.procs[i]? = some p) (hids : (s.store.jobs.map CompetenceJob.id).Nodup)
    (hjob : job ∈ s.store.jobs) (hreceipt : job.cleanupReceipt ≠ none) (hpc : p.pc = .claim)
    (hid : p.jobId = job.id) :
    job.status = .succeeded ∨ job.status = .refused ∨ job.status = .canceled := by
  have hfind : s.store.find p.jobId = some job := by
    rw [hid]
    exact find_eq_some hids hjob
  simp only [cleansQuietly, hget, Option.all_some, hpc, hfind] at hC
  simpa [hreceipt, or_assoc] using hC

/-- What it says about a cleanup that leaves a receipt. -/
theorem cleansQuietly_cleanup {s : Config (Store c) (Delivery c)} {tenantId jobId : String}
    {body : CleanupRequest} {configured : Reply} {answer : String → Reply}
    (hC : cleansQuietly s (.env (.cleanup tenantId jobId body configured answer)) = true)
    (heffect : (cleanup tenantId jobId body configured answer s.store).1 ≠ s.store) :
    (∀ p ∈ s.procs, p.jobId = jobId → p.working = false) ∧
      ∀ o ∈ s.store.objects, o.writtenBy = jobId →
        ∃ job, s.store.find jobId = some job ∧ job.recorded o.key = true := by
  simp only [cleansQuietly, Bool.or_eq_true, beq_iff_eq, heffect, false_or, Bool.and_eq_true,
    List.all_eq_true] at hC
  refine ⟨fun p hp hid => ?_, fun o ho howner => ?_⟩
  · simpa [hid] using hC.1 p hp
  · simpa [howner, Option.any_eq_true] using hC.2 o ho

/-- A job that has just been given a receipt is quiet, because it was cleaned quietly. -/
theorem quiet_of_cleanup {s : Config (Store c) (Delivery c)} {tenantId jobId : String}
    {body : CleanupRequest} {configured : Reply} {answer : String → Reply} {job job' : CompetenceJob c}
    (hids : (s.store.jobs.map CompetenceJob.id).Nodup)
    (hC : cleansQuietly s (.env (.cleanup tenantId jobId body configured answer)) = true)
    (hd' : (cleanup tenantId jobId body configured answer s.store).1 = d')
    (hjob : job ∈ s.store.jobs) (hid : job.id = jobId) (hfirst : job.cleanupReceipt = none)
    (hjob' : job' ∈ d'.jobs) (hid' : job'.id = jobId) (hreceipt : job'.cleanupReceipt ≠ none)
    (hobjects : d'.objects ⊆ s.store.objects)
    (hclean : ∀ o ∈ d'.objects, job.recorded o.key = false) : Quiet d' s.procs jobId := by
  have heffect : (cleanup tenantId jobId body configured answer s.store).1 ≠ s.store := fun heq => by
    rw [← hd', heq] at hjob'
    rw [Table.eq_of_key hids hjob' hjob (hid'.trans hid.symm)] at hreceipt
    exact hreceipt hfirst
  obtain ⟨hidle, hrecorded⟩ := cleansQuietly_cleanup hC heffect
  refine ⟨fun o ho howner => ?_, hidle⟩
  obtain ⟨found, hfound, hkey⟩ := hrecorded o (hobjects ho) howner
  obtain rfl : job = found := by
    rw [← hid, find_eq_some hids hjob] at hfound
    exact Option.some.inj hfound
  rw [hclean o ho] at hkey
  cases hkey

/-- A step of a delivery: what becomes of a job with a receipt. -/
theorem Cleaned.act {s : Config (Store c) (Delivery c)} {i : Nat} {answer : Answer}
    {job : CompetenceJob c} (hs : Cleaned s) (hC : cleansQuietly s (.act i answer) = true)
    (hget : s.procs[i]? = some p)
    (h : (jobMachine c maxBytes).act s.store p answer = some (d', p')) (hjob : job ∈ s.store.jobs)
    (hreceipt : job.cleanupReceipt ≠ none) :
    job ∈ d'.jobs ∧ Quiet d' (s.procs.set i p') job.id := by
  have hquiet := hs.quiet job hjob hreceipt
  have hstep : job ∈ d'.jobs ∧ (∀ o ∈ d'.objects, o.writtenBy ≠ job.id) ∧
      (p'.jobId = job.id → p'.working = false) := by
    cases answer with
    | crash =>
      cases h
      exact ⟨hjob, hquiet.clean, fun _ => rfl⟩
    | store reply =>
      obtain ⟨w, hnext, rfl⟩ := jobMachine_act h
      exact hnext.quiet hs.ids (List.mem_of_getElem? hget)
        (cleansQuietly_claim hC hget hs.ids hjob hreceipt) hjob hquiet
  obtain ⟨hrow, hclean, hidle⟩ := hstep
  refine ⟨hrow, hclean, fun q hq hid => ?_⟩
  rcases List.mem_or_eq_of_mem_set hq with hq | rfl
  · exact hquiet.idle q hq hid
  · exact hidle hid

/-- **One step**: a job with a receipt stays quiet, keeps its receipt and does not come to succeed. -/
theorem Cleaned.step {s s' : Config (Store c) (Delivery c)} {e : Event (Delivery c) Answer Move}
    (hs : Cleaned s) (hC : cleansQuietly s e = true)
    (h : (jobMachine c maxBytes).step s e = some s') :
    Cleaned s' ∧ ∀ job ∈ s.store.jobs, job.cleanupReceipt ≠ none →
      ∃ job' ∈ s'.store.jobs, job'.id = job.id ∧ job'.cleanupReceipt = job.cleanupReceipt ∧
        (job'.status = .succeeded → job.status = .succeeded) := by
  cases e with
  | spawn p =>
    obtain ⟨hstart, rfl⟩ := (jobMachine c maxBytes).step_spawn h
    have hpc : p.pc = .claim := by
      simp only [jobMachine, Delivery.starts, decide_eq_true_eq] at hstart
      exact hstart.1
    refine ⟨⟨hs.ids, fun job hjob hreceipt => ?_⟩, fun job hjob _ => ⟨job, hjob, rfl, rfl, id⟩⟩
    have hquiet := hs.quiet job hjob hreceipt
    refine ⟨hquiet.clean, fun q hq hid => ?_⟩
    rcases List.mem_append.mp hq with hq | hq
    · exact hquiet.idle q hq hid
    · rw [List.mem_singleton.mp hq, Delivery.working, hpc]
  | act i answer =>
    obtain ⟨p, d', p', hget, hact, rfl⟩ := (jobMachine c maxBytes).step_act h
    have hkept : ∀ job ∈ s.store.jobs, job.cleanupReceipt ≠ none →
        job ∈ d'.jobs ∧ Quiet d' (s.procs.set i p') job.id :=
      fun job hjob hreceipt => hs.act hC hget hact hjob hreceipt
    obtain ⟨w, hnext, rfl⟩ := jobMachine_act hact
    refine ⟨⟨nodup_apply hs.ids, fun job' hjob' hreceipt => ?_⟩, fun job hjob hreceipt =>
      ⟨job, (hkept job hjob hreceipt).1, rfl, rfl, id⟩⟩
    obtain ⟨job, hjob, hkeeps⟩ := hnext.row hjob'
    rw [hkeeps.receipt] at hreceipt
    exact hkeeps.id ▸ (hkept job hjob hreceipt).2
  | env m =>
    obtain ⟨d', hmove, rfl⟩ := (jobMachine c maxBytes).step_env h
    have hmoved := move_cases hmove
    have hkept : ∀ job ∈ s.store.jobs, job.cleanupReceipt ≠ none → _ :=
      fun job hjob hreceipt => (hs.quiet job hjob hreceipt).moved hs.ids hmoved hjob hreceipt
    refine ⟨⟨nodup_moved hs.ids hmoved, fun job' hjob' hreceipt => ?_⟩, fun job hjob hreceipt =>
      (hkept job hjob hreceipt).2⟩
    cases hmoved with
    | same | delete => exact (hkept job' hjob' hreceipt).1
    | submit =>
      rcases List.mem_cons.mp hjob' with rfl | hjob'
      · exact absurd rfl hreceipt
      · exact (hkept job' hjob' hreceipt).1
    | sweep stale =>
      obtain ⟨job, hjob, rfl⟩ := List.mem_map.mp hjob'
      have hkeeps : Keeps job (if job.id ∈ stale ∧ job.status = .running then
          { job with status := .queued, celeryTaskId := "" } else job) := by
        split <;> exact ⟨rfl, rfl⟩
      rw [hkeeps.receipt] at hreceipt
      rw [hkeeps.id]
      exact (hkept job hjob hreceipt).1
    | @cleanup _ _ _ _ _ job _ digest receipt hjob hid hfirst hobjects hclean =>
      by_cases hsame : job'.id = job.id
      · rw [hsame.trans hid]
        exact quiet_of_cleanup (s := s) hs.ids hC (Option.some.inj hmove) hjob hid hfirst hjob'
          (hsame.trans hid) hreceipt hobjects hclean
      · rcases (mem_save hjob (by rfl)).mp hjob' with rfl | ⟨hmem, -⟩
        · exact absurd rfl hsame
        · exact (hkept job' hmem hreceipt).1

/-- What is kept of a job with a receipt. -/
def Finished (job : CompetenceJob c) (s : Config (Store c) (Delivery c)) : Prop :=
  Cleaned s ∧ ∃ job' ∈ s.store.jobs, job'.id = job.id ∧ job'.cleanupReceipt = job.cleanupReceipt ∧
    (job'.status = .succeeded → job.status = .succeeded)

theorem Finished.step {s s' : Config (Store c) (Delivery c)} {e : Event (Delivery c) Answer Move}
    {job : CompetenceJob c} (hreceipt : job.cleanupReceipt ≠ none) (hs : Finished job s)
    (hC : cleansQuietly s e = true) (h : (jobMachine c maxBytes).step s e = some s') :
    Finished job s' := by
  obtain ⟨hcleaned, row, hrow, hid, hsame, hstatus⟩ := hs
  obtain ⟨hcleaned', hkept⟩ := hcleaned.step hC h
  obtain ⟨row', hrow', hid', hsame', hstatus'⟩ := hkept row hrow (hsame ▸ hreceipt)
  exact ⟨hcleaned', row', hrow', hid'.trans hid, hsame'.trans hsame, fun h => hstatus (hstatus' h)⟩

/-- **A cleanup receipt is final** in every run that cleans quietly: from the receipt on, the job has
    no object in the store, keeps its receipt and, unless it has already succeeded, never does. -/
theorem cleanup_final (maxBytes : Nat) {s s' : Config (Store c) (Delivery c)} {job : CompetenceJob c}
    (h : (jobMachine c maxBytes).Reach (fun s e => cleansQuietly s e) (initial c) s)
    (hjob : job ∈ s.store.jobs) (hreceipt : job.cleanupReceipt ≠ none)
    (h' : (jobMachine c maxBytes).Reach (fun s e => cleansQuietly s e) s s') :
    (∀ o ∈ s'.store.objects, o.writtenBy ≠ job.id) ∧
      ∃ job' ∈ s'.store.jobs, job'.id = job.id ∧ job'.cleanupReceipt = job.cleanupReceipt ∧
        (job'.status = .succeeded → job.status = .succeeded) := by
  have hinit : Cleaned (initial c) :=
    ⟨List.nodup_nil, fun _ hjob => absurd hjob List.not_mem_nil⟩
  have hs : Cleaned s :=
    Program.Reach.invariant (jobMachine c maxBytes) (fun _ _ _ hI hC he => (hI.step hC he).1) h hinit
  have hs' : Finished job s' :=
    Program.Reach.invariant (jobMachine c maxBytes) (fun _ _ _ hI hC he => hI.step hreceipt hC he) h'
      ⟨hs, job, hjob, rfl, rfl, id⟩
  obtain ⟨hcleaned, job', hjob', hid, hsame, hstatus⟩ := hs'
  refine ⟨?_, job', hjob', hid, hsame, hstatus⟩
  exact hid ▸ (hcleaned.quiet job' hjob' (hsame ▸ hreceipt)).clean

/-! ## Concrete runs -/

/-- A cleanup of the first job that names these artifacts; the store deletes what it is asked to. -/
def cleanupFirst (artifactIds : List String) : Event (Delivery recorded) Answer Move :=
  .env (.cleanup recordedScope.tenantId firstJobId
    { contract := competenceExchangeSchema
      cleanupOperationId := "cleanup-1"
      jobId := firstJobId
      scope := recordedScope
      artifactIds := artifactIds } .ok fun _ => .ok)

def firstPriorPackId : String := "sha256:" ++ firstFit.priorPackHex.val

def firstModelId : String := "sha256:" ++ firstFit.modelHex.val

/-- So many steps of the first delivery, the store answering each of its calls. -/
def firstSteps (n : Nat) : List (Event (Delivery recorded) Answer Move) :=
  List.replicate n (.act 0 (.store .ok))

/-- One delivery runs to success, then the job is cleaned. -/
def succeedThenClean : List (Event (Delivery recorded) Answer Move) :=
  [firstSubmission, firstDelivery "task-1"] ++ firstSteps 9 ++
    [cleanupFirst [firstPriorPackId, firstModelId]]

/-- Another delivery of the job joins what it finds. -/
def lateDelivery : List (Event (Delivery recorded) Answer Move) :=
  [firstDelivery "task-2", .act 1 (.store .ok)]

theorem cleanup_final_succeeded : ∃ s s' : Config (Store recorded) (Delivery recorded),
    ∃ job ∈ s.store.jobs, job.cleanupReceipt ≠ none ∧ (∀ o ∈ s'.store.objects, o.writtenBy ≠ job.id) ∧
      ∃ job' ∈ s'.store.jobs, job'.id = job.id ∧ job'.cleanupReceipt = job.cleanupReceipt ∧
        (job'.status = .succeeded → job.status = .succeeded) := by
  have hrun : ((jobMachine recorded 67108864).runWhen (fun s e => cleansQuietly s e)
      (initial recorded) succeedThenClean).any (fun s =>
        (s.store.jobs.any fun job => job.cleanupReceipt != none) &&
          ((jobMachine recorded 67108864).runWhen (fun s e => cleansQuietly s e) s
            lateDelivery).isSome) = true := by
    decide +kernel
  obtain ⟨s, hs, hrest⟩ := (Option.any_eq_true ..).mp hrun
  obtain ⟨hcleaned, hlate⟩ := Bool.and_eq_true _ _ ▸ hrest
  obtain ⟨job, hjob, hreceipt⟩ := List.any_eq_true.mp hcleaned
  obtain ⟨s', hs'⟩ := Option.isSome_iff_exists.mp hlate
  have hreceipt : job.cleanupReceipt ≠ none := bne_iff_ne.mp hreceipt
  exact ⟨s, s', job, hjob, hreceipt, cleanup_final 67108864
    (Program.runWhen_reach _ succeedThenClean hs) hjob hreceipt
    (Program.runWhen_reach _ lateDelivery hs')⟩

/-- The job is cleaned when its prior pack is recorded and its model is just written. -/
def cleanThenSucceed : List (Event (Delivery recorded) Answer Move) :=
  [firstSubmission, firstDelivery "task-1"] ++ firstSteps 6 ++ [cleanupFirst [firstPriorPackId]] ++
    firstSteps 3

/-- The job has its receipt, then succeeds: with a prior pack that was cleaned, and with a model that
    the cleanup left in the store. -/
theorem succeeded_cleaned : ∃ s : Config (Store recorded) (Delivery recorded),
    (jobMachine recorded 67108864).Reach Program.Any (initial recorded) s ∧
      ∃ job ∈ s.store.jobs, job.cleanupReceipt ≠ none ∧ job.status = .succeeded ∧
        ∃ o ∈ s.store.objects, o.writtenBy = job.id := by
  have hrun : ((jobMachine recorded 67108864).run (initial recorded) cleanThenSucceed).any (fun s =>
      s.store.jobs.any fun job => job.cleanupReceipt != none && job.status == .succeeded &&
        s.store.objects.any fun o => o.writtenBy == job.id) = true := by
    decide +kernel
  obtain ⟨s, hs, hcleaned⟩ := (Option.any_eq_true ..).mp hrun
  refine ⟨s, Program.run_reach _ cleanThenSucceed hs, ?_⟩
  simpa only [List.any_eq_true, Bool.and_eq_true, beq_iff_eq, bne_iff_ne, and_assoc] using hcleaned

end ControlPlane.Competence
