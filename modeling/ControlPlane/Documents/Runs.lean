/-
  DOCUMENT RUNS AND THEIR JOBS: who writes the status of an `ExtractionRun` and of its `Job`.

  `schedule` re-queues a failed Job, a delivery of `admit_document` or `escalate_claims` claims a
  queued one and executes the run, and `cancel_offload_job` with `cancel_job_task` cancels.  The claim
  is a compare-and-set, but what a delivery writes at the end is not, and neither is what a cancel
  writes.  So a Job that was CANCELED becomes SUCCEEDED, and a run SUCCEEDED stays behind a CANCELED
  Job (`canceled_then_succeeded`).

  `current` is what is missing: a last update finds the Job RUNNING, and a cancel does not find it
  SUCCEEDED.  In every run whose steps are current the two rows stay consistent
  (`statuses_consistent`), by the rule `Solo`: from its claim to its last update of the Job, a delivery
  is alone at work.
-/
import ControlPlane.Solo

namespace ControlPlane.Documents

open ControlPlane.Interleave

/-! ## Rows -/

/-- `STAGES`. -/
inductive Stage where
  | admission | lift | deduplicate | score | connect | challenge | validate | distill
  deriving DecidableEq, Repr

def stages : List Stage :=
  [.admission, .lift, .deduplicate, .score, .connect, .challenge, .validate, .distill]

/-- `Job.Status`. -/
inductive JobStatus where
  | queued | running | succeeded | failed | canceled
  deriving DecidableEq, Repr

/-- The `status` of an `ExtractionRun`: `stage.lower()` while a stage is executed. -/
inductive RunStatus where
  | queued | stage (s : Stage) | decomposing | succeeded | failed
  deriving DecidableEq, Repr

/-- `ExtractionRun.Kind`. -/
inductive Kind where
  | admission | claimEscalation
  deriving DecidableEq, Repr

/-- The Job and the run; `history` counts `stage_history`.  `locked` tells that a `schedule` which saw
    the Job failed holds the lock of the tenant, `delayed` that `cancel_job_task` was delayed.

    No code reads the rest: `claims` counts the deliveries that claimed since the last re-queue,
    `canceledLive` tells that the Job was CANCELED while it was queued or running, and `overwritten`
    that a delivery wrote SUCCEEDED or FAILED after that. -/
structure Rows where
  job : JobStatus := .queued
  run : RunStatus := .queued
  history : Nat := 0
  locked : Bool := false
  delayed : Bool := false
  claims : Nat := 0
  canceledLive : Bool := false
  overwritten : Bool := false
  deriving DecidableEq, Repr

namespace Rows

/-- The claim: `filter(status='queued').update(status='running')`. -/
def claim (b : Rows) : Rows := { b with job := .running, claims := b.claims + 1 }

/-- `update(status=…)` at the end of a delivery. -/
def update (b : Rows) (status : JobStatus) : Rows :=
  { b with job := status, overwritten := b.overwritten || b.canceledLive }

/-- `status = CANCELED`, saved. -/
def cancel (b : Rows) : Rows :=
  { b with
    job := .canceled
    canceledLive := b.canceledLive || decide (b.job = .queued) || decide (b.job = .running) }

/-- The two saves of `schedule`, as they are committed. -/
def requeue (b : Rows) : Rows :=
  { b with job := .queued, run := .queued, locked := false, claims := 0 }

end Rows

/-! ## Processes -/

/-- A call of a task or of a route, at its next step. -/
inductive Proc where
  /-- `execute` or `escalate_claims`, before the run is read. -/
  | deliver
  /-- With a `stage_history` of this length, before the claim. -/
  | claim (history : Nat)
  /-- Before the status of the next stage is saved. -/
  | enter (history : Nat)
  /-- In the stage, and before its checkpoint. -/
  | inside (history : Nat)
  /-- In `BatchDecomposer`, `ClaimVerifier` and `_distill`. -/
  | batch
  /-- Before the last transaction. -/
  | finish
  /-- The three writes of the handler. -/
  | failRun | failJob | failArtifact
  /-- `schedule`, before the Job is read, and with the lock before the commit. -/
  | schedule | requeue
  /-- `cancel_offload_job`: before its read, before the delay and before the save. -/
  | cancelRoute | cancelDelay | cancelSave
  /-- `cancel_job_task`: before its read, and before its save. -/
  | cancelTask | cancelTaskSave
  | returned
  deriving DecidableEq, Repr

/-- What a step meets: it goes through, raises, or the worker dies. -/
inductive Reply where
  | ok | error | crash
  deriving DecidableEq, Repr

/-- Where a delivery that has claimed starts. -/
def first : Kind → Nat → Proc
  | .admission, history => .enter history
  | .claimEscalation, _ => .batch

/-- A delivery that is executing goes on, raises into the handler, or dies. -/
def guarded (b b' : Rows) (next : Proc) : Reply → Rows × Proc
  | .ok => (b', next)
  | .error => (b, .failRun)
  | .crash => (b, .returned)

/-- Outside the `try`, an exception ends the call, as a death does. -/
def plain (b b' : Rows) (next : Proc) : Reply → Rows × Proc
  | .ok => (b', next)
  | _ => (b, .returned)

/-- One step of a call. -/
def act (kind : Kind) (b : Rows) (p : Proc) (r : Reply) : Option (Rows × Proc) :=
  match p with
  | .deliver => some (plain b b (.claim b.history) r)
  | .claim history =>
      if b.job = .queued then some (plain b b.claim (first kind history) r)
      else some (b, .returned)
  | .enter history =>
      match stages[history]? with
      | some stage => some (guarded b { b with run := .stage stage } (.inside history) r)
      | none => some (b, .finish)
  | .inside history =>
      some (guarded b { b with history := history + 1 } (.enter (history + 1)) r)
  | .batch => some (guarded b { b with run := .decomposing } .finish r)
  | .finish => some (guarded b ({ b with run := .succeeded }.update .succeeded) .returned r)
  | .failRun => some (plain b { b with run := .failed } .failJob r)
  | .failJob => some (plain b (b.update .failed) .failArtifact r)
  | .failArtifact => some (b, .returned)
  | .schedule =>
      if b.locked then none
      else if b.job = .failed then some (plain b { b with locked := true } .requeue r)
      else some (b, .returned)
  | .requeue =>
      if b.locked then some (plain { b with locked := false } b.requeue .returned r) else none
  | .cancelRoute =>
      if b.job = .succeeded ∨ b.job = .failed ∨ b.job = .canceled then some (b, .returned)
      else some (plain b b .cancelDelay r)
  | .cancelDelay => some (plain b { b with delayed := true } .cancelSave r)
  | .cancelSave => some (plain b b.cancel .returned r)
  | .cancelTask => if b.delayed then some (plain b b .cancelTaskSave r) else none
  | .cancelTaskSave => some (plain b b.cancel .returned r)
  | .returned => none

/-- What is called from outside, at any time and any number of times; `sweep_document_jobs` does
    nothing but calling `deliver`. -/
def Proc.starts : Proc → Bool
  | .deliver | .schedule | .cancelRoute | .cancelTask => true
  | _ => false

def documents (kind : Kind) : Program Rows Proc Reply Empty where
  start := Proc.starts
  act := act kind
  env _ w := w.elim

/-- Right after `schedule` has created the two rows. -/
def created : Config Rows Proc := ⟨{}, []⟩

/-! ## Consistency -/

/-- Between the claim and the last update of the Job. -/
def Proc.working : Proc → Bool
  | .enter _ | .inside _ | .batch | .finish | .failRun | .failJob => true
  | _ => false

/-- One delivery at a time and one between two re-queues, no CANCELED taken back by a delivery, and
    with nobody at work the run has succeeded if and only if its Job has. -/
structure Consistent (s : Config Rows Proc) : Prop where
  alone : ∃ o, AtWork Proc.working s.procs o
  once : s.store.claims ≤ 1
  kept : s.store.overwritten = false
  agree : (∀ p ∈ s.procs, p.working = false) → (s.store.run = .succeeded ↔ s.store.job = .succeeded)

/-- A last update finds the Job running, and a cancel does not find it SUCCEEDED. -/
def Proc.current (b : Rows) : Proc → Bool
  | .finish | .failJob => b.job == .running
  | .cancelSave | .cancelTaskSave => b.job != .succeeded
  | _ => true

/-- The step is current. -/
def current (s : Config Rows Proc) : Event Proc Reply Empty → Bool
  | .act i .ok => (s.procs[i]?).all (Proc.current s.store)
  | _ => true

/-! ## One step -/

variable {kind : Kind} {b b' : Rows} {p p' : Proc} {r : Reply}

/-- What holds of the rows, whoever is at work. -/
structure Sound (b : Rows) : Prop where
  once : b.claims ≤ 1
  kept : b.overwritten = false
  live : b.canceledLive = true → b.job = .canceled
  lock : b.locked = true → b.job = .failed ∨ b.job = .canceled ∧ b.canceledLive = false

/-- The delivery at work has claimed, and only a cancel can have come in between. -/
structure Working (b : Rows) : Prop where
  job : b.job = .running ∨ b.job = .canceled ∧ b.canceledLive = true
  run : b.run ≠ .succeeded

/-- Nobody is at work. -/
structure Idle (b : Rows) : Prop where
  fresh : b.job = .queued → b.claims = 0
  agree : b.run = .succeeded ↔ b.job = .succeeded

/-- The invariant of the rows and the delivery at work. -/
def Invariant (b : Rows) (o : Option Proc) : Prop :=
  Sound b ∧ match o with
    | some _ => Working b
    | none => Idle b

/-- The delivery at work has seen to it that the Job is neither queued nor SUCCEEDED. -/
theorem Working.taken (h : Working b) : b.job ≠ .queued ∧ b.job ≠ .succeeded := by
  rcases h.job with hrunning | ⟨hcanceled, -⟩
  · rw [hrunning]
    decide
  · rw [hcanceled]
    decide

/-- Columns that nobody reads here may change. -/
theorem Invariant.frame {o : Option Proc} (h : Invariant b o) (hsound : Sound b')
    (hjob : b'.job = b.job) (hrun : b'.run = b.run) (hclaims : b'.claims = b.claims)
    (hlive : b'.canceledLive = b.canceledLive) : Invariant b' o := by
  refine ⟨hsound, ?_⟩
  cases o with
  | some q =>
    have hwork : Working b := h.2
    refine (⟨?_, ?_⟩ : Working b')
    · rw [hjob, hlive]
      exact hwork.job
    · rw [hrun]
      exact hwork.run
  | none =>
    have hidle : Idle b := h.2
    refine (⟨?_, ?_⟩ : Idle b')
    · rw [hjob, hclaims]
      exact hidle.fresh
    · rw [hjob, hrun]
      exact hidle.agree

/-- A delivery that stops before its last update leaves nobody at work. -/
theorem Working.idle (h : Working b) : Idle b :=
  ⟨fun hjob => absurd hjob h.taken.1, iff_of_false h.run h.taken.2⟩

theorem Sound.not_live (h : Sound b) (hjob : b.job ≠ .canceled) : b.canceledLive = false := by
  cases hlive : b.canceledLive with
  | false => rfl
  | true => exact absurd (h.live hlive) hjob

theorem Sound.not_locked (h : Sound b) (hfailed : b.job ≠ .failed) (hcanceled : b.job ≠ .canceled) :
    b.locked = false := by
  cases hlock : b.locked with
  | false => rfl
  | true =>
    rcases h.lock hlock with hjob | ⟨hjob, -⟩
    · exact absurd hjob hfailed
    · exact absurd hjob hcanceled

/-- The lock is held by a `schedule` that saw the Job failed. -/
theorem Sound.lock_not_live (h : Sound b) (hlock : b.locked = true) : b.canceledLive = false := by
  rcases h.lock hlock with hfailed | ⟨-, hlive⟩
  · exact h.not_live (by rw [hfailed]; decide)
  · exact hlive

/-- The claim of a queued Job. -/
theorem Invariant.claim {o : Option Proc} (h : Invariant b o) (hjob : b.job = .queued) :
    o = none ∧ Sound b.claim ∧ Working b.claim := by
  obtain ⟨hsound, hrest⟩ := h
  cases o with
  | some q => exact absurd hjob (Working.taken hrest).1
  | none =>
    have hidle : Idle b := hrest
    have hrun : b.run ≠ .succeeded := fun hrun => by
      have hsucceeded := hidle.agree.mp hrun
      rw [hjob] at hsucceeded
      cases hsucceeded
    have hlive := hsound.not_live (by rw [hjob]; decide)
    have hlock := hsound.not_locked (by rw [hjob]; decide) (by rw [hjob]; decide)
    refine ⟨rfl, ⟨?_, hsound.kept, fun h => ?_, fun h => ?_⟩, Or.inl rfl, hrun⟩
    · exact Nat.le_of_eq (congrArg (· + 1) (hidle.fresh hjob))
    · exact absurd (hlive.symm.trans h) Bool.false_ne_true
    · exact absurd (hlock.symm.trans h) Bool.false_ne_true

/-- A last update of a running Job. -/
theorem Sound.update {status : JobStatus} (h : Sound b) (hjob : b.job = .running) :
    Sound (b.update status) := by
  have hlive := h.not_live (by rw [hjob]; decide)
  have hlock := h.not_locked (by rw [hjob]; decide) (by rw [hjob]; decide)
  refine ⟨h.once, ?_, fun h => ?_, fun h => ?_⟩
  · rw [Rows.update, h.kept, hlive]
    rfl
  · exact absurd (hlive.symm.trans h) Bool.false_ne_true
  · exact absurd (hlock.symm.trans h) Bool.false_ne_true

/-- A cancel that does not find the Job SUCCEEDED. -/
theorem Invariant.cancel {o : Option Proc} (h : Invariant b o) (hjob : b.job ≠ .succeeded) :
    Invariant b.cancel o := by
  obtain ⟨hsound, hrest⟩ := h
  have hlock : b.locked = true → b.cancel.canceledLive = false := by
    intro hlock
    have hlive := hsound.lock_not_live hlock
    rcases hsound.lock hlock with hfailed | ⟨hcanceled, -⟩
    · simp [Rows.cancel, hfailed, hlive]
    · simp [Rows.cancel, hcanceled, hlive]
  refine ⟨⟨hsound.once, hsound.kept, fun _ => rfl, fun h => Or.inr ⟨rfl, hlock h⟩⟩, ?_⟩
  cases o with
  | some q =>
    have hwork : Working b := hrest
    refine (⟨Or.inr ⟨rfl, ?_⟩, hwork.run⟩ : Working b.cancel)
    rcases hwork.job with hrunning | ⟨-, hlive⟩
    · simp [Rows.cancel, hrunning]
    · simp [Rows.cancel, hlive]
  | none =>
    have hidle : Idle b := hrest
    refine (⟨fun hqueued => (by cases hqueued), iff_of_false (fun hrun => ?_) ?_⟩ : Idle b.cancel)
    · exact hjob (hidle.agree.mp hrun)
    · simp [Rows.cancel]

/-- The commit of a re-queue under the lock. -/
theorem Invariant.requeue {o : Option Proc} (h : Invariant b o) (hlock : b.locked = true) :
    o = none ∧ Invariant b.requeue none := by
  obtain ⟨hsound, hrest⟩ := h
  have hlive := hsound.lock_not_live hlock
  constructor
  · cases o with
    | none => rfl
    | some q =>
      have hwork : Working b := hrest
      rcases hwork.job with hrunning | ⟨-, hlive'⟩
      · have hfree := hsound.not_locked (by rw [hrunning]; decide) (by rw [hrunning]; decide)
        exact absurd (hfree.symm.trans hlock) Bool.false_ne_true
      · exact absurd (hlive.symm.trans hlive') Bool.false_ne_true
  · refine ⟨⟨Nat.zero_le _, hsound.kept, fun h => ?_, fun h => (by cases h)⟩,
      (⟨fun _ => rfl, ?_⟩ : Idle b.requeue)⟩
    · exact absurd (hlive.symm.trans h) Bool.false_ne_true
    · exact iff_of_false (by simp [Rows.requeue]) (by simp [Rows.requeue])

/-- The delivery at work takes a step. -/
theorem work_step (h : Invariant b (some p)) (hp : p.working = true)
    (hcurrent : r = .ok → p.current b = true) (hact : act kind b p r = some (b', p')) :
    Invariant b' (if p'.working = true then some p' else none) := by
  obtain ⟨hsound, hwork⟩ := h
  have hwork : Working b := hwork
  cases p with
  | enter history =>
    simp only [act] at hact
    split at hact
    · rename_i stage hstage
      cases r <;> cases hact
      · exact ⟨⟨hsound.once, hsound.kept, hsound.live, hsound.lock⟩, hwork.job, fun h => (by cases h)⟩
      · exact ⟨hsound, hwork⟩
      · exact ⟨hsound, hwork.idle⟩
    · cases hact
      exact ⟨hsound, hwork⟩
  | inside history =>
    cases r <;> cases hact
    · exact ⟨⟨hsound.once, hsound.kept, hsound.live, hsound.lock⟩, hwork.job, hwork.run⟩
    · exact ⟨hsound, hwork⟩
    · exact ⟨hsound, hwork.idle⟩
  | batch =>
    cases r <;> cases hact
    · exact ⟨⟨hsound.once, hsound.kept, hsound.live, hsound.lock⟩, hwork.job, fun h => (by cases h)⟩
    · exact ⟨hsound, hwork⟩
    · exact ⟨hsound, hwork.idle⟩
  | finish =>
    cases r <;> cases hact
    · have hjob : b.job = .running := beq_iff_eq.mp (hcurrent rfl)
      have hsound' : Sound { b with run := .succeeded } :=
        ⟨hsound.once, hsound.kept, hsound.live, hsound.lock⟩
      exact ⟨hsound'.update hjob, fun h => (by cases h), iff_of_true rfl rfl⟩
    · exact ⟨hsound, hwork⟩
    · exact ⟨hsound, hwork.idle⟩
  | failRun =>
    cases r <;> cases hact
    · exact ⟨⟨hsound.once, hsound.kept, hsound.live, hsound.lock⟩, hwork.job, fun h => (by cases h)⟩
    · exact ⟨hsound, hwork.idle⟩
    · exact ⟨hsound, hwork.idle⟩
  | failJob =>
    cases r <;> cases hact
    · have hjob : b.job = .running := beq_iff_eq.mp (hcurrent rfl)
      exact ⟨hsound.update hjob, fun h => (by cases h), iff_of_false hwork.run fun h => (by cases h)⟩
    · exact ⟨hsound, hwork.idle⟩
    · exact ⟨hsound, hwork.idle⟩
  | _ => cases hp

/-- Another call takes a step, and either stays beside whoever is at work or takes the work up. -/
theorem aside_step {o : Option Proc} (h : Invariant b o) (hp : p.working = false)
    (hcurrent : r = .ok → p.current b = true) (hact : act kind b p r = some (b', p')) :
    (p'.working = false → Invariant b' o) ∧ (p'.working = true → o = none ∧ Invariant b' (some p')) := by
  cases p with
  | claim history =>
    simp only [act] at hact
    split at hact
    · rename_i hjob
      obtain ⟨ho, hsound, hwork⟩ := h.claim hjob
      cases r <;> cases hact
      · refine ⟨fun hidle => ?_, fun _ => ⟨ho, hsound, hwork⟩⟩
        cases kind <;> cases hidle
      · exact ⟨fun _ => h, fun h => (by cases h)⟩
      · exact ⟨fun _ => h, fun h => (by cases h)⟩
    · cases hact
      exact ⟨fun _ => h, fun h => (by cases h)⟩
  | schedule =>
    simp only [act] at hact
    split at hact
    · cases hact
    split at hact
    · rename_i hfree hjob
      cases r <;> cases hact
      · have hsound : Sound { b with locked := true } :=
          ⟨h.1.once, h.1.kept, h.1.live, fun _ => Or.inl hjob⟩
        exact ⟨fun _ => h.frame hsound rfl rfl rfl rfl, fun h => (by cases h)⟩
      · exact ⟨fun _ => h, fun h => (by cases h)⟩
      · exact ⟨fun _ => h, fun h => (by cases h)⟩
    · cases hact
      exact ⟨fun _ => h, fun h => (by cases h)⟩
  | requeue =>
    simp only [act] at hact
    split at hact
    · rename_i hlock
      have hsound : Sound { b with locked := false } :=
        ⟨h.1.once, h.1.kept, h.1.live, fun hlocked => (by cases hlocked)⟩
      have hfree := h.frame hsound rfl rfl rfl rfl
      cases r <;> cases hact
      · obtain ⟨rfl, hrequeued⟩ := h.requeue hlock
        exact ⟨fun _ => hrequeued, fun h => (by cases h)⟩
      · exact ⟨fun _ => hfree, fun h => (by cases h)⟩
      · exact ⟨fun _ => hfree, fun h => (by cases h)⟩
    · cases hact
  | cancelSave =>
    cases r <;> cases hact
    · exact ⟨fun _ => h.cancel (bne_iff_ne.mp (hcurrent rfl)), fun h => (by cases h)⟩
    · exact ⟨fun _ => h, fun h => (by cases h)⟩
    · exact ⟨fun _ => h, fun h => (by cases h)⟩
  | cancelTaskSave =>
    cases r <;> cases hact
    · exact ⟨fun _ => h.cancel (bne_iff_ne.mp (hcurrent rfl)), fun h => (by cases h)⟩
    · exact ⟨fun _ => h, fun h => (by cases h)⟩
    · exact ⟨fun _ => h, fun h => (by cases h)⟩
  | cancelRoute =>
    simp only [act] at hact
    split at hact
    · cases hact
      exact ⟨fun _ => h, fun h => (by cases h)⟩
    · cases r <;> cases hact <;> exact ⟨fun _ => h, fun h => (by cases h)⟩
  | cancelDelay =>
    cases r <;> cases hact
    · have hsound : Sound { b with delayed := true } := ⟨h.1.once, h.1.kept, h.1.live, h.1.lock⟩
      exact ⟨fun _ => h.frame hsound rfl rfl rfl rfl, fun h => (by cases h)⟩
    · exact ⟨fun _ => h, fun h => (by cases h)⟩
    · exact ⟨fun _ => h, fun h => (by cases h)⟩
  | cancelTask =>
    simp only [act] at hact
    split at hact
    · cases r <;> cases hact <;> exact ⟨fun _ => h, fun h => (by cases h)⟩
    · cases hact
  | deliver => cases r <;> cases hact <;> exact ⟨fun _ => h, fun h => (by cases h)⟩
  | failArtifact =>
    cases hact
    exact ⟨fun _ => h, fun h => (by cases h)⟩
  | returned => cases hact
  | _ => cases hp

/-! ## Every run -/

/-- The rule `Solo` for runs whose steps are current. -/
def statuses (kind : Kind) : Solo (documents kind) fun s e => current s e = true where
  working := Proc.working
  inv := Invariant
  start := by
    intro p hp
    cases p <;> first | rfl | cases hp
  work := by
    intro s i r p b' p' hwork hinv hC hi hact
    refine work_step hinv hwork.works (fun hr => ?_) hact
    subst hr
    simpa only [current, hi, Option.all_some] using hC
  enter := by
    intro s i r p b' p' o hwork hinv hC hi hp hp' hact
    refine (aside_step hinv hp (fun hr => ?_) hact).2 hp'
    subst hr
    simpa only [current, hi, Option.all_some] using hC
  aside := by
    intro s i r p b' p' o hwork hinv hC hi hp hp' hact
    refine (aside_step hinv hp (fun hr => ?_) hact).1 hp'
    subst hr
    simpa only [current, hi, Option.all_some] using hC
  env := by
    intro b w b' o hinv henv
    cases w

/-- The two rows as they are created are idle. -/
theorem created_holds (kind : Kind) : (statuses kind).Holds created :=
  ⟨none, rfl, ⟨Nat.zero_le _, rfl, fun h => (by cases h), fun h => (by cases h)⟩, fun _ => rfl,
    iff_of_false (fun h => (by cases h)) fun h => (by cases h)⟩

/-- **STATUSES STAY CONSISTENT** in every run whose steps are current: any number of deliveries,
    re-queues and cancels, with failures and deaths at every step. -/
theorem statuses_consistent {kind : Kind} {s : Config Rows Proc}
    (h : (documents kind).Reach (fun s e => current s e = true) created s) : Consistent s := by
  obtain ⟨o, hwork, hsound, hrest⟩ := (statuses kind).reach h (created_holds kind)
  refine ⟨⟨o, hwork⟩, hsound.once, hsound.kept, fun hidle => ?_⟩
  cases o with
  | some p =>
    have hbusy : p.working = true := hwork.works
    rw [hidle p hwork.mem] at hbusy
    cases hbusy
  | none => exact Idle.agree hrest

/-- A delivery is claimed and succeeds, and a second one finds nothing to do. -/
theorem statuses_consistent_twice :
    Consistent ⟨{ job := .succeeded, run := .succeeded, claims := 1 }, [.returned, .returned]⟩ :=
  @statuses_consistent .claimEscalation _ (Program.runWhen_reach _
    [.spawn .deliver, .spawn .deliver, .act 0 .ok, .act 1 .ok, .act 0 .ok, .act 1 .ok, .act 0 .ok,
      .act 0 .ok] rfl)

/-- A CANCELED Job becomes SUCCEEDED, and CANCELED again behind a run that SUCCEEDED. -/
theorem canceled_then_succeeded : ∃ s s', (documents .claimEscalation).run created
    [.spawn .deliver, .act 0 .ok, .act 0 .ok, .spawn .cancelRoute, .act 1 .ok, .act 1 .ok, .act 1 .ok,
      .act 0 .ok, .act 0 .ok] = some s ∧
      s.store.job = .succeeded ∧ s.store.overwritten = true ∧
    (documents .claimEscalation).run s [.spawn .cancelTask, .act 2 .ok, .act 2 .ok] = some s' ∧
      s'.store.job = .canceled ∧ s'.store.run = .succeeded ∧
      ∀ p ∈ s'.procs, p.working = false :=
  ⟨_, _, rfl, rfl, rfl, rfl, rfl, rfl, by decide⟩

end ControlPlane.Documents
