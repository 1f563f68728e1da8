/-
  REMOTE WORK: when `_run_runpod_offload` returns after a successful submit, is the remote job over,
  or has somebody asked RunPod to cancel it?

  After the submit the runner has six exits.  A terminal remote status, a failed result and a failed
  verification leave nothing running; at its deadline the runner issues the cancel request itself.
  The other two rely on somebody else:

  * a status request that fails ends the row as FAILED, and nobody asks RunPod anything
    (`orphaned_by_api_error`),
  * `persist_status` that finds CANCELED ends the runner on the word of whoever wrote it.  The route
    writes it without calling RunPod, and `cancel_job_task` can only cancel a remote id that was
    saved before it read the row.

  `attended` is the condition that these two exits are not taken from a live remote job for which
  no cancel was requested yet.  Every other step of every process is free, and then no remote job is
  orphaned (`no_orphan`).  The proof is one assertion for each program point of the runner
  (`Tracked`), stable because remote jobs only move towards release (`Grows`).
-/
import ControlPlane.Orchestration.Terminal

namespace ControlPlane.Orchestration

open ControlPlane.Interleave

variable {cfg : Settings} {b b' : Board} {p p' : Proc} {r : Reply}

/-! ## Released remote jobs, attended steps -/

/-- The remote job is in a terminal RunPod status, or a cancel request for it was issued. -/
def released (b : Board) (remote : Nat) : Bool :=
  (b.remotes[remote]?).any fun r => remoteTerminal r.status || r.cancelRequested

/-- The condition on a step: a status request fails, or a poll finds the row CANCELED, only when
    the remote job is over or was asked to stop. -/
def attended (s : Config Board Proc) : Event Proc Reply (Nat × String) → Bool
  | .act i (.error _) =>
      match s.procs[i]? with
      | some (.runpodPoll remote) => released s.store remote
      | _ => true
  | .act i .ok =>
      match s.procs[i]? with
      | some (.runpodObserve remote _) =>
          s.store.job.status != .canceled || released s.store remote
      | _ => true
  | _ => true

/-! ## The remote jobs only move towards release -/

/-- Remote jobs are never forgotten, a terminal one stays terminal, a cancel request stays
    issued. -/
def Grows (b b' : Board) : Prop :=
  ∀ (n : Nat) (rem : Remote), b.remotes[n]? = some rem → ∃ rem', b'.remotes[n]? = some rem' ∧
    (remoteTerminal rem.status = true → remoteTerminal rem'.status = true) ∧
    (rem.cancelRequested = true → rem'.cancelRequested = true)

theorem Grows.of_remotes_eq (h : b'.remotes = b.remotes) : Grows b b' :=
  fun _ rem hrem => ⟨rem, h ▸ hrem, id, id⟩

theorem Grows.submitRemote (b : Board) : Grows b b.submitRemote := by
  intro n rem hrem
  have hn : n < b.remotes.length := (List.getElem?_eq_some_iff.mp hrem).1
  exact ⟨rem, by rw [Board.submitRemote, List.getElem?_append_left hn, hrem], id, id⟩

theorem Grows.requestCancel (b : Board) (remote : Nat) : Grows b (b.requestCancel remote) := by
  intro n rem hrem
  by_cases hn : remote = n
  · subst hn
    exact ⟨{ rem with cancelRequested := true }, by simp [Board.requestCancel, hrem], id, fun _ => rfl⟩
  · exact ⟨rem, by simp [Board.requestCancel, hn, hrem], id, id⟩

theorem Grows.remoteMove {w : Nat × String} (h : remoteMove b w = some b') : Grows b b' := by
  unfold Orchestration.remoteMove at h
  obtain ⟨old, hold, h⟩ := Option.bind_eq_some_iff.mp h
  split at h
  · cases h
  rename_i hlive
  cases h
  intro n rem hrem
  by_cases hn : w.1 = n
  · subst hn
    obtain rfl : old = rem := Option.some.inj (hold.symm.trans hrem)
    have hlt : w.1 < b.remotes.length := (List.getElem?_eq_some_iff.mp hrem).1
    exact ⟨{ old with status := w.2 }, by simp [hlt], fun ht => absurd ht hlive, id⟩
  · exact ⟨rem, by simp [hn, hrem], id, id⟩

theorem Grows.lt (hg : Grows b b') {n : Nat} (hn : n < b.remotes.length) :
    n < b'.remotes.length := by
  obtain ⟨rem', hrem', -⟩ := hg n _ (List.getElem?_eq_getElem hn)
  exact (List.getElem?_eq_some_iff.mp hrem').1

theorem Grows.released (hg : Grows b b') {n : Nat} (h : released b n = true) :
    released b' n = true := by
  obtain ⟨rem, hrem, hor⟩ := Option.any_eq_true _ _ |>.mp h
  obtain ⟨rem', hrem', hterm, hreq⟩ := hg n rem hrem
  refine Option.any_eq_true _ _ |>.mpr ⟨rem', hrem', ?_⟩
  rcases Bool.or_eq_true _ _ ▸ hor with ht | hc
  · simp [hterm ht]
  · simp [hreq hc]

/-- A cancel request for an existing remote job releases it. -/
theorem released_requestCancel {n : Nat} (hn : n < b.remotes.length) :
    released (b.requestCancel n) n = true := by
  simp [released, Board.requestCancel, List.getElem?_eq_getElem hn]

/-! ## One assertion for every program point -/

/-- Whatever the runner has submitted is released. -/
def Settled (b : Board) (submitted : Option Nat) : Prop :=
  ∀ n, submitted = some n → released b n = true

/-- What the runner knows of its remote job: it exists, from its last answer on it is over if that
    answer was terminal, and past the polling loop it is released. -/
def Tracked (b : Board) : Proc → Prop
  | .runpodSave _ n | .runpodPoll n | .runpodWait n => n < b.remotes.length
  | .runpodObserve n status =>
      n < b.remotes.length ∧ (remoteTerminal status = true → released b n = true)
  | .runpodResult n _ => released b n = true
  | .runpodCaught submitted _ | .verified submitted _ | .succeed submitted _ _
  | .failJob submitted _ | .failSave submitted _ _ | .returned submitted => Settled b submitted
  | _ => True

theorem settled_none : Settled b none := fun _ h => nomatch h

theorem settled_some {n : Nat} (h : released b n = true) : Settled b (some n) :=
  fun _ hm => Option.some.inj hm ▸ h

theorem Settled.grow (hg : Grows b b') {submitted : Option Nat} (h : Settled b submitted) :
    Settled b' submitted :=
  fun n hn => hg.released (h n hn)

theorem Tracked.grow (hg : Grows b b') (h : Tracked b p) : Tracked b' p := by
  cases p <;> first
    | exact h
    | exact hg.lt h
    | exact hg.released h
    | exact Settled.grow hg h
    | exact ⟨hg.lt h.1, fun ht => hg.released (h.2 ht)⟩

theorem tracked_start (h : p.starts = true) : Tracked b p := by
  cases p <;> trivial

/-! ## The steps -/

/-- What a step owes: remote jobs are not forgotten, and the next program point is tracked. -/
def StepOk (b b' : Board) (p' : Proc) : Prop := Grows b b' ∧ Tracked b' p'

/-- A step that leaves the remote jobs alone. -/
theorem StepOk.row (hb : b'.remotes = b.remotes) (hp : Tracked b' p') : StepOk b b' p' :=
  ⟨Grows.of_remotes_eq hb, hp⟩

theorem dispatch_tracked (h : dispatchStep cfg b p r = some (b', p')) : StepOk b b' p' := by
  unfold dispatchStep at h
  split at h <;> cases h
  · refine StepOk.row rfl ?_
    split
    · exact settled_none
    · trivial
  · exact StepOk.row rfl settled_none
  · exact StepOk.row rfl trivial
  · refine StepOk.row rfl ?_
    split <;> split <;> trivial
  · exact StepOk.row rfl settled_none
  · refine StepOk.row rfl ?_
    split
    · trivial
    · exact settled_none
    · split <;> trivial
  · refine StepOk.row rfl ?_
    split
    · trivial
    · exact settled_none
    · trivial

/-- `_run_runpod_offload`: the two exits that `attended` speaks of are `hpoll` and `hseen`. -/
theorem runpod_tracked (hp : Tracked b p)
    (hpoll : ∀ n message, p = .runpodPoll n → r = .error message → released b n = true)
    (hseen : ∀ n status, p = .runpodObserve n status → r = .ok → b.job.status = .canceled →
      released b n = true)
    (h : runpodStep cfg b p r = some (b', p')) : StepOk b b' p' := by
  unfold runpodStep at h
  split at h
  · -- the first read of the row
    cases h
    refine StepOk.row rfl ?_
    split
    · exact settled_none
    · trivial
  · -- refused before anything is submitted
    cases h
    exact StepOk.row rfl settled_none
  · -- the submit
    split at h <;> cases h
    · exact StepOk.row rfl settled_none
    · exact ⟨Grows.submitRemote b, by simp [Tracked, Board.submitRemote]⟩
  · -- the save of the remote id
    cases h
    exact StepOk.row rfl hp
  · -- a failed status request
    rename_i n message
    cases h
    exact StepOk.row rfl (settled_some (hpoll n message rfl rfl))
  · -- a status reply
    rename_i n
    obtain ⟨rem, hrem, hx⟩ := Option.map_eq_some_iff.mp h
    cases hx
    exact StepOk.row rfl ⟨hp, fun ht => by simp [released, hrem, ht]⟩
  · -- `persist_status`, then the tests of `wait`
    rename_i n status
    cases h
    refine StepOk.row rfl ?_
    split
    · rename_i hc
      exact settled_some (hseen n status rfl rfl hc)
    · split
      · rename_i ht
        exact hp.2 ht
      · exact hp.1
  · -- another round
    cases h
    exact StepOk.row rfl hp
  · -- the deadline cancels the remote job
    rename_i n
    cases h
    exact ⟨Grows.requestCancel b n, settled_some (released_requestCancel hp)⟩
  · -- the `except` clause
    cases h
    refine StepOk.row rfl ?_
    split <;> exact hp
  · -- a remote job that ended otherwise than COMPLETED
    split at h <;> cases h
    exact StepOk.row rfl (settled_some hp)
  · cases h
    exact StepOk.row rfl (settled_some hp)
  · split at h <;> cases h
    exact StepOk.row rfl (settled_some hp)
  · cases h

theorem finish_tracked (hp : Tracked b p) (h : finishStep cfg b p r = some (b', p')) :
    StepOk b b' p' := by
  unfold finishStep at h
  split at h <;> cases h
  · refine StepOk.row rfl ?_
    split <;> exact settled_none
  · refine StepOk.row rfl ?_
    split
    · exact settled_none
    · trivial
  · exact StepOk.row rfl settled_none
  · exact StepOk.row rfl settled_none
  · refine StepOk.row rfl ?_
    split
    · exact settled_none
    · trivial
  · exact StepOk.row rfl settled_none
  · exact StepOk.row rfl settled_none
  · -- the last refresh before success
    refine StepOk.row rfl ?_
    split <;> exact hp
  · exact StepOk.row rfl hp
  · refine StepOk.row rfl ?_
    split <;> exact hp
  · exact StepOk.row rfl hp

theorem cancel_tracked (h : cancelStep cfg b p r = some (b', p')) : StepOk b b' p' := by
  unfold cancelStep at h
  split at h
  · cases h
    refine StepOk.row rfl ?_
    split
    · exact settled_none
    · trivial
  · cases h
    exact StepOk.row rfl settled_none
  · cases h
    exact StepOk.row rfl trivial
  · -- `cancel_job_task` asks RunPod when its copy of the row has a remote id
    obtain ⟨rfl, rfl⟩ := Prod.mk.inj (Option.some.inj h)
    refine ⟨?_, trivial⟩
    split
    · split
      · exact Grows.requestCancel b _
      · exact Grows.of_remotes_eq rfl
    · exact Grows.of_remotes_eq rfl
  · cases h
    exact StepOk.row rfl settled_none
  · cases h
    exact StepOk.row rfl trivial
  · cases h
    exact StepOk.row rfl trivial
  · cases h
    exact StepOk.row rfl settled_none
  · cases h

/-- The outline of `no_orphan`: nothing is asked of the row itself. -/
def trackedOutline (cfg : Settings) :
    Outline (program cfg) (fun s e => attended s e = true) where
  inv _ := True
  asserts := Tracked
  grows := Grows
  stable := Tracked.grow
  start _ := tracked_start
  act := by
    intro s i c p d' p' _ hp hC hget hact
    refine ⟨trivial, ?_⟩
    rcases act_cases hact with ⟨-, rfl, rfl⟩ | h | h | h | h
    · exact StepOk.row rfl trivial
    · exact dispatch_tracked h
    · refine runpod_tracked hp ?_ ?_ h
      · rintro n message rfl rfl
        simpa [attended, hget] using hC
      · rintro n status rfl rfl hcanceled
        simpa [attended, hget, hcanceled] using hC
    · exact finish_tracked hp h
    · exact cancel_tracked h
  env _ _ henv := ⟨trivial, Grows.remoteMove henv⟩

/-- Dispatch, submit, save of the remote id. -/
def submission : List (Event Proc Reply (Nat × String)) :=
  [.spawn (.dispatch ""), .act 0 .ok, .act 0 .ok, .act 0 .ok, .act 0 .ok, .act 0 .ok, .act 0 .ok,
    .act 0 .ok]

/-- `cancel_job_task` reads the saved id and calls RunPod before the next poll. -/
def cancelled : List (Event Proc Reply (Nat × String)) :=
  submission ++ [.spawn .cancelTask, .act 1 .ok, .act 1 .ok, .act 1 .ok, .act 0 .ok, .act 0 .ok,
    .act 0 .ok]

/-- The first status request fails. -/
def apiError : List (Event Proc Reply (Nat × String)) :=
  submission ++ [.act 0 (.error "RunPod GET failed"), .act 0 .ok, .act 0 .ok, .act 0 .ok]

end ControlPlane.Orchestration
