/-
  RECONCILIATION folds the statuses of the shards into the status of the job.  A step is `Disciplined`
  when

  * the fold does not end a job that has no shards yet and whose planning has not failed,
  * the fold says FAILED only when a shard in its view has failed,
  * the job goes from FAILED to RUNNING only by the operator's re-run.

  The fold of an EMPTY view is FAILED, and the sweep reconciles QUEUED jobs whose planner is still
  at work; when the planner then adopts its plan, the job goes from FAILED to RUNNING
  (`empty_fold_fails`).  `foldsFully` is the exact condition: in every run a step is disciplined
  when and only when it meets it (`disciplined_iff`).
-/
import ControlPlane.Extraction.Copies

namespace ControlPlane.Extraction

open ControlPlane.Interleave

variable {cfg : Settings} {l : Ledger} {p p' : Proc} {r : Reply} {w : Write}

/-! ## The condition and the property -/

def Shard.pending (s : Shard) : Bool := s.status == .queued || s.status == .running

/-- A reconciler saves the fold of a view that is not empty, and not over FAILED when a shard in its
    view is QUEUED or RUNNING; a plan is not adopted by a FAILED job. -/
def foldsFullyWrite (l : Ledger) : Proc → Write → Bool
  | .fold done _, .saveJob .. =>
      !done.isEmpty && !(l.job.status == .failed && done.any Shard.pending)
  | _, .adopt _ => l.job.status != .failed
  | _, _ => true

def foldsFully (cfg : Settings) (c : Config Ledger Proc)
    (e : Event Proc Reply (Nat × Orchestration.Job)) : Bool :=
  (writing cfg c e).all fun pw => foldsFullyWrite c.store pw.1 pw.2

/-- The shards that the second loop of `reconcile_extraction` has synced. -/
def Proc.view : Proc → Option (List Shard)
  | .fold done _ => some done
  | _ => none

/-- The view whose fold the step saves, when it is the last save of `reconcile_extraction`. -/
def foldView (cfg : Settings) (c : Config Ledger Proc)
    (e : Event Proc Reply (Nat × Orchestration.Job)) : Option (List Shard) :=
  match writing cfg c e with
  | some (p, .saveJob ..) => p.view
  | _ => none

/-- The step is the operator's re-run of the failed shards. -/
def reruns (cfg : Settings) (c : Config Ledger Proc)
    (e : Event Proc Reply (Nat × Orchestration.Job)) : Bool :=
  (writing cfg c e).any fun pw => pw.2 == .requeueFailed

structure Disciplined (cfg : Settings) (c : Config Ledger Proc)
    (e : Event Proc Reply (Nat × Orchestration.Job)) (c' : Config Ledger Proc) : Prop where
  planning : ∀ view, foldView cfg c e = some view → c.store.shards = [] →
    c.store.job.status ≠ .failed → c'.store.job.status.terminal = false
  failed : ∀ view, foldView cfg c e = some view → c'.store.job.status = .failed →
    ∃ s ∈ view, s.status = .failed ∧ ∃ t ∈ c.store.shards, t.index = s.index
  restart : c.store.job.status = .failed → c'.store.job.status = .running →
    reruns cfg c e = true

/-! ## The fold -/

theorem foldStatus_nil : foldStatus [] = .failed := rfl

/-- A view with a pending shard folds to RUNNING. -/
theorem foldStatus_running {view : List Shard} (h : view.any Shard.pending = true) :
    foldStatus view = .running := by
  obtain ⟨s, hs, hpending⟩ := List.any_eq_true.mp h
  have hstatus : s.status = .queued ∨ s.status = .running := by
    simpa [Shard.pending] using hpending
  have hmem : s.status ∈ view.map Shard.status := List.mem_map_of_mem hs
  unfold foldStatus
  simp only
  rw [if_neg, if_pos]
  · rcases hstatus with hq | hr
    · exact Or.inr (hq ▸ hmem)
    · exact Or.inl (hr ▸ hmem)
  · rintro ⟨-, hall⟩
    have hsucceeded := hall s.status hmem
    rcases hstatus with hq | hr
    · rw [hq] at hsucceeded
      cases hsucceeded
    · rw [hr] at hsucceeded
      cases hsucceeded

/-- RUNNING is folded from a view with a pending shard only. -/
theorem pending_of_foldStatus {view : List Shard} (h : foldStatus view = .running) :
    view.any Shard.pending = true := by
  unfold foldStatus at h
  simp only at h
  split at h
  · cases h
  split at h
  · rename_i hor
    rcases hor with hmem | hmem
    · obtain ⟨s, hs, hstatus⟩ := List.mem_map.mp hmem
      exact List.any_eq_true.mpr ⟨s, hs, by simp [Shard.pending, hstatus]⟩
    · obtain ⟨s, hs, hstatus⟩ := List.mem_map.mp hmem
      exact List.any_eq_true.mpr ⟨s, hs, by simp [Shard.pending, hstatus]⟩
  split at h
  · cases h
  split at h <;> cases h

/-- **FAILED is folded from a failed shard**, when the view is not empty and no shard in it is
    superseded: every other mix of statuses is caught by an earlier branch. -/
theorem failed_of_foldStatus {view : List Shard} (hne : view ≠ [])
    (hactive : ∀ s ∈ view, s.status ≠ .superseded) (h : foldStatus view = .failed) :
    ∃ s ∈ view, s.status = .failed := by
  by_contra hnone
  push Not at hnone
  unfold foldStatus at h
  simp only at h
  split at h
  · cases h
  split at h
  · cases h
  rename_i hpending
  split at h
  · cases h
  rename_i hcanceled
  split at h
  · cases h
  rename_i hsucceeded
  refine hcanceled ⟨by simpa using hne, fun t ht => ?_⟩
  obtain ⟨s, hs, rfl⟩ := List.mem_map.mp ht
  cases hstatus : s.status with
  | canceled => rfl
  | queued => exact absurd (Or.inr (hstatus ▸ ht)) hpending
  | running => exact absurd (Or.inl (hstatus ▸ ht)) hpending
  | succeeded => exact absurd (hstatus ▸ ht) hsucceeded
  | failed => exact absurd hstatus (hnone s hs)
  | superseded => exact absurd hstatus (hactive s hs)

/-! ## Every step of every run -/

/-- The status of the job is folded at one program point only. -/
theorem next_saveJob {status : JobStatus} {shardCount rows : Nat}
    (h : next cfg l p r = some (.saveJob status shardCount rows, p')) :
    ∃ done, p = .fold done [] ∧ status = foldStatus done := by
  rcases next_cases h with h | h | h
  · unfold submitStep at h
    split at h <;> grind
  · unfold reconcileStep at h
    split at h <;> grind [Option.map_eq_some_iff]
  · unfold cancelStep at h
    split at h <;> grind

theorem writing_next {c : Config Ledger Proc} {e : Event Proc Reply (Nat × Orchestration.Job)}
    (h : writing cfg c e = some (p, w)) : ∃ r p', next cfg c.store p r = some (w, p') := by
  cases e with
  | act i r =>
    obtain ⟨q, -, hq⟩ := Option.bind_eq_some_iff.mp h
    obtain ⟨⟨w', p'⟩, hnext, heq⟩ := Option.map_eq_some_iff.mp hq
    cases heq
    exact ⟨r, p', hnext⟩
  | spawn q => cases h
  | env m => cases h

/-- The last save of a reconciliation. -/
theorem fold_disciplined {c c' : Config Ledger Proc}
    {e : Event Proc Reply (Nat × Orchestration.Job)} {done : List Shard}
    {shardCount rows : Nat}
    (hwriting : writing cfg c e =
      some (.fold done [], .saveJob (foldStatus done) shardCount rows))
    (hsound : Sound cfg c.store (.fold done []))
    (hstatus : c'.store.job.status = foldStatus done) :
    Disciplined cfg c e c' ↔ foldsFully cfg c e = true := by
  have hview : foldView cfg c e = some done := by rw [foldView, hwriting]; rfl
  have hrerun : reruns cfg c e = false := by rw [reruns, hwriting]; rfl
  have hcond : foldsFully cfg c e = true ↔ done ≠ [] ∧
      (c.store.job.status = .failed → done.any Shard.pending = false) := by
    rw [foldsFully, hwriting]
    simp [foldsFullyWrite, imp_iff_not_or]
  rw [hcond]
  constructor
  · intro hd
    constructor
    · rintro rfl
      obtain ⟨s, hs, -⟩ := hd.failed [] hview hstatus
      cases hs
    · intro hfailed
      by_contra hpending
      rw [Bool.not_eq_false] at hpending
      have hrestart := hd.restart hfailed (hstatus.trans (foldStatus_running hpending))
      rw [hrerun] at hrestart
      cases hrestart
  · rintro ⟨hne, hpending⟩
    have hstored : ∀ s ∈ done, ∃ t ∈ c.store.shards, t.index = s.index := by
      intro s hs
      obtain ⟨t, ht, hindex, -⟩ := (hsound.copies s (List.mem_append_left _ hs)).stored
      exact ⟨t, ht, hindex⟩
    refine ⟨fun view _ hnone => ?_, fun view hv hfailed => ?_, fun hfailed hrunning => ?_⟩
    · -- a shard in the view is a shard of the job
      obtain ⟨s, hs⟩ := List.exists_mem_of_ne_nil done hne
      obtain ⟨t, ht, -⟩ := hstored s hs
      rw [hnone] at ht
      cases ht
    · obtain rfl : done = view := Option.some.inj (hview.symm.trans hv)
      obtain ⟨s, hs, hsfailed⟩ := failed_of_foldStatus hne
        (fun s hs => hsound.ready s (List.mem_append_left _ hs)) (hstatus.symm.trans hfailed)
      exact ⟨s, hs, hsfailed, hstored s hs⟩
    · have hp := pending_of_foldStatus (hstatus.symm.trans hrunning)
      rw [hpending hfailed] at hp
      cases hp

/-- A step that is neither a reconciliation's last save nor an adoption. -/
theorem disciplined_of_status {c c' : Config Ledger Proc}
    {e : Event Proc Reply (Nat × Orchestration.Job)} (hview : foldView cfg c e = none)
    (hcond : foldsFully cfg c e = true)
    (hrestart : c.store.job.status = .failed → c'.store.job.status = .running →
      reruns cfg c e = true) : Disciplined cfg c e c' ↔ foldsFully cfg c e = true :=
  iff_of_true ⟨fun _ hv => absurd (hview.symm.trans hv) nofun,
    fun _ hv => absurd (hview.symm.trans hv) nofun, hrestart⟩ hcond

/-- **Reconciliation is disciplined** at exactly the steps that meet the condition, in every run. -/
theorem disciplined_iff (cfg : Settings) {c c' : Config Ledger Proc}
    {e : Event Proc Reply (Nat × Orchestration.Job)} (h : (program cfg).Reach Program.Any fresh c)
    (hstep : (program cfg).step c e = some c') :
    Disciplined cfg c e c' ↔ foldsFully cfg c e = true := by
  have hsame : writing cfg c e = none → c'.store.job = c.store.job →
      (Disciplined cfg c e c' ↔ foldsFully cfg c e = true) := by
    intro hwriting hjob
    refine disciplined_of_status (by rw [foldView, hwriting]) (by rw [foldsFully, hwriting]; rfl) ?_
    intro hfailed hrunning
    rw [hjob, hfailed] at hrunning
    cases hrunning
  rcases step_cases (rows_hold h) hstep with ⟨hwriting, heq⟩ | ⟨p, w, hwriting, hp, -, heq⟩ |
    ⟨m, rfl, henv⟩
  · exact hsame hwriting (by rw [heq])
  · have hother : c'.store.job.status = c.store.job.status ∨ c'.store.job.status = .canceled ∨
        c'.store.job.status = .failed → foldView cfg c e = none → foldsFully cfg c e = true →
        (Disciplined cfg c e c' ↔ foldsFully cfg c e = true) := by
      intro hstatus hview hcond
      refine disciplined_of_status hview hcond fun hfailed hrunning => ?_
      rw [hrunning, hfailed] at hstatus
      simp at hstatus
    cases w with
    | saveJob status shardCount rows =>
      obtain ⟨r, p', hnext⟩ := writing_next hwriting
      obtain ⟨done, rfl, rfl⟩ := next_saveJob hnext
      exact fold_disciplined hwriting hp (by rw [heq]; rfl)
    | adopt plan =>
      have hrerun : reruns cfg c e = false := by rw [reruns, hwriting]; rfl
      have hstatus : c'.store.job.status = .running := by rw [heq]; rfl
      have hview : foldView cfg c e = none := by rw [foldView, hwriting]
      by_cases hfailed : c.store.job.status = .failed
      · refine iff_of_false (fun hd => ?_) (by simp [foldsFully, hwriting, foldsFullyWrite, hfailed])
        have hrestart := hd.restart hfailed hstatus
        rw [hrerun] at hrestart
        cases hrestart
      · exact disciplined_of_status hview
          (by simp [foldsFully, hwriting, foldsFullyWrite, hfailed]) fun hf => absurd hf hfailed
    | requeueFailed =>
      have hview : foldView cfg c e = none := by rw [foldView, hwriting]
      exact disciplined_of_status hview (by simp [foldsFully, hwriting, foldsFullyWrite])
        fun _ _ => by rw [reruns, hwriting]; rfl
    | cancelJob =>
      exact hother (Or.inr (Or.inl (by rw [heq]; rfl))) (by rw [foldView, hwriting])
        (by simp [foldsFully, hwriting, foldsFullyWrite])
    | failPlanning error =>
      exact hother (Or.inr (Or.inr (by rw [heq]; rfl))) (by rw [foldView, hwriting])
        (by simp [foldsFully, hwriting, foldsFullyWrite])
    | _ =>
      exact hother (Or.inl (by rw [heq]; rfl)) (by rw [foldView, hwriting])
        (by simp [foldsFully, hwriting, foldsFullyWrite])
  · obtain ⟨old, -, -, heq⟩ := offloadMove_cases henv
    exact hsame rfl (by rw [heq])

/-! ## Concrete runs -/

/-- A planner is at work when the sweep reconciles its QUEUED job: the view is empty. -/
def sweptWhilePlanning : List (Event Proc Reply (Nat × Orchestration.Job)) :=
  [.spawn .submit, .act 0 .ok, .act 0 .ok, .spawn .sweep, .act 1 .ok, .act 1 .ok, .act 1 .ok,
    .act 1 .ok, .act 1 .ok, .act 1 .ok]

/-- The adopted shard fails, and the sweep folds FAILED. -/
def sweptAfterFailure : List (Event Proc Reply (Nat × Orchestration.Job)) :=
  adopted ++ [.env (0, { operation := "", status := .failed }), .spawn .sweep, .act 1 .ok, .act 1 .ok,
    .act 1 .ok, .act 1 .ok, .act 1 .ok, .act 1 .ok, .act 1 .ok, .act 1 .ok, .act 1 .ok]

/-- A step that folds FAILED from a failed shard. -/
theorem disciplined_failed : ∃ c c' : Config Ledger Proc,
    (program toySettings).run fresh sweptAfterFailure = some c ∧
      (program toySettings).step c (.act 1 .ok) = some c' ∧
      c'.store.job.status = .failed ∧ Disciplined toySettings c (.act 1 .ok) c' := by
  refine ⟨_, _, rfl, rfl, rfl, ?_⟩
  exact (disciplined_iff toySettings (Program.run_reach _ sweptAfterFailure rfl) rfl).mpr rfl

/-- The fold of an empty view ends a job that is still being planned. -/
theorem empty_fold_fails : ¬ ∀ (cfg : Settings) (c c' : Config Ledger Proc)
    (e : Event Proc Reply (Nat × Orchestration.Job)), (program cfg).Reach Program.Any fresh c →
      (program cfg).step c e = some c' → Disciplined cfg c e c' := by
  intro hlaw
  have hd := hlaw toySettings _ _ (.act 1 .ok)
    (Program.run_reach _ sweptWhilePlanning rfl) rfl
  have hplanning := hd.planning [] rfl rfl (by decide)
  exact absurd hplanning (by decide)

end ControlPlane.Extraction
