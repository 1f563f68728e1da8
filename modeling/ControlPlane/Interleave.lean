/-
  INTERLEAVED PROGRAMS: processes that share one store, and the rule that proves things of them.

  A web process, a queue worker and a beat schedule all work on the same database rows.  What the
  database serialises is one statement, or one transaction, at a time; between two of them any
  other process may run.  `Program δ π χ ω` is that situation and nothing more:

  * `δ` is the store, `π` a process (its program point together with its local variables),
  * `χ` is what the world answers to a process (a reply, a failure, the death of the worker),
  * `ω` is what moves the store without any of the processes.

  A `Config` is the store with the pool of all processes ever started; an `Event` starts a process,
  lets one process take one step, or moves the store.  `Reach C` is reachability through steps that
  all meet the condition `C`; with `C` trivial it is plain reachability.

  The proof rule is `Outline`, the rely/guarantee form of Owicki and Gries: an invariant of the
  store, an assertion for every program point, and a relation `grows` that every step guarantees
  and under which every assertion is stable.  The obligations speak of ONE step of ONE process;
  interference is discharged once, by `stable`.
-/
import Mathlib.Logic.Relation
import Mathlib.Data.List.Basic

namespace ControlPlane.Interleave

/-! ## Programs, configurations, runs -/

/-- Processes `π` over a store `δ`.  `act` is one atomic step of one process under the reply `χ`;
    `env` is a move of the store made by nobody in the pool. -/
structure Program (δ π χ ω : Type) where
  /-- The processes that may be started, at any time and any number of times. -/
  start : π → Bool
  act : δ → π → χ → Option (δ × π)
  env : δ → ω → Option δ

/-- The store together with every process started so far. -/
structure Config (δ π : Type) where
  store : δ
  procs : List π

/-- One step of the pool: a start, a step of process number `i`, or a move of the store. -/
inductive Event (π χ ω : Type) where
  | spawn (p : π)
  | act (i : Nat) (c : χ)
  | env (w : ω)

namespace Program

variable {δ π χ ω : Type} (P : Program δ π χ ω)

/-- The successor configuration; `none` when the event is not enabled. -/
def step (s : Config δ π) : Event π χ ω → Option (Config δ π)
  | .spawn p => if P.start p = true then some ⟨s.store, s.procs ++ [p]⟩ else none
  | .act i c => (s.procs[i]?).bind fun p =>
      (P.act s.store p c).map fun r => ⟨r.1, s.procs.set i r.2⟩
  | .env w => (P.env s.store w).map fun d => ⟨d, s.procs⟩

/-- Run a list of events, each of which must meet `C`. -/
def runWhen (C : Config δ π → Event π χ ω → Prop) [∀ s e, Decidable (C s e)] :
    Config δ π → List (Event π χ ω) → Option (Config δ π)
  | s, [] => some s
  | s, e :: es => if C s e then (P.step s e).bind fun s' => runWhen C s' es else none

/-- Run a list of events. -/
def run : Config δ π → List (Event π χ ω) → Option (Config δ π)
  | s, [] => some s
  | s, e :: es => (P.step s e).bind fun s' => run s' es

/-- One step that meets the condition `C`. -/
def Next (C : Config δ π → Event π χ ω → Prop) (s s' : Config δ π) : Prop :=
  ∃ e, C s e ∧ P.step s e = some s'

/-- Reachability through steps that all meet `C`. -/
abbrev Reach (C : Config δ π → Event π χ ω → Prop) : Config δ π → Config δ π → Prop :=
  Relation.ReflTransGen (P.Next C)

/-- No condition at all: every interleaving. -/
abbrev Any : Config δ π → Event π χ ω → Prop := fun _ _ => True

/-! ## What a step can be -/

theorem step_spawn {s s' : Config δ π} {p : π} (h : P.step s (.spawn p) = some s') :
    P.start p = true ∧ s' = ⟨s.store, s.procs ++ [p]⟩ := by
  simp only [step] at h
  split at h
  · rename_i hp
    exact ⟨hp, (Option.some.inj h).symm⟩
  · cases h

theorem step_act {s s' : Config δ π} {i : Nat} {c : χ} (h : P.step s (.act i c) = some s') :
    ∃ p d' p', s.procs[i]? = some p ∧ P.act s.store p c = some (d', p') ∧
      s' = ⟨d', s.procs.set i p'⟩ := by
  simp only [step, Option.bind_eq_some_iff, Option.map_eq_some_iff] at h
  obtain ⟨p, hp, ⟨d', p'⟩, hact, hs'⟩ := h
  exact ⟨p, d', p', hp, hact, hs'.symm⟩

theorem step_env {s s' : Config δ π} {w : ω} (h : P.step s (.env w) = some s') :
    ∃ d', P.env s.store w = some d' ∧ s' = ⟨d', s.procs⟩ := by
  simp only [step, Option.map_eq_some_iff] at h
  obtain ⟨d', henv, hs'⟩ := h
  exact ⟨d', henv, hs'.symm⟩

/-! ## From concrete runs to reachability -/

theorem run_reach {s s' : Config δ π} (es : List (Event π χ ω)) (h : P.run s es = some s') :
    P.Reach Any s s' := by
  induction es generalizing s with
  | nil =>
    obtain rfl : s = s' := Option.some.inj h
    exact Relation.ReflTransGen.refl
  | cons e es ih =>
    simp only [run, Option.bind_eq_some_iff] at h
    obtain ⟨m, hm, hrest⟩ := h
    exact Relation.ReflTransGen.head ⟨e, trivial, hm⟩ (ih hrest)

theorem runWhen_reach {C : Config δ π → Event π χ ω → Prop} [∀ s e, Decidable (C s e)]
    {s s' : Config δ π} (es : List (Event π χ ω)) (h : P.runWhen C s es = some s') :
    P.Reach C s s' := by
  induction es generalizing s with
  | nil =>
    obtain rfl : s = s' := Option.some.inj h
    exact Relation.ReflTransGen.refl
  | cons e es ih =>
    simp only [runWhen] at h
    split at h
    · rename_i hC
      obtain ⟨m, hm, hrest⟩ := Option.bind_eq_some_iff.mp h
      exact Relation.ReflTransGen.head ⟨e, hC, hm⟩ (ih hrest)
    · cases h

/-- A weaker condition reaches at least as much. -/
theorem Reach.mono {C D : Config δ π → Event π χ ω → Prop} (hCD : ∀ s e, C s e → D s e)
    {s s' : Config δ π} (h : P.Reach C s s') : P.Reach D s s' :=
  Relation.ReflTransGen.mono (p := P.Next D) (fun _ _ ⟨e, hC, he⟩ => ⟨e, hCD _ _ hC, he⟩) _ _ h

/-! ## The plain invariant rule -/

/-- What holds at the start and is kept by every step that meets `C` holds wherever such steps
    lead. -/
theorem Reach.invariant {C : Config δ π → Event π χ ω → Prop} {I : Config δ π → Prop}
    (hstep : ∀ s e s', I s → C s e → P.step s e = some s' → I s') {s s' : Config δ π}
    (h : P.Reach C s s') (hs : I s) : I s' := by
  induction h with
  | refl => exact hs
  | tail _ hnext ih =>
    obtain ⟨e, hC, he⟩ := hnext
    exact hstep _ e _ ih hC he

/-- Steps that meet `C` go on meeting it where an invariant holds. -/
theorem Reach.within {C : Config δ π → Event π χ ω → Prop} {I : Config δ π → Prop}
    (hstep : ∀ s e s', I s → C s e → P.step s e = some s' → I s') {s s' : Config δ π}
    (h : P.Reach C s s') (hs : I s) : P.Reach (fun s e => C s e ∧ I s) s s' := by
  induction h with
  | refl => exact Relation.ReflTransGen.refl
  | tail hreach hnext ih =>
    obtain ⟨e, hC, he⟩ := hnext
    exact ih.tail ⟨e, ⟨hC, Reach.invariant P hstep hreach hs⟩, he⟩

/-- Watching process number `j`: what its own steps and the moves of the store beside it keep. -/
theorem Reach.watch {C : Config δ π → Event π χ ω → Prop} {φ : δ → π → Prop} {j : Nat}
    (hown : ∀ {s : Config δ π} {c p d' p'}, φ s.store p → C s (.act j c) → s.procs[j]? = some p →
      P.act s.store p c = some (d', p') → φ d' p')
    (hother : ∀ {s : Config δ π} {i c p q d' q'}, φ s.store p → C s (.act i c) →
      s.procs[j]? = some p → s.procs[i]? = some q → P.act s.store q c = some (d', q') → φ d' p)
    (henv : ∀ {s : Config δ π} {w p d'}, φ s.store p → C s (.env w) → s.procs[j]? = some p →
      P.env s.store w = some d' → φ d' p)
    {s s' : Config δ π} {p : π} (h : P.Reach C s s') (hj : s.procs[j]? = some p)
    (hφ : φ s.store p) : ∃ p', s'.procs[j]? = some p' ∧ φ s'.store p' := by
  refine Reach.invariant P (I := fun s => ∃ p', s.procs[j]? = some p' ∧ φ s.store p') ?_ h ⟨p, hj, hφ⟩
  rintro s e s' ⟨p, hj, hφ⟩ hC he
  cases e with
  | spawn q =>
    obtain ⟨-, rfl⟩ := P.step_spawn he
    exact ⟨p, by rw [List.getElem?_append_left (List.getElem?_eq_some_iff.mp hj).1, hj], hφ⟩
  | act i c =>
    obtain ⟨q, d', q', hi, hact, rfl⟩ := P.step_act he
    rcases eq_or_ne i j with rfl | hij
    · obtain rfl : q = p := Option.some.inj (hi.symm.trans hj)
      exact ⟨q', List.getElem?_set_self (List.getElem?_eq_some_iff.mp hi).1, hown hφ hC hj hact⟩
    · exact ⟨p, by rw [List.getElem?_set_ne hij, hj], hother hφ hC hj hi hact⟩
  | env w =>
    obtain ⟨d', hd', rfl⟩ := P.step_env he
    exact ⟨p, hj, henv hφ hC hj hd'⟩

/-! ## What has happened -/

/-- Somewhere on the way from `s₀` to `s`, `φ` held. -/
def Once (C : Config δ π → Event π χ ω → Prop) (s₀ : Config δ π) (φ : Config δ π → Prop)
    (s : Config δ π) : Prop :=
  ∃ m, P.Reach C s₀ m ∧ P.Reach C m s ∧ φ m

variable {P} {C : Config δ π → Event π χ ω → Prop} {s₀ s s' : Config δ π}
  {φ ψ : Config δ π → Prop}

/-- What holds has happened. -/
theorem Once.now (h : P.Reach C s₀ s) (hφ : φ s) : P.Once C s₀ φ s :=
  ⟨s, h, Relation.ReflTransGen.refl, hφ⟩

/-- What has happened stays so. -/
theorem Once.later (h : P.Once C s₀ φ s) (hs : P.Reach C s s') : P.Once C s₀ φ s' := by
  obtain ⟨m, hm, hreach, hφ⟩ := h
  exact ⟨m, hm, hreach.trans hs, hφ⟩

/-- At the time, more may have been known. -/
theorem Once.imp (h : P.Once C s₀ φ s) (hψ : ∀ m, P.Reach C s₀ m → φ m → ψ m) :
    P.Once C s₀ ψ s := by
  obtain ⟨m, hm, hreach, hφ⟩ := h
  exact ⟨m, hm, hreach, hψ m hm hφ⟩

end Program

/-! ## Proof outlines -/

/-- A proof outline: an invariant of the store, an assertion about each process, and the relation
    between the stores before and after that every step guarantees.  Assertions are stable under
    the guarantee, so no process can invalidate another's. -/
structure Outline {δ π χ ω : Type} (P : Program δ π χ ω)
    (C : Config δ π → Event π χ ω → Prop) where
  inv : δ → Prop
  asserts : δ → π → Prop
  grows : δ → δ → Prop
  stable : ∀ {d d' p}, grows d d' → asserts d p → asserts d' p
  start : ∀ {d p}, inv d → P.start p = true → asserts d p
  act : ∀ {s : Config δ π} {i c p d' p'}, inv s.store → asserts s.store p → C s (.act i c) →
    s.procs[i]? = some p → P.act s.store p c = some (d', p') →
    inv d' ∧ grows s.store d' ∧ asserts d' p'
  env : ∀ {s : Config δ π} {w d'}, inv s.store → C s (.env w) → P.env s.store w = some d' →
    inv d' ∧ grows s.store d'

namespace Outline

variable {δ π χ ω : Type} {P : Program δ π χ ω} {C : Config δ π → Event π χ ω → Prop}
  (O : Outline P C)

/-- The outline holds of a configuration: invariant and all assertions. -/
def Holds (s : Config δ π) : Prop := O.inv s.store ∧ ∀ p ∈ s.procs, O.asserts s.store p

/-- One step: the outline is kept, and the store moves within the guarantee (or not at all). -/
theorem step {s s' : Config δ π} {e : Event π χ ω} (hs : O.Holds s) (hC : C s e)
    (h : P.step s e = some s') :
    O.Holds s' ∧ (O.grows s.store s'.store ∨ s'.store = s.store) := by
  obtain ⟨hinv, hpool⟩ := hs
  cases e with
  | spawn p =>
    obtain ⟨hp, rfl⟩ := P.step_spawn h
    refine ⟨⟨hinv, fun q hq => ?_⟩, Or.inr rfl⟩
    rcases List.mem_append.mp hq with hq | hq
    · exact hpool q hq
    · obtain rfl : q = p := List.mem_singleton.mp hq
      exact O.start hinv hp
  | act i c =>
    obtain ⟨p, d', p', hget, hact, rfl⟩ := P.step_act h
    have hmem : p ∈ s.procs := List.mem_of_getElem? hget
    obtain ⟨hinv', hgrow, hp'⟩ := O.act hinv (hpool p hmem) hC hget hact
    refine ⟨⟨hinv', fun q hq => ?_⟩, Or.inl hgrow⟩
    rcases List.mem_or_eq_of_mem_set hq with hq | rfl
    · exact O.stable hgrow (hpool q hq)
    · exact hp'
  | env w =>
    obtain ⟨d', henv, rfl⟩ := P.step_env h
    obtain ⟨hinv', hgrow⟩ := O.env hinv hC henv
    exact ⟨⟨hinv', fun q hq => O.stable hgrow (hpool q hq)⟩, Or.inl hgrow⟩

/-- **The rule.**  An outline that holds at the start holds in every reachable configuration. -/
theorem reach {s s' : Config δ π} (h : P.Reach C s s') (hs : O.Holds s) : O.Holds s' :=
  Program.Reach.invariant P (fun _ _ _ hI hC he => (O.step hI hC he).1) h hs

/-- When the guarantee is a preorder it relates the stores at the two ends of every run. -/
theorem grows_reach (hrefl : ∀ d, O.grows d d)
    (htrans : ∀ {a b c}, O.grows a b → O.grows b c → O.grows a c) {s s' : Config δ π}
    (h : P.Reach C s s') (hs : O.Holds s) : O.grows s.store s'.store := by
  induction h with
  | refl => exact hrefl _
  | tail hreach hnext ih =>
    obtain ⟨e, hC, he⟩ := hnext
    rcases (O.step (O.reach hreach hs) hC he).2 with hg | heq
    · exact htrans ih hg
    · exact heq ▸ ih

end Outline

end ControlPlane.Interleave
