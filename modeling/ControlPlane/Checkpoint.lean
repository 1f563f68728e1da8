/-
  STAGES WITH CHECKPOINTS: work that fails is taken up again where its last checkpoint stands.

  A stage is a list of steps on a state, and a step that raises is `none`.  After each stage the state
  is saved; a delivery that fails saves less, and the next delivery starts from what a new worker loads
  of it.  To RESUME is as good as NOT TO FAIL (`Resumable.resume`) as soon as

  * no step of a stage spoils what its stage starts from (`step`);
  * a stage makes the same of two states that it cannot tell apart (`stage`).

  Both are shown step by step, from what a step reads (`Blind`) and writes (`Keeps`).
-/
import Mathlib.Data.List.Infix

namespace ControlPlane.Checkpoint

variable {ι σ : Type}

/-- One step after another. -/
def advance : List (σ → Option σ) → σ → Option σ
  | [], w => some w
  | f :: steps, w => (f w).bind (advance steps)

theorem advance_append (before after : List (σ → Option σ)) (w : σ) :
    advance (before ++ after) w = (advance before w).bind (advance after) := by
  induction before generalizing w with
  | nil => rfl
  | cons f before ih =>
    simp only [List.cons_append, advance, Option.bind_assoc]
    exact congrArg _ (funext ih)

theorem advance_singleton (f : σ → Option σ) : advance [f] = f := by
  funext w
  rw [advance]
  cases f w with
  | none => rfl
  | some v => rfl

/-! ## What a step reads and writes -/

/-- What `k` erases makes no difference to what `k'` keeps of the result. -/
def Blind (k k' : σ → σ) (f : σ → Option σ) : Prop := ∀ w, (f w).map k' = (f (k w)).map k'

/-- What `k` keeps is not written. -/
def Keeps {τ : Type} (k : σ → τ) (f : σ → Option σ) : Prop := ∀ w w', f w = some w' → k w' = k w

section Footprints

variable {α τ : Type} {k k' k'' : σ → σ} {l : σ → τ} {f f' : σ → Option σ} {g : σ → Option α}
  {steps : List (σ → Option σ)} {w w' u : σ}

theorem Blind.pure {put : σ → σ} (h : ∀ w, k' (put w) = k' (put (k w))) :
    Blind k k' fun w => some (put w) :=
  fun w => congrArg some (h w)

/-- What is read is read changed, and then used so that the change makes no difference. -/
theorem Blind.read {e : α → α} {h : α → σ → Option σ} (hread : ∀ w, g (k w) = (g w).map e)
    (hrest : ∀ a w, g w = some a → (h a w).map k' = (h (e a) (k w)).map k') :
    Blind k k' fun w => (g w).bind fun a => h a w := by
  intro w
  dsimp only
  rw [hread]
  cases hg : g w with
  | none => rfl
  | some a => exact hrest a w hg

theorem Blind.bind {h : α → σ → Option σ} (hread : ∀ w, g w = g (k w)) (hrest : ∀ a, Blind k k' (h a)) :
    Blind k k' fun w => (g w).bind fun a => h a w :=
  .read (e := id) (fun w => by rw [← hread, Option.map_id, id_eq]) fun a w _ => hrest a w

theorem Blind.ite {p : Prop} [Decidable p] (hf : Blind k k' f) (hf' : Blind k k' f') :
    Blind k k' fun w => if p then f w else f' w := by
  intro w
  split
  · exact hf w
  · exact hf' w

theorem Blind.nil (h : ∀ w, k (k w) = k w) : Blind k k (advance []) :=
  fun w => congrArg some (h w).symm

/-- A step, and the steps behind it. -/
theorem Blind.cons (hf : Blind k k' f) (hsteps : Blind k' k'' (advance steps)) :
    Blind k k'' (advance (f :: steps)) := by
  have hmap : ∀ v, (advance (f :: steps) v).map k'' = ((f v).map k').bind fun v =>
      (advance steps v).map k'' := by
    intro v
    rw [advance]
    cases f v with
    | none => rfl
    | some v' => exact hsteps v'
  intro w
  rw [hmap, hmap, hf]

/-- States that the step cannot tell apart lead to states that are as good. -/
theorem Blind.agree (h : Blind k k' f) (hk : k w = k u) (hw : f w = some w') :
    ∃ u', f u = some u' ∧ k' w' = k' u' := by
  have hmap : (f u).map k' = some (k' w') := by rw [h u, ← hk, ← h w, hw, Option.map_some]
  obtain ⟨u', hu, heq⟩ := Option.map_eq_some_iff.mp hmap
  exact ⟨u', hu, heq.symm⟩

theorem Keeps.pure {put : σ → σ} (h : ∀ w, l (put w) = l w) : Keeps l fun w => some (put w) := by
  intro w w' heq
  rw [← Option.some.inj heq, h]

theorem Keeps.read {h : α → σ → Option σ}
    (hrest : ∀ a w w', g w = some a → h a w = some w' → l w' = l w) :
    Keeps l fun w => (g w).bind fun a => h a w := by
  intro w w' heq
  obtain ⟨a, hread, hw⟩ := Option.bind_eq_some_iff.mp heq
  exact hrest a w w' hread hw

theorem Keeps.bind {h : α → σ → Option σ} (hrest : ∀ a, Keeps l (h a)) :
    Keeps l fun w => (g w).bind fun a => h a w :=
  .read fun a w w' _ hw => hrest a w w' hw

theorem Keeps.ite {p : Prop} [Decidable p] (hf : Keeps l f) (hf' : Keeps l f') :
    Keeps l fun w => if p then f w else f' w := by
  intro w w' heq
  dsimp only at heq
  split at heq
  · exact hf w w' heq
  · exact hf' w w' heq

end Footprints

/-! ## Deliveries -/

/-- The stages that are done, and the state as a new worker loads it. -/
structure Saved (ι σ : Type) where
  done : List ι := []
  state : σ

/-- `load` is what a checkpoint saves, and `salvage` what a failure saves of the state that it meets,
    next to what was saved before. -/
structure Staged (ι σ : Type) where
  stages : List ι
  body : ι → List (σ → Option σ)
  load : σ → σ
  salvage : σ → σ → σ

namespace Staged

variable (m : Staged ι σ)

/-- Stages one after another, each with its checkpoint. -/
def through : List ι → Saved ι σ × σ → Option (Saved ι σ × σ)
  | [], s => some s
  | a :: rest, s => do
      let w ← advance (m.body a) s.2
      through rest (⟨s.1.done ++ [a], m.load w⟩, w)

/-- The stages that are left. -/
def rest (s : Saved ι σ) : List ι := m.stages.drop s.done.length

/-- A delivery that gets through. -/
def finish (s : Saved ι σ) : Option (Saved ι σ × σ) := m.through (m.rest s) (s, s.state)

/-- A delivery that fails after `k` checkpoints and `n` more steps; past the last step it fails at the
    checkpoint, and past the last stage behind it. -/
def fail (s : Saved ι σ) (k n : Nat) : Option (Saved ι σ) := do
  let t ← m.through ((m.rest s).take k) (s, s.state)
  let w ← advance ((((m.rest s).drop k).head?.elim [] m.body).take n) t.2
  some ⟨t.1.done, m.salvage t.1.state w⟩

/-- Any number of deliveries that failed, each at a point of its own. -/
inductive Reached (start : Saved ι σ) : Saved ι σ → Prop
  | start : Reached start start
  | fail {s s' : Saved ι σ} (k n : Nat) : Reached start s → m.fail s k n = some s' → Reached start s'

end Staged

/-- `same w u`: the states agree in all that counts; `ready a w u`: stage `a` cannot tell them apart;
    `fresh a u`: what `a` finds in a run that does not fail. -/
structure Resumable (m : Staged ι σ) (start : σ) where
  same : σ → σ → Prop
  ready : ι → σ → σ → Prop
  fresh : ι → σ → Prop
  refl : ∀ w, same w w
  salvage_self : ∀ w, m.salvage w w = w
  salvage_load : ∀ w, m.salvage (m.load w) w = m.load w
  load : ∀ {w u}, same w u → same (m.load w) u
  first : ∀ a ∈ m.stages.head?, fresh a start
  next : ∀ {a b w w'}, [a, b] <:+: m.stages → fresh a w → advance (m.body a) w = some w' → fresh b w'
  entry : ∀ {a w u}, same w u → fresh a u → ready a w u
  step : ∀ {a f s w w' u}, f ∈ m.body a → f w = some w' → fresh a u → ready a (m.salvage s w) u →
    ready a (m.salvage s w') u
  stage : ∀ {a w w' u}, ready a w u → fresh a u → advance (m.body a) w = some w' →
    ∃ u', advance (m.body a) u = some u' ∧ same w' u'

/-! ## One delivery -/

variable {m : Staged ι σ} {start : σ} {s s' t : Saved ι σ} {w w' u : σ} {a : ι}
  {steps : List (σ → Option σ)} {before after : List ι}

namespace Staged

theorem through_cons (h : m.through (a :: before) (s, w) = some (t, w')) :
    ∃ v, advance (m.body a) w = some v ∧
      m.through before (⟨s.done ++ [a], m.load v⟩, v) = some (t, w') :=
  Option.bind_eq_some_iff.mp h

theorem through_append (s : Saved ι σ × σ) :
    m.through (before ++ after) s = (m.through before s).bind (m.through after) := by
  induction before generalizing s with
  | nil => rfl
  | cons a before ih =>
    simp only [List.cons_append, through, Option.bind_eq_bind, Option.bind_assoc, ih]

/-- Every stage that is gone through is recorded. -/
theorem through_done (h : m.through before (s, w) = some (t, w')) : t.done = s.done ++ before := by
  induction before generalizing s w with
  | nil =>
    cases h
    exact (List.append_nil _).symm
  | cons a before ih =>
    obtain ⟨v, -, hrest⟩ := through_cons h
    rw [ih hrest, List.append_assoc, List.singleton_append]

/-- The stages that are left are those behind what is done. -/
theorem rest_of_append (h : s.done ++ after = m.stages) : m.rest s = after := by
  rw [rest, ← h, List.drop_left]

end Staged

namespace Resumable

variable (r : Resumable m start)

/-- The states agree for the stages that are left, in a run that did not fail up to `u`. -/
structure Level (after : List ι) (w u : σ) : Prop where
  same : after = [] → r.same w u
  ready : ∀ a ∈ after.head?, r.ready a w u
  fresh : ∀ a ∈ after.head?, r.fresh a u

theorem level_of_same (h : r.same w u) (hfresh : ∀ a ∈ after.head?, r.fresh a u) :
    r.Level after w u :=
  ⟨fun _ => h, fun a ha => r.entry h (hfresh a ha), hfresh⟩

/-- A delivery at work beside a run that does not fail, which is at `u`. -/
structure Beside (after : List ι) (s : Saved ι σ) (w u : σ) : Prop where
  clean : m.salvage s.state w = s.state
  saved : r.Level after s.state u
  work : r.Level after w u

variable {r}

/-- Steps of a stage do not spoil what it starts from. -/
theorem steps_keep (hsteps : ∀ f ∈ steps, f ∈ m.body a) (h : advance steps w = some w')
    (hfresh : r.fresh a u) (hready : r.ready a (m.salvage s.state w) u) :
    r.ready a (m.salvage s.state w') u := by
  induction steps generalizing w with
  | nil => exact Option.some.inj h ▸ hready
  | cons f steps ih =>
    obtain ⟨v, hv, hrest⟩ := Option.bind_eq_some_iff.mp h
    obtain ⟨hf, hsteps⟩ := List.forall_mem_cons.mp hsteps
    exact ih hsteps hrest (r.step hf hv hfresh hready)

/-- **STAGE FOR STAGE** a delivery makes the same as the run beside it. -/
theorem Beside.through (s' : Saved ι σ) (hlist : s.done ++ (before ++ after) = m.stages)
    (hbeside : r.Beside (before ++ after) s w u) (h : m.through before (s, w) = some (t, w')) :
    ∃ t' u', m.through before (s', u) = some (t', u') ∧ r.Beside after t w' u' := by
  induction before generalizing s s' w u with
  | nil =>
    cases h
    exact ⟨s', u, rfl, hbeside⟩
  | cons a before ih =>
    obtain ⟨v, hv, hrest⟩ := Staged.through_cons h
    have hfresh := hbeside.work.fresh a rfl
    obtain ⟨v', hv', hsame⟩ := r.stage (hbeside.work.ready a rfl) hfresh hv
    have hnext : ∀ b ∈ (before ++ after).head?, r.fresh b v' := by
      intro b hb
      obtain ⟨others, hothers⟩ := List.head?_eq_some_iff.mp hb
      have hinfix : [a, b] <:+: m.stages := ⟨s.done, others, by
        rw [← hlist, List.cons_append, hothers]
        simp⟩
      exact r.next hinfix hfresh hv'
    have hbeside' : r.Beside (before ++ after) ⟨s.done ++ [a], m.load v⟩ v v' :=
      ⟨r.salvage_load v, r.level_of_same (r.load hsame) hnext, r.level_of_same hsame hnext⟩
    obtain ⟨t', u', hthrough, hend⟩ := ih ⟨s'.done ++ [a], m.load v'⟩
      (by rw [← hlist, List.append_assoc, List.singleton_append, List.cons_append]) hbeside' hrest
    exact ⟨t', u', Option.bind_eq_some_iff.mpr ⟨v', hv', hthrough⟩, hend⟩

/-! ## Any number of deliveries -/

variable (r)

/-- What is saved is level with a run that did not fail and is as far. -/
def Follows (s : Saved ι σ) : Prop :=
  ∃ after t u, s.done ++ after = m.stages ∧
    m.through s.done (⟨[], start⟩, start) = some (t, u) ∧ r.Level after s.state u

variable {r}

theorem follows_start : r.Follows ⟨[], start⟩ :=
  ⟨m.stages, ⟨[], start⟩, start, rfl, rfl, r.level_of_same (r.refl start) r.first⟩

/-- A failure saves nothing that is not level. -/
theorem Follows.fail {k n : Nat} (h : r.Follows s) (hfail : m.fail s k n = some s') :
    r.Follows s' := by
  obtain ⟨after, t₀, u₀, hlist, hrun, hlevel⟩ := h
  rw [Staged.fail, Staged.rest_of_append hlist] at hfail
  obtain ⟨⟨t, w⟩, hthrough, hfail⟩ := Option.bind_eq_some_iff.mp hfail
  obtain ⟨v, hv, hsaved⟩ := Option.bind_eq_some_iff.mp hfail
  cases hsaved
  have hsplit : after.take k ++ after.drop k = after := List.take_append_drop k after
  rw [← hsplit] at hlevel hlist
  have hbeside : r.Beside (after.take k ++ after.drop k) s s.state u₀ :=
    ⟨r.salvage_self _, hlevel, hlevel⟩
  obtain ⟨t', u', hthrough', hend⟩ := hbeside.through t₀ hlist hthrough
  have hdone := Staged.through_done hthrough
  refine ⟨after.drop k, t', u', ?_, ?_, ?_⟩
  · rw [hdone, List.append_assoc, hlist]
  · rw [hdone, Staged.through_append, hrun]
    exact hthrough'
  · cases hleft : after.drop k with
    | nil =>
      rw [hleft, List.head?_nil, Option.elim_none, List.take_nil] at hv
      rw [hleft] at hend
      cases hv
      rw [hend.clean]
      exact hend.saved
    | cons a others =>
      rw [hleft] at hv hend
      have hfresh := hend.saved.fresh
      refine ⟨fun h => absurd h (List.cons_ne_nil _ _), fun b hb => ?_, hfresh⟩
      cases hb
      refine steps_keep (fun f hf => List.mem_of_mem_take hf) hv (hfresh a rfl) ?_
      rw [hend.clean]
      exact hend.saved.ready a rfl

variable (r)

theorem reached_follows (h : m.Reached ⟨[], start⟩ s) : r.Follows s := by
  induction h with
  | start => exact follows_start
  | fail k n _ hfail ih => exact ih.fail hfail

/-- **TO RESUME IS NOT TO FAIL**: after any number of failures, the delivery that gets through ends as
    the one that would have got through at once, with every stage once. -/
theorem resume (h : m.Reached ⟨[], start⟩ s) (hfinish : m.finish s = some (t, w)) :
    ∃ t' u, m.finish ⟨[], start⟩ = some (t', u) ∧ r.same w u ∧ t.done = m.stages ∧
      t'.done = m.stages := by
  obtain ⟨after, t₀, u₀, hlist, hrun, hlevel⟩ := r.reached_follows h
  rw [Staged.finish, Staged.rest_of_append hlist] at hfinish
  rw [← List.append_nil after] at hlevel
  have hbeside : r.Beside (after ++ []) s s.state u₀ := ⟨r.salvage_self _, hlevel, hlevel⟩
  obtain ⟨t', u, hthrough, hend⟩ :=
    hbeside.through t₀ (by rwa [List.append_nil]) hfinish
  have hall : m.through m.stages (⟨[], start⟩, start) = some (t', u) := by
    rw [← hlist, Staged.through_append, hrun]
    exact hthrough
  refine ⟨t', u, hall, hend.work.same rfl, ?_, Staged.through_done hall⟩
  rw [Staged.through_done hfinish, hlist]

end Resumable

end ControlPlane.Checkpoint
