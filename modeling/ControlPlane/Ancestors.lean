/-
  ANCESTORS: a walk up a parent map, with a set of the keys that were visited.

  The walk of one key stops at a root, at a key that it has visited, or at a key that the map does not
  have.  It ends on every map, since each step visits a key of the map that was not visited.  Where the
  map has every parent that it names, all walks reach a root exactly when no key is its own ancestor
  (`walks_iff`): a walk visits every ancestor of the key, and nothing else.

  A walk that looks for a key to keep (`seek`) keeps no record of its way.  Where the other walk does not
  run into a cycle it ends too, at the NEAREST ancestor that is kept (`seek_spec`).
-/
import Mathlib.Data.List.Basic
import Mathlib.Logic.Relation

namespace ControlPlane.Ancestors

variable {α : Type} [BEq α] [LawfulBEq α]

/-- How a walk ends. -/
inductive Outcome (α : Type) where
  | root
  | cycle
  | missing (key : α)
  deriving DecidableEq, Repr

/-- The keys of the map that were not visited. -/
def unvisited (parents : List (α × Option α)) (visited : List α) : List (α × Option α) :=
  parents.filter fun e => e.1 ∉ visited

theorem unvisited_lt {parents : List (α × Option α)} {visited : List α} {p : α} {next : Option α}
    (hnew : p ∉ visited) (hlookup : parents.lookup p = some next) :
    (unvisited parents (p :: visited)).length < (unvisited parents visited).length := by
  have hmem : (p, next) ∈ unvisited parents visited := by
    obtain ⟨before, after, hparents, -⟩ := List.lookup_eq_some_iff.mp hlookup
    rw [unvisited, List.mem_filter, hparents]
    exact ⟨List.mem_append_right _ List.mem_cons_self, decide_eq_true hnew⟩
  have hfilter : unvisited parents (p :: visited) =
      (unvisited parents visited).filter fun e => e.1 != p := by
    rw [unvisited, unvisited, List.filter_filter]
    refine List.filter_congr fun e _ => ?_
    simp [not_or, bne]
  rw [hfilter]
  exact List.length_filter_lt_length_iff_exists.mpr ⟨(p, next), hmem, by simp⟩

/-- Up from a key, with the keys visited so far. -/
def climb (parents : List (α × Option α)) (visited : List α) : Option α → Outcome α
  | none => .root
  | some p =>
    if _ : p ∈ visited then .cycle
    else match _ : parents.lookup p with
      | none => .missing p
      | some next => climb parents (p :: visited) next
termination_by (unvisited parents visited).length
decreasing_by exact unvisited_lt ‹_› ‹_›

variable {parents : List (α × Option α)} {visited : List α} {a b p q : α} {start next : Option α}

theorem climb_none : climb parents visited none = .root := by
  rw [climb]

theorem climb_visited (h : p ∈ visited) : climb parents visited (some p) = .cycle := by
  rw [climb, dif_pos h]

theorem climb_missing (hnew : p ∉ visited) (h : parents.lookup p = none) :
    climb parents visited (some p) = .missing p := by
  rw [climb, dif_neg hnew]
  split
  · rfl
  · rename_i hsome
    rw [h] at hsome
    cases hsome

theorem climb_step (hnew : p ∉ visited) (h : parents.lookup p = some next) :
    climb parents visited (some p) = climb parents (p :: visited) next := by
  rw [climb, dif_neg hnew]
  split
  · rename_i hnone
    rw [h] at hnone
    cases hnone
  · rename_i hsome
    rw [h] at hsome
    rw [Option.some.inj hsome]

/-- `b` is the parent of `a`. -/
def Parent (parents : List (α × Option α)) (a b : α) : Prop := parents.lookup a = some (some b)

/-- No key is its own ancestor. -/
def Acyclic (parents : List (α × Option α)) : Prop := ∀ a, ¬ Relation.TransGen (Parent parents) a a

/-- The map has every parent that it names. -/
def Closed (parents : List (α × Option α)) : Prop :=
  ∀ a b, Parent parents a b → (parents.lookup b).isSome

/-- A walk that reaches a root meets no visited key on its way up, by induction on the walk. -/
theorem not_visited_of_climb (h : climb parents visited (some p) = .root)
    (hq : Relation.ReflTransGen (Parent parents) p q) : q ∉ visited := by
  generalize hstart : (some p : Option α) = start at h
  induction visited, start using climb.induct parents generalizing p with
  | case1 visited => cases hstart
  | case2 visited p' hvisited =>
    rw [climb_visited hvisited] at h
    cases h
  | case3 visited p' hnew hnone =>
    rw [climb_missing hnew hnone] at h
    cases h
  | case4 visited p' hnew next hsome ih =>
    obtain rfl := Option.some.inj hstart
    rw [climb_step hnew hsome] at h
    rcases Relation.ReflTransGen.cases_head hq with rfl | ⟨r, hparent, hrest⟩
    · exact hnew
    · have hnext : some r = next := (Option.some.inj (hsome.symm.trans hparent)).symm
      exact fun hmem => ih hrest hnext h (List.mem_cons_of_mem _ hmem)

/-- On a closed map without cycles a walk reaches a root, if what it has visited lies below. -/
theorem climb_of_acyclic (hclosed : Closed parents) (hacyclic : Acyclic parents)
    (hstart : ∀ p, start = some p → (parents.lookup p).isSome)
    (hbelow : ∀ p, start = some p → ∀ v ∈ visited, Relation.TransGen (Parent parents) v p) :
    climb parents visited start = .root := by
  induction visited, start using climb.induct parents with
  | case1 visited => exact climb_none
  | case2 visited p hvisited => exact absurd (hbelow p rfl p hvisited) (hacyclic p)
  | case3 visited p hnew hnone =>
    have hsome := hstart p rfl
    rw [hnone] at hsome
    cases hsome
  | case4 visited p hnew next hsome ih =>
    rw [climb_step hnew hsome]
    refine ih (fun q hq => ?_) (fun q hq v hv => ?_)
    · exact hclosed p q (hsome.trans (congrArg some hq))
    · have hparent : Parent parents p q := hsome.trans (congrArg some hq)
      rcases List.mem_cons.mp hv with rfl | hv
      · exact Relation.TransGen.single hparent
      · exact (hbelow p rfl v hv).tail hparent

/-- On a closed map no key is missing. -/
theorem climb_ne_missing (hclosed : Closed parents)
    (hstart : ∀ p, start = some p → (parents.lookup p).isSome) :
    ∀ key, climb parents visited start ≠ .missing key := by
  induction visited, start using climb.induct parents with
  | case1 visited => exact fun key h => by rw [climb_none] at h; cases h
  | case2 visited p hvisited => exact fun key h => by rw [climb_visited hvisited] at h; cases h
  | case3 visited p hnew hnone =>
    have hsome := hstart p rfl
    rw [hnone] at hsome
    cases hsome
  | case4 visited p hnew next hsome ih =>
    rw [climb_step hnew hsome]
    exact ih fun q hq => hclosed p q (hsome.trans (congrArg some hq))

/-- **All walks reach a root exactly when nothing is its own ancestor.** -/
theorem walks_iff (hclosed : Closed parents) :
    (∀ a next, parents.lookup a = some next → climb parents [a] next = .root) ↔
      Acyclic parents := by
  constructor
  · intro h a hcycle
    obtain ⟨b, hparent, hrest⟩ := Relation.TransGen.head'_iff.mp hcycle
    exact not_visited_of_climb (h a (some b) hparent) hrest List.mem_cons_self
  · intro hacyclic a next hlookup
    refine climb_of_acyclic hclosed hacyclic (fun p hp => ?_) (fun p hp v hv => ?_)
    · exact hclosed a p (hlookup.trans (congrArg some hp))
    · obtain rfl := List.mem_singleton.mp hv
      exact Relation.TransGen.single (hlookup.trans (congrArg some hp))

/-! ## The nearest ancestor that is kept -/

section Seek

variable (keep : α → Prop) [DecidablePred keep]

/-- Up to the first key that is kept, for so many turns; `none`: the walk is still under way. -/
def seek (parents : List (α × Option α)) : Nat → Option α → Option (Option α)
  | 0, _ => none
  | _ + 1, none => some none
  | turns + 1, some p =>
      if keep p then some (some p) else seek parents turns (parents.lookup p).join

/-- From a start on: the first key that is kept, or that there is none. -/
def Nearest (parents : List (α × Option α)) (start : Option α) : Option α → Prop
  | none => ∀ p, start = some p → ∀ c, Relation.ReflTransGen (Parent parents) p c → ¬ keep c
  | some b => ∃ p, start = some p ∧ Relation.ReflTransGen (Parent parents) p b ∧ keep b ∧
      ∀ c, Relation.ReflTransGen (Parent parents) p c → keep c → Relation.ReflTransGen (Parent parents) b c

variable {keep}

omit [LawfulBEq α] [DecidablePred keep] in
/-- What is not kept is passed. -/
theorem Nearest.pass (hp : ¬ keep p) {found : Option α}
    (h : Nearest keep parents (parents.lookup p).join found) : Nearest keep parents (some p) found := by
  have hway : ∀ {c}, Relation.ReflTransGen (Parent parents) p c → keep c →
      ∃ r, (parents.lookup p).join = some r ∧ Relation.ReflTransGen (Parent parents) r c := by
    intro c hc hkeep
    rcases Relation.ReflTransGen.cases_head hc with rfl | ⟨r, hparent, hrest⟩
    · exact absurd hkeep hp
    · exact ⟨r, by rw [show parents.lookup p = some (some r) from hparent]; rfl, hrest⟩
  cases found with
  | none =>
    intro q hq c hc hkeep
    obtain rfl := Option.some.inj hq
    obtain ⟨r, hr, hrest⟩ := hway hc hkeep
    exact h r hr c hrest hkeep
  | some b =>
    obtain ⟨r, hr, hb, hkeep, hfirst⟩ := h
    have hparent : Parent parents p r := Option.join_eq_some_iff.mp hr
    refine ⟨p, rfl, Relation.ReflTransGen.head hparent hb, hkeep, fun c hc hkept => ?_⟩
    obtain ⟨r', hr', hrest⟩ := hway hc hkept
    obtain rfl : r = r' := Option.some.inj (hr.symm.trans hr')
    exact hfirst c hrest hkept

/-- **The walk ends at the nearest key that is kept**, by induction on the walk that keeps a record. -/
theorem seek_spec (h : climb parents visited start ≠ .cycle) : ∃ turns found,
    (∀ more, turns ≤ more → seek keep parents more start = some found) ∧
      Nearest keep parents start found := by
  induction visited, start using climb.induct parents with
  | case1 visited =>
    refine ⟨1, none, fun more hmore => ?_, fun p hp => nomatch hp⟩
    obtain ⟨turns, rfl⟩ := Nat.exists_eq_add_of_le' hmore
    rfl
  | case2 visited p hvisited => exact absurd (climb_visited hvisited) h
  | case3 visited p hnew hnone =>
    by_cases hp : keep p
    · refine ⟨1, some p, fun more hmore => ?_, ⟨p, rfl, .refl, hp, fun c hc _ => hc⟩⟩
      obtain ⟨turns, rfl⟩ := Nat.exists_eq_add_of_le' hmore
      exact if_pos hp
    · refine ⟨2, none, fun more hmore => ?_, Nearest.pass hp ?_⟩
      · obtain ⟨turns, rfl⟩ := Nat.exists_eq_add_of_le' hmore
        refine (if_neg hp).trans ?_
        rw [hnone]
        rfl
      · rw [hnone]
        exact fun q hq => nomatch hq
  | case4 visited p hnew next hsome ih =>
    rw [climb_step hnew hsome] at h
    obtain ⟨turns, found, hturns, hfound⟩ := ih h
    by_cases hp : keep p
    · refine ⟨1, some p, fun more hmore => ?_, ⟨p, rfl, .refl, hp, fun c hc _ => hc⟩⟩
      obtain ⟨turns, rfl⟩ := Nat.exists_eq_add_of_le' hmore
      exact if_pos hp
    · have hnext : (parents.lookup p).join = next := by rw [hsome]; rfl
      refine ⟨turns + 1, found, fun more hmore => ?_, Nearest.pass hp (hnext ▸ hfound)⟩
      obtain ⟨more, rfl⟩ := Nat.exists_eq_add_of_le' (Nat.le_of_add_left_le hmore)
      refine (if_neg hp).trans ?_
      rw [hnext]
      exact hturns _ (by omega)

end Seek

end ControlPlane.Ancestors
