/-
  DESCENT: a recursion over lists of children, which writes down what it visits.

  The recursion is given so many calls inside each other; where they do not suffice, there is no result.
  In a FOREST (nothing is below itself, and what has a parent has one) it writes down what is below its
  start, and nothing else (`mem_walk`), everything once (`walk_nodup`), nothing before what it is below
  (`walk_pairwise`), and what has one parent in the order of the children (`walk_siblings`).

  All four rest on one fact: nothing is below two children of one parent (`apart`).  The calls suffice
  when no way up to the start is longer (`walk_isSome`).
-/
import Mathlib.Data.List.Chain
import Mathlib.Data.List.Forall2
import Mathlib.Data.List.Nodup
import Mathlib.Data.List.Pairwise
import Mathlib.Logic.Relation

namespace ControlPlane.Descent

variable {α : Type} (children : α → List α)

/-- `b` is a child of `a`; the way up is from `b` to `a`. -/
def Child (b a : α) : Prop := b ∈ children a

/-- The recursion, with so many calls inside each other. -/
def walk : Nat → α → Option (List α)
  | 0, _ => none
  | calls + 1, a => ((children a).mapM (walk calls)).map fun below => a :: below.flatten

/-- Nothing is below itself, what has a parent has one, and no child is there twice. -/
structure Forest : Prop where
  acyclic : ∀ a, ¬ Relation.TransGen (Child children) a a
  unique : ∀ a b c, Child children a b → Child children a c → b = c
  nodup : ∀ a, (children a).Nodup

variable {children} {a b c c' : α} {calls : Nat} {visited : List α}

theorem mapM_forall₂ {β γ : Type} {f : β → Option γ} {bs : List β} {cs : List γ} :
    bs.mapM f = some cs → List.Forall₂ (fun b c => f b = some c) bs cs := by
  induction bs generalizing cs with
  | nil =>
    intro h
    cases h
    exact .nil
  | cons b bs ih =>
    intro h
    rw [List.mapM_cons] at h
    obtain ⟨d, hd, h⟩ := Option.bind_eq_some_iff.mp h
    obtain ⟨ds, hds, h⟩ := Option.bind_eq_some_iff.mp h
    cases h
    exact .cons hd (ih hds)

/-- **One call**: its start, and behind it what the calls for its children have visited. -/
theorem walk_cases (h : walk children calls a = some visited) :
    ∃ calls' parts, calls = calls' + 1 ∧
      List.Forall₂ (fun c part => walk children calls' c = some part) (children a) parts ∧
      visited = a :: parts.flatten := by
  cases calls with
  | zero => cases h
  | succ calls =>
    obtain ⟨parts, hparts, rfl⟩ := Option.map_eq_some_iff.mp h
    exact ⟨calls, parts, rfl, mapM_forall₂ hparts, rfl⟩

/-- What is in a part, is in the part of a child. -/
theorem part_of_mem {β : Type} {R : α → β → Prop} {bs : List α} {parts : List β} {part : β}
    (h : List.Forall₂ R bs parts) (hpart : part ∈ parts) : ∃ b ∈ bs, R b part := by
  induction h with
  | nil => exact absurd hpart List.not_mem_nil
  | cons hfirst _ ih =>
    rcases List.mem_cons.mp hpart with rfl | hpart
    · exact ⟨_, List.mem_cons_self, hfirst⟩
    · obtain ⟨b, hb, hR⟩ := ih hpart
      exact ⟨b, List.mem_cons_of_mem _ hb, hR⟩

theorem mem_of_part {β : Type} {R : α → β → Prop} {bs : List α} {parts : List β}
    (h : List.Forall₂ R bs parts) (hb : b ∈ bs) : ∃ part ∈ parts, R b part := by
  induction h with
  | nil => exact absurd hb List.not_mem_nil
  | cons hfirst _ ih =>
    rcases List.mem_cons.mp hb with rfl | hb
    · exact ⟨_, List.mem_cons_self, hfirst⟩
    · obtain ⟨part, hpart, hR⟩ := ih hb
      exact ⟨part, List.mem_cons_of_mem _ hpart, hR⟩

/-- **What is visited is what is below the start**, by induction on the calls. -/
theorem mem_walk (h : walk children calls a = some visited) :
    b ∈ visited ↔ Relation.ReflTransGen (Child children) b a := by
  induction calls generalizing a b visited with
  | zero => cases h
  | succ calls ih =>
    obtain ⟨calls', parts, hcalls, hparts, rfl⟩ := walk_cases h
    obtain rfl := Nat.succ.inj hcalls
    rw [List.mem_cons, List.mem_flatten]
    constructor
    · rintro (rfl | ⟨part, hpart, hb⟩)
      · exact .refl
      · obtain ⟨c, hc, hwalk⟩ := part_of_mem hparts hpart
        exact ((ih hwalk).mp hb).tail hc
    · intro hway
      rcases Relation.ReflTransGen.cases_tail hway with rfl | ⟨c, hrest, hc⟩
      · exact Or.inl rfl
      · obtain ⟨part, hpart, hwalk⟩ := mem_of_part hparts hc
        exact Or.inr ⟨part, hpart, (ih hwalk).mpr hrest⟩

/-- A relation over what is visited, which holds from a start to what is below it and across the parts of
    its children. -/
theorem walk_pairwise {R : α → α → Prop}
    (hstart : ∀ {a b}, Relation.TransGen (Child children) b a → R a b)
    (hacross : ∀ a, (children a).Pairwise fun c c' => ∀ x y,
      Relation.ReflTransGen (Child children) x c → Relation.ReflTransGen (Child children) y c' → R x y)
    (hwalk : walk children calls a = some visited) : visited.Pairwise R := by
  induction calls generalizing a visited with
  | zero => cases hwalk
  | succ calls ih =>
    obtain ⟨calls', parts, hcalls, hparts, rfl⟩ := walk_cases hwalk
    obtain rfl := Nat.succ.inj hcalls
    refine List.pairwise_cons.mpr ⟨fun b hb => ?_, List.pairwise_flatten.mpr ⟨fun part hpart => ?_, ?_⟩⟩
    · obtain ⟨part, hpart, hb⟩ := List.mem_flatten.mp hb
      obtain ⟨c, hc, hpartwalk⟩ := part_of_mem hparts hpart
      exact hstart (Relation.TransGen.tail' ((mem_walk hpartwalk).mp hb) hc)
    · obtain ⟨c, -, hpartwalk⟩ := part_of_mem hparts hpart
      exact ih hpartwalk
    · have hchildren := hacross a
      clear hwalk
      generalize children a = cs at hparts hchildren
      induction hparts with
      | nil => exact .nil
      | @cons c part cs parts hfirst hrest ihparts =>
        obtain ⟨hhead, htail⟩ := List.pairwise_cons.mp hchildren
        refine List.pairwise_cons.mpr ⟨fun part' hpart' x hx y hy => ?_, ihparts htail⟩
        obtain ⟨c', hc', hpartwalk⟩ := part_of_mem hrest hpart'
        exact hhead c' hc' x y ((mem_walk hfirst).mp hx) ((mem_walk hpartwalk).mp hy)

namespace Forest

variable (h : Forest children)

include h

/-- A step up is the only one. -/
theorem parent_below (hchild : Child children b a) (hway : Relation.TransGen (Child children) b c) :
    Relation.ReflTransGen (Child children) a c := by
  obtain ⟨p, hp, hrest⟩ := Relation.TransGen.head'_iff.mp hway
  rwa [h.unique b a p hchild hp]

/-- **Below two children of one parent** is nothing. -/
theorem apart (hc : Child children c a) (hc' : Child children c' a) (hne : c ≠ c')
    (hb : Relation.ReflTransGen (Child children) b c) (hb' : Relation.ReflTransGen (Child children) b c') :
    False := by
  have hunique : Relator.RightUnique (Child children) := fun x y z hy hz => h.unique x y z hy hz
  -- the ways up from one place lie on each other, so one child would be above the other
  have hstep : ∀ {c c'}, Child children c a → Child children c' a → c ≠ c' →
      ¬ Relation.ReflTransGen (Child children) c c' := by
    intro c c' hc hc' hne hway
    rcases Relation.reflTransGen_iff_eq_or_transGen.mp hway with rfl | hway
    · exact hne rfl
    · exact h.acyclic a ((Relation.TransGen.tail' (h.parent_below hc hway) hc'))
  rcases Relation.ReflTransGen.total_of_right_unique hunique hb hb' with hway | hway
  · exact hstep hc hc' hne hway
  · exact hstep hc' hc hne.symm hway

/-- No parent is below its child. -/
theorem not_below_child (hc : Child children c a) :
    ¬ Relation.ReflTransGen (Child children) a c :=
  fun hway => h.acyclic a (Relation.TransGen.tail' hway hc)

/-- **Nothing twice.** -/
theorem walk_nodup (hwalk : walk children calls a = some visited) : visited.Nodup := by
  refine walk_pairwise (fun {a b} hway => ?_) (fun a => ?_) hwalk
  · rintro rfl
    exact h.acyclic a hway
  · refine (h.nodup a).imp_of_mem fun {c c'} hc hc' hne x y hx hy => ?_
    rintro rfl
    exact h.apart hc hc' hne hx hy

/-- **Parents first**: nothing before what it is below. -/
theorem walk_parents (hwalk : walk children calls a = some visited) :
    visited.Pairwise fun x y => ¬ Relation.TransGen (Child children) x y := by
  refine walk_pairwise (fun {a b} hway hback => h.acyclic a (hback.trans hway)) (fun a => ?_) hwalk
  refine (h.nodup a).imp_of_mem fun {c c'} hc hc' hne x y hx hy hway => ?_
  exact h.apart hc hc' hne hx (hway.to_reflTransGen.trans hy)

/-- **Siblings in the order of the children.** -/
theorem walk_siblings {R : α → α → Prop} (horder : ∀ a, (children a).Pairwise R)
    (hwalk : walk children calls a = some visited) :
    visited.Pairwise fun x y => ∀ p, Child children x p → Child children y p → R x y := by
  refine walk_pairwise (fun {a b} hway p hx hy => ?_) (fun a => ?_) hwalk
  · exact absurd (h.parent_below hy hway) (h.not_below_child hx)
  · have hpairs := List.pairwise_and_iff.mpr ⟨h.nodup a, horder a⟩
    refine hpairs.imp_of_mem fun {c c'} hc hc' hpair x y hx hy p hxp hyp => ?_
    obtain ⟨hne, hR⟩ := hpair
    rcases Relation.reflTransGen_iff_eq_or_transGen.mp hx with rfl | hx
    · rcases Relation.reflTransGen_iff_eq_or_transGen.mp hy with rfl | hy
      · exact hR
      · obtain rfl := h.unique _ _ _ hc hxp
        exact absurd (h.parent_below hyp hy) (h.not_below_child hc')
    · have hpc := h.parent_below hxp hx
      rcases Relation.reflTransGen_iff_eq_or_transGen.mp hy with rfl | hy
      · obtain rfl := h.unique _ _ _ hc' hyp
        exact absurd hpc (h.not_below_child hc)
      · exact absurd (h.parent_below hyp hy) fun hpc' => h.apart hc hc' hne hpc hpc'

end Forest

theorem mapM_isSome {β γ : Type} {f : β → Option γ} {bs : List β} (h : ∀ b ∈ bs, (f b).isSome = true) :
    (bs.mapM f).isSome = true := by
  induction bs with
  | nil => rfl
  | cons b bs ih =>
    rw [List.forall_mem_cons] at h
    obtain ⟨c, hc⟩ := Option.isSome_iff_exists.mp h.1
    obtain ⟨cs, hcs⟩ := Option.isSome_iff_exists.mp (ih h.2)
    rw [List.mapM_cons, hc, hcs]
    rfl

/-- **Enough calls**: as many as the longest way up to the start has places. -/
theorem walk_isSome (h : ∀ chain : List α, chain.IsChain (Child children) →
      chain.getLast? = some a → chain.length ≤ calls) : (walk children calls a).isSome = true := by
  induction calls generalizing a with
  | zero => exact absurd (h [a] (List.isChain_singleton a) rfl) (Nat.not_succ_le_zero 0)
  | succ calls ih =>
    rw [walk, Option.isSome_map]
    refine mapM_isSome fun c hc => ih fun chain hchain hlast => ?_
    have hlonger : (chain ++ [a]).IsChain (Child children) := by
      refine List.isChain_append.mpr ⟨hchain, List.isChain_singleton a, fun last hmem b hb => ?_⟩
      obtain rfl : c = last := Option.some.inj (hlast.symm.trans hmem)
      obtain rfl : a = b := by simpa using hb
      exact hc
    have hlength := h (chain ++ [a]) hlonger List.getLast?_concat
    rw [List.length_append] at hlength
    exact Nat.le_of_succ_le_succ hlength

end ControlPlane.Descent
