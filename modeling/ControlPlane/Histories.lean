/-
  HISTORIES: what holds at the end of a list of events, and throughout it.

  A property of histories that one more event keeps exactly under a condition holds of a history if
  and only if the condition holds of every event in it, each seen with what came BEFORE
  (`holds_iff`).  For a property that is asked throughout, it is enough to know what an event does
  where the property holds (`throughout_iff`).
-/
import Mathlib.Data.List.Infix

namespace ControlPlane.Histories

variable {α : Type} {P : List α → Prop} {C : List α → α → Prop}

theorem holds_iff (hnil : P []) (hsnoc : ∀ before a, P (before ++ [a]) ↔ P before ∧ C before a)
    (history : List α) : P history ↔ ∀ before a, before ++ [a] <+: history → C before a := by
  induction history using List.reverseRecOn with
  | nil =>
    refine iff_of_true hnil fun before a hbefore => ?_
    exact absurd (List.prefix_nil.mp hbefore)
      (List.append_ne_nil_of_right_ne_nil _ (List.cons_ne_nil _ _))
  | append_singleton history last ih =>
    rw [hsnoc, ih]
    constructor
    · rintro ⟨hearlier, hlast⟩ before a hbefore
      rcases List.prefix_concat_iff.mp hbefore with heq | hbefore
      · obtain ⟨rfl, hsame⟩ := List.append_inj' heq rfl
        rwa [(List.cons.inj hsame).1]
      · exact hearlier before a hbefore
    · exact fun hall => ⟨fun before a hbefore => hall before a (List.prefix_concat_iff.mpr (Or.inr hbefore)),
        hall history last (List.prefix_refl _)⟩

theorem throughout_iff (hnil : P []) (hsnoc : ∀ before a, P before → (P (before ++ [a]) ↔ C before a))
    (history : List α) : (∀ before, before <+: history → P before) ↔
      ∀ before a, before ++ [a] <+: history → C before a := by
  refine holds_iff (P := fun history => ∀ before, before <+: history → P before)
    (fun before hbefore => by rwa [List.prefix_nil.mp hbefore]) (fun earlier a => ?_) history
  constructor
  · intro hall
    have hearlier : ∀ before, before <+: earlier → P before := fun before hbefore =>
      hall before (hbefore.trans (List.prefix_append _ _))
    exact ⟨hearlier, (hsnoc _ _ (hearlier _ (List.prefix_refl _))).mp (hall _ (List.prefix_refl _))⟩
  · rintro ⟨hearlier, hlast⟩ before hbefore
    rcases List.prefix_concat_iff.mp hbefore with rfl | hbefore
    · exact (hsnoc _ _ (hearlier _ (List.prefix_refl _))).mpr hlast
    · exact hearlier before hbefore

end ControlPlane.Histories
