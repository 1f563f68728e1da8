/-
  SORTING AND ORDER: what does not depend on the order of the input?

  Sorting by a key forgets the order of the input when no two items share a key, and a sorted set of
  items forgets even how often they occur.
-/
import Mathlib.Data.List.Dedup
import Mathlib.Data.List.Sort

namespace ControlPlane.Sorting

variable {α κ : Type} [LinearOrder κ] {key : α → κ} {xs ys : List α}

/-- `sorted(items, key=key)`, which is stable. -/
def sortedBy (key : α → κ) (items : List α) : List α :=
  items.insertionSort fun a b => key a ≤ key b

theorem sortedBy_perm (key : α → κ) (items : List α) : (sortedBy key items).Perm items :=
  List.perm_insertionSort _ items

theorem mem_sortedBy {a : α} : a ∈ sortedBy key xs ↔ a ∈ xs := (sortedBy_perm key xs).mem_iff

/-- The first of the sorted items has the least key. -/
theorem head_le {a b : α} (h : (sortedBy key xs).head? = some a) (hb : b ∈ xs) : key a ≤ key b := by
  obtain ⟨rest, hrest⟩ := List.head?_eq_some_iff.mp h
  have hsorted : (a :: rest).Pairwise fun a b => key a ≤ key b :=
    hrest ▸ List.pairwise_insertionSort _ xs
  rcases List.mem_cons.mp (hrest ▸ mem_sortedBy.mpr hb) with rfl | hrest
  · exact le_rfl
  · exact (List.pairwise_cons.mp hsorted).1 b hrest

/-- More items are sorted around the ones that were there. -/
theorem sortedBy_sublist {key' : α → κ} (hkey : Function.Injective key')
    (hagree : ∀ a ∈ xs, key a = key' a) (h : xs.Subperm ys) :
    (sortedBy key xs).Sublist (sortedBy key' ys) := by
  have hsorted : (sortedBy key xs).Pairwise fun a b => key' a ≤ key' b := by
    refine (List.pairwise_insertionSort (fun a b => key a ≤ key b) xs).imp_of_mem ?_
    intro a b ha hb hab
    rwa [hagree a (mem_sortedBy.mp ha), hagree b (mem_sortedBy.mp hb)] at hab
  have : Std.Antisymm fun a b => key' a ≤ key' b := ⟨fun _ _ hab hba => hkey (le_antisymm hab hba)⟩
  exact List.sublist_insertionSort' hsorted ((sortedBy_perm key xs).subperm.trans h)

/-- Items with distinct keys are sorted the same way, whatever their order was. -/
theorem sortedBy_eq_of_perm (h : xs.Perm ys) (hkeys : (xs.map key).Nodup) :
    sortedBy key xs = sortedBy key ys := by
  have hperm : (sortedBy key xs).Perm (sortedBy key ys) :=
    (sortedBy_perm key xs).trans (h.trans (sortedBy_perm key ys).symm)
  refine hperm.eq_of_pairwise (fun a b ha hb hab hba => ?_)
    (List.pairwise_insertionSort _ xs) (List.pairwise_insertionSort _ ys)
  have ha' : a ∈ xs := mem_sortedBy.mp ha
  have hb' : b ∈ xs := h.mem_iff.mpr (mem_sortedBy.mp hb)
  exact List.inj_on_of_nodup_map hkeys ha' hb' (le_antisymm hab hba)

/-- `sorted(set(items), key=key)`. -/
def sortedSet [DecidableEq α] (key : α → κ) (items : List α) : List α := sortedBy key items.dedup

theorem mem_sortedSet [DecidableEq α] {a : α} : a ∈ sortedSet key xs ↔ a ∈ xs := by
  rw [sortedSet, mem_sortedBy, List.mem_dedup]

/-- Equal sets are sorted the same way. -/
theorem sortedSet_eq_of_mem [DecidableEq α] (hkey : Function.Injective key)
    (h : ∀ a, a ∈ xs ↔ a ∈ ys) : sortedSet key xs = sortedSet key ys := by
  refine sortedBy_eq_of_perm ?_ ((List.nodup_dedup xs).map hkey)
  refine (List.perm_ext_iff_of_nodup (List.nodup_dedup xs) (List.nodup_dedup ys)).mpr fun a => ?_
  rw [List.mem_dedup, List.mem_dedup, h]

end ControlPlane.Sorting
