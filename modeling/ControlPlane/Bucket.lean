/-
  BUCKETS: an object store as a list of keyed objects.

  A put replaces what is stored under its key, a delete removes it.  Whoever puts objects under
  keys that were free, and then deletes all of them, has the bucket as it was: puts under keys that
  are cleared do not show (`clear_put`), and clearing free keys changes nothing (`clear_free`).
-/
import Mathlib.Data.List.Basic

namespace ControlPlane.Bucket

variable {α : Type}

/-- The objects of a bucket, under their keys. -/
abbrev Objects (α : Type) : Type := List (String × α)

def delete (objects : Objects α) (key : String) : Objects α :=
  objects.filter fun o => o.1 ≠ key

def put (objects : Objects α) (key : String) (body : α) : Objects α :=
  (key, body) :: delete objects key

def get (objects : Objects α) (key : String) : Option α := objects.lookup key

/-- Nothing is stored under the key. -/
def Free (objects : Objects α) (key : String) : Prop := ∀ o ∈ objects, o.1 ≠ key

/-- The bucket without the objects under these keys. -/
def clear (objects : Objects α) (keys : List String) : Objects α :=
  objects.filter fun o => o.1 ∉ keys

variable {objects : Objects α} {key key' : String} {keys : List String} {body : α}
  {o : String × α}

/-! ## Deleting what was put -/

theorem mem_delete : o ∈ delete objects key ↔ o ∈ objects ∧ o.1 ≠ key := by
  simp [delete]

theorem clear_nil : clear objects [] = objects :=
  List.filter_eq_self.mpr fun _ _ => decide_eq_true List.not_mem_nil

/-- Clearing is deleting one after the other. -/
theorem clear_delete : clear (delete objects key) keys = clear objects (key :: keys) := by
  rw [clear, delete, List.filter_filter]
  refine List.filter_congr fun o _ => ?_
  simp [not_or, Bool.and_comm]

/-- What is put under a key that is cleared does not show. -/
theorem clear_put (hkey : key ∈ keys) : clear (put objects key body) keys = clear objects keys := by
  rw [put, clear, List.filter_cons_of_neg (by simpa using hkey)]
  refine clear_delete.trans (List.filter_congr fun o _ => ?_)
  simp only [List.mem_cons, not_or, decide_eq_decide, and_iff_right_iff_imp]
  exact fun hnot heq => hnot (heq ▸ hkey)

theorem clear_free (h : ∀ key ∈ keys, Free objects key) : clear objects keys = objects :=
  List.filter_eq_self.mpr fun o ho => decide_eq_true fun hkey => h _ hkey o ho rfl

/-- With distinct keys, a deletion takes out one object. -/
theorem perm_delete (hkeys : (objects.map Prod.fst).Nodup) (h : (key, body) ∈ objects) :
    ((key, body) :: delete objects key).Perm objects := by
  induction objects with
  | nil => exact absurd h List.not_mem_nil
  | cons o objects ih =>
    rw [List.map_cons, List.nodup_cons] at hkeys
    by_cases ho : o.1 = key
    · have hfree : ∀ o' ∈ objects, o'.1 ≠ key := fun o' ho' heq =>
        hkeys.1 (ho ▸ heq ▸ List.mem_map_of_mem ho')
      have heq : (key, body) = o := by
        rcases List.mem_cons.mp h with heq | hmem
        · exact heq
        · exact absurd rfl (hfree _ hmem)
      rw [heq, delete, List.filter_cons_of_neg (by simpa using ho),
        List.filter_eq_self.mpr fun o' ho' => decide_eq_true (hfree o' ho')]
    · have hmem : (key, body) ∈ objects := by
        rcases List.mem_cons.mp h with rfl | hmem
        · exact absurd rfl ho
        · exact hmem
      rw [delete, List.filter_cons_of_pos (by simpa using ho)]
      exact (List.Perm.swap ..).trans ((ih hkeys.2 hmem).cons o)

/-! ## Reading what was put -/

theorem get_put : get (put objects key body) key = some body := by
  simp [get, put]

theorem get_delete_of_ne (hne : key ≠ key') : get (delete objects key') key = get objects key := by
  unfold get delete
  induction objects with
  | nil => rfl
  | cons o objects ih =>
    by_cases ho : o.1 = key'
    · rw [List.filter_cons_of_neg (by simpa using ho), ih, List.lookup_cons]
      rw [beq_eq_false_iff_ne.mpr (ho ▸ hne)]
    · rw [List.filter_cons_of_pos (by simpa using ho), List.lookup_cons, List.lookup_cons, ih]

theorem get_put_of_ne (hne : key ≠ key') : get (put objects key' body) key = get objects key := by
  rw [put, get, List.lookup_cons, beq_eq_false_iff_ne.mpr hne]
  exact get_delete_of_ne hne

end ControlPlane.Bucket
