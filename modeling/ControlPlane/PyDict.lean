/-
  PYTHON DICTS as lists of entries, in the order in which the keys were first set.

  `d[key] = value` replaces the value of a key that is there and appends one that is not; the object
  that stands for the key stays the first.  A list of entries is a dict when its keys are distinct
  (`Keyed`), which every assignment keeps.
-/
import Mathlib.Data.List.Nodup
import Mathlib.Data.List.Infix

namespace ControlPlane.PyDict

variable {κ ν : Type} [DecidableEq κ]

/-- `d.keys()`. -/
def keys (d : List (κ × ν)) : List κ := d.map Prod.fst

/-- `d[key] = value`. -/
def set (d : List (κ × ν)) (key : κ) (value : ν) : List (κ × ν) :=
  if key ∈ keys d then d.map fun e => if e.1 = key then (e.1, value) else e
  else d ++ [(key, value)]

/-- `d.setdefault(key, value)`. -/
def setdefault (d : List (κ × ν)) (key : κ) (value : ν) : List (κ × ν) :=
  if key ∈ keys d then d else d ++ [(key, value)]

/-- `dict.fromkeys(names)`, whose keys are what counts. -/
def fromKeys (names : List κ) : List κ :=
  names.foldl (fun seen name => if name ∈ seen then seen else seen ++ [name]) []

/-- No key is there twice. -/
def Keyed (d : List (κ × ν)) : Prop := (keys d).Nodup

variable {d : List (κ × ν)} {key k : κ} {value v : ν}

/-- A key that is there keeps its place. -/
theorem keys_set : keys (set d key value) = if key ∈ keys d then keys d else keys d ++ [key] := by
  unfold set
  split
  · rw [keys, keys, List.map_map]
    refine List.map_congr_left fun e _ => ?_
    simp only [Function.comp]
    split <;> rfl
  · rw [keys, List.map_append]
    rfl

theorem keys_setdefault :
    keys (setdefault d key value) = if key ∈ keys d then keys d else keys d ++ [key] := by
  unfold setdefault
  split
  · rfl
  · rw [keys, List.map_append]
    rfl

theorem mem_keys_set : k ∈ keys (set d key value) ↔ k = key ∨ k ∈ keys d := by
  rw [keys_set]
  split
  · rename_i hkey
    exact ⟨Or.inr, fun h => h.elim (fun h => h ▸ hkey) id⟩
  · rw [List.mem_append, List.mem_singleton, or_comm]

theorem mem_keys_setdefault : k ∈ keys (setdefault d key value) ↔ k = key ∨ k ∈ keys d := by
  rw [keys_setdefault]
  split
  · rename_i hkey
    exact ⟨Or.inr, fun h => h.elim (fun h => h ▸ hkey) id⟩
  · rw [List.mem_append, List.mem_singleton, or_comm]

/-! Lookup, by any lawful equality -/

section Lookup

variable [BEq κ] [LawfulBEq κ]

omit [DecidableEq κ] in
theorem lookup_isSome : (d.lookup k).isSome = true ↔ k ∈ keys d := by
  rw [List.lookup_isSome_iff, keys, List.mem_map]
  constructor
  · rintro ⟨e, he, hk⟩
    exact ⟨e, he, (beq_iff_eq.mp hk).symm⟩
  · rintro ⟨e, he, rfl⟩
    exact ⟨e, he, beq_self_eq_true _⟩

omit [DecidableEq κ] in
theorem lookup_eq_none : d.lookup k = none ↔ k ∉ keys d := by
  rw [← lookup_isSome, Bool.not_eq_true, Option.isSome_eq_false_iff, Option.isNone_iff_eq_none]

omit [DecidableEq κ] in
theorem mem_keys_of_lookup (h : d.lookup k = some v) : k ∈ keys d :=
  lookup_isSome.mp (by rw [h]; rfl)

omit [DecidableEq κ] in
theorem exists_lookup (h : k ∈ keys d) : ∃ v, d.lookup k = some v :=
  Option.isSome_iff_exists.mp (lookup_isSome.mpr h)

omit [DecidableEq κ] in
theorem mem_of_lookup (h : d.lookup k = some v) : (k, v) ∈ d := by
  obtain ⟨before, after, rfl, -⟩ := List.lookup_eq_some_iff.mp h
  exact List.mem_append_right _ List.mem_cons_self

theorem lookup_append_new (hkey : key ∉ keys d) :
    (d ++ [(key, value)]).lookup k = if k = key then some value else d.lookup k := by
  rw [List.lookup_append]
  split
  · rename_i hk
    rw [hk, lookup_eq_none.mpr hkey]
    simp
  · rename_i hk
    simp [List.lookup_cons, beq_eq_false_iff_ne.mpr hk]

theorem lookup_set : (set d key value).lookup k = if k = key then some value else d.lookup k := by
  have hmap : ∀ d : List (κ × ν),
      (d.map fun e => if e.1 = key then (e.1, value) else e).lookup k =
        if k = key then (d.lookup k).map fun _ => value else d.lookup k := by
    intro d
    induction d with
    | nil => simp
    | cons e d ih =>
      rw [List.map_cons, List.lookup_cons, List.lookup_cons, ih]
      by_cases he : e.1 = key
      · rw [if_pos he, he]
        by_cases hk : k = key
        · simp [hk]
        · simp [beq_eq_false_iff_ne.mpr hk, if_neg hk]
      · rw [if_neg he]
        by_cases hk : k = key
        · subst hk
          have hne : (k == e.1) = false := beq_eq_false_iff_ne.mpr fun h => he h.symm
          simp [hne]
        · simp [if_neg hk]
  unfold set
  split
  · rename_i hkey
    rw [hmap]
    split
    · rename_i hk
      obtain ⟨old, hold⟩ := exists_lookup (hk.symm ▸ hkey)
      rw [hold, Option.map_some]
    · rfl
  · rename_i hkey
    exact lookup_append_new hkey

theorem lookup_setdefault : (setdefault d key value).lookup k =
    if k = key ∧ key ∉ keys d then some value else d.lookup k := by
  unfold setdefault
  split
  · rename_i hkey
    rw [if_neg fun h => h.2 hkey]
  · rename_i hkey
    rw [lookup_append_new hkey]
    simp [hkey]

end Lookup

omit [DecidableEq κ] in
theorem keyed_nil : Keyed ([] : List (κ × ν)) := List.nodup_nil

omit [DecidableEq κ] in
theorem Keyed.append_new (h : Keyed d) (hkey : key ∉ keys d) : (keys d ++ [key]).Nodup :=
  List.nodup_append.mpr ⟨h, List.nodup_singleton _, fun a ha b hb hab => by
    rw [List.mem_singleton] at hb
    exact hkey (hb ▸ hab ▸ ha)⟩

theorem Keyed.set (h : Keyed d) (key : κ) (value : ν) : Keyed (set d key value) := by
  unfold Keyed
  rw [keys_set]
  split
  · exact h
  · rename_i hkey
    exact h.append_new hkey

theorem Keyed.setdefault (h : Keyed d) (key : κ) (value : ν) : Keyed (setdefault d key value) := by
  unfold Keyed
  rw [keys_setdefault]
  split
  · exact h
  · rename_i hkey
    exact h.append_new hkey

/-- **A dict comprehension whose keys are new and distinct** has its entries in their order. -/
theorem foldl_set {α : Type} {key : α → κ} {value : α → ν} {as : List α}
    (h : (keys d ++ as.map key).Nodup) :
    as.foldl (fun d a => set d (key a) (value a)) d = d ++ as.map fun a => (key a, value a) := by
  induction as generalizing d with
  | nil => exact (List.append_nil d).symm
  | cons a as ih =>
    rw [List.map_cons, List.append_cons] at h
    have hnew : key a ∉ keys d := fun hmem =>
      (List.nodup_append'.mp (List.nodup_append'.mp h).1).2.2 hmem List.mem_cons_self
    have hset : set d (key a) (value a) = d ++ [(key a, value a)] := if_neg hnew
    rw [List.foldl_cons, hset, ih, List.append_assoc]
    · rfl
    · rw [keys, List.map_append]
      exact h

end ControlPlane.PyDict
