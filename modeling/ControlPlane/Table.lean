/-
  TABLES AS LISTS OF KEYED ROWS.

  A database table is a list of rows with a key.  `modify` is `UPDATE … WHERE key = k`: it changes
  the row with that key and leaves every other row, and the order of rows, alone.  Two things are
  proved of it here:

  * membership: a row after the update is an untouched row, or the updated one,
  * what a table COVERS: each row stands for a list of items (`g`), the table for their
    concatenation.  An update that keeps a row's items keeps the cover; an update that empties a
    row takes exactly that row's items out of it.
-/
import Mathlib.Data.List.Nodup
import Mathlib.Data.List.Pairwise
import Mathlib.Data.List.Perm.Basic

namespace ControlPlane.Table

variable {ρ κ α : Type} [DecidableEq κ] (key : ρ → κ)

/-- `UPDATE … SET row = f(row) WHERE key = k`. -/
def modify (k : κ) (f : ρ → ρ) (rows : List ρ) : List ρ :=
  rows.map fun r => if key r = k then f r else r

variable {key} {k : κ} {f : ρ → ρ} {rows : List ρ} {r r' : ρ}

/-! ## Membership -/

theorem mem_modify : r' ∈ modify key k f rows ↔
    (∃ r ∈ rows, key r = k ∧ r' = f r) ∨ (r' ∈ rows ∧ key r' ≠ k) := by
  simp only [modify, List.mem_map]
  constructor
  · rintro ⟨r, hr, rfl⟩
    by_cases hk : key r = k
    · exact Or.inl ⟨r, hr, hk, if_pos hk⟩
    · rw [if_neg hk]
      exact Or.inr ⟨hr, hk⟩
  · rintro (⟨r, hr, hk, rfl⟩ | ⟨hr, hk⟩)
    · exact ⟨r, hr, if_pos hk⟩
    · exact ⟨r', hr, if_neg hk⟩

/-- The row an old row has become. -/
theorem mem_modify_of_mem (hr : r ∈ rows) :
    (if key r = k then f r else r) ∈ modify key k f rows :=
  List.mem_map.mpr ⟨r, hr, rfl⟩

/-- A column that the update leaves alone. -/
theorem modify_map {β : Type} {g : ρ → β} (hf : ∀ r ∈ rows, key r = k → g (f r) = g r) :
    (modify key k f rows).map g = rows.map g := by
  rw [modify, List.map_map]
  refine List.map_congr_left fun r hr => ?_
  simp only [Function.comp]
  split
  · rename_i hk
    exact hf r hr hk
  · rfl

theorem modify_map_key (hf : ∀ r ∈ rows, key r = k → key (f r) = key r) :
    (modify key k f rows).map key = rows.map key :=
  modify_map hf

theorem modify_eq_nil : modify key k f rows = [] ↔ rows = [] := List.map_eq_nil_iff

omit [DecidableEq κ] in
/-- Two rows with one key are one row. -/
theorem eq_of_key (hrows : (rows.map key).Nodup) (hr : r ∈ rows) (hr' : r' ∈ rows)
    (hk : key r = key r') : r = r' :=
  List.inj_on_of_nodup_map hrows hr hr' hk

/-! ## Get or create -/

/-- What "update the row with the key, or create it" leaves behind: one row has the key, and it is as
    the update makes it. -/
def Kept (key : ρ → κ) (k : κ) (f : ρ → ρ) (rows : List ρ) : Prop :=
  ∃ r, (rows.filter fun r => key r = k) = [r] ∧ f r = r

theorem Kept.modify_eq (h : Kept key k f rows) : modify key k f rows = rows := by
  obtain ⟨r, hone, hfix⟩ := h
  refine (List.map_congr_left fun r' hr' => ?_).trans (List.map_id rows)
  split
  · rename_i hk
    have hmem : r' ∈ rows.filter fun r => key r = k := List.mem_filter.mpr ⟨hr', decide_eq_true hk⟩
    obtain rfl := List.mem_singleton.mp (hone ▸ hmem)
    exact hfix
  · rfl

/-- Updating twice is updating once. -/
theorem modify_modify (hf : ∀ r, key (f r) = key r) (hidem : ∀ r, f (f r) = f r) :
    modify key k f (modify key k f rows) = modify key k f rows := by
  rw [modify, modify, List.map_map]
  refine List.map_congr_left fun r _ => ?_
  simp only [Function.comp_apply]
  by_cases hk : key r = k
  · rw [if_pos hk, if_pos ((hf r).trans hk), hidem]
  · rw [if_neg hk, if_neg hk]

theorem filter_modify (hf : ∀ r, key (f r) = key r) :
    ((modify key k f rows).filter fun r => key r = k) =
      (rows.filter fun r => key r = k).map f := by
  induction rows with
  | nil => rfl
  | cons r rows ih =>
    rw [modify, List.map_cons]
    by_cases hk : key r = k
    · have hfk : key (f r) = k := (hf r).trans hk
      simp only [List.filter_cons, hk, hfk, decide_true, if_true, List.map_cons]
      exact congrArg (f r :: ·) ih
    · simp only [List.filter_cons, hk, decide_false, Bool.false_eq_true, if_false]
      exact ih

theorem kept_modify (hf : ∀ r, key (f r) = key r) (hidem : ∀ r, f (f r) = f r)
    (h : (rows.filter fun r => key r = k) = [r]) : Kept key k f (modify key k f rows) :=
  ⟨f r, by rw [filter_modify hf, h, List.map_singleton], hidem r⟩

theorem filter_append_new (hnew : key r = k) (h : (rows.filter fun r => key r = k) = []) :
    ((rows ++ [r]).filter fun r => key r = k) = [r] := by
  simp only [List.filter_append, h, List.nil_append, List.filter_cons, hnew, decide_true, if_true,
    List.filter_nil]

theorem kept_append (hnew : key r = k) (hfix : f r = r)
    (h : (rows.filter fun r => key r = k) = []) : Kept key k f (rows ++ [r]) :=
  ⟨r, filter_append_new hnew h, hfix⟩

/-! ## Lookup -/

section Lookup

variable [BEq κ] [LawfulBEq κ] {entries : List (κ × α)} {a : α}

omit [DecidableEq κ] in
theorem mem_of_lookup (h : entries.lookup k = some a) : (k, a) ∈ entries := by
  obtain ⟨before, after, hentries, -⟩ := List.lookup_eq_some_iff.mp h
  rw [hentries]
  exact List.mem_append_right _ List.mem_cons_self

omit [DecidableEq κ] in
/-- With distinct keys every entry is found. -/
theorem lookup_of_mem (hkeys : (entries.map Prod.fst).Nodup) (h : (k, a) ∈ entries) :
    entries.lookup k = some a := by
  have hsome : (entries.lookup k).isSome = true :=
    List.lookup_isSome_iff.mpr ⟨(k, a), h, beq_self_eq_true k⟩
  obtain ⟨found, hfound⟩ := Option.isSome_iff_exists.mp hsome
  have hsame : (k, found) = (k, a) := eq_of_key hkeys (mem_of_lookup hfound) h rfl
  rw [hfound, (Prod.mk.inj hsame).2]

end Lookup

/-! ## The cover -/

/-- An update that keeps what its row stands for keeps the cover. -/
theorem flatMap_modify {g : ρ → List α} (hf : ∀ r ∈ rows, key r = k → g (f r) = g r) :
    (modify key k f rows).flatMap g = rows.flatMap g := by
  rw [modify, List.flatMap_map]
  refine List.flatMap_congr fun r hr => ?_
  split
  · rename_i hk
    exact hf r hr hk
  · rfl

/-- An update that empties its row takes that row's items, and no others, out of the cover. -/
theorem flatMap_modify_drop {g : ρ → List α} (hrows : (rows.map key).Nodup) (hr : r ∈ rows)
    (hf : g (f r) = []) :
    (rows.flatMap g).Perm (g r ++ (modify key (key r) f rows).flatMap g) := by
  induction rows with
  | nil => cases hr
  | cons s rows ih =>
    simp only [List.map_cons, List.nodup_cons, List.mem_map, not_exists, not_and] at hrows
    obtain ⟨hs, hrest⟩ := hrows
    simp only [modify, List.map_cons, List.flatMap_cons]
    rcases List.mem_cons.mp hr with rfl | hr
    · -- the updated row comes first; no later row has its key
      have hsame : rows.flatMap g = (modify key (key r) f rows).flatMap g :=
        (flatMap_modify fun t ht hk => absurd hk (hs t ht)).symm
      rw [if_pos rfl, hf, List.nil_append, hsame]
      exact List.Perm.refl _
    · have hne : key s ≠ key r := fun hk => hs r hr hk.symm
      rw [if_neg hne]
      exact ((ih hrest hr).append_left (g s)).trans (List.perm_append_comm_assoc ..)

/-- A cover without repetition assigns every item to one row. -/
theorem existsUnique_of_cover {g : ρ → List α} {items : List α}
    (hcover : (rows.flatMap g).Perm items) (hitems : items.Nodup) {a : α} (ha : a ∈ items) :
    ∃! r, r ∈ rows ∧ a ∈ g r := by
  obtain ⟨r, hr, har⟩ := List.mem_flatMap.mp (hcover.mem_iff.mpr ha)
  refine ⟨r, ⟨hr, har⟩, fun r' ⟨hr', har'⟩ => ?_⟩
  by_contra hne
  have hdisj := (List.nodup_flatMap.mp (hcover.nodup_iff.mpr hitems)).2
  have : Std.Symm (Function.onFun List.Disjoint g) := ⟨fun _ _ h a ha hb => h hb ha⟩
  exact hdisj.forall hr' hr hne har' har

end ControlPlane.Table
