/-
  WRITES BY KEY: "update the row with this key, or create it", one row after another.

  A batch is written into a table by `putAll`.  Rows of the batch that share a key are written over
  one another, so what a table holds afterwards is, for every key of the batch, the LAST row with it
  (`mem_putAll`), in the place where the key first appeared; rows under other keys are untouched.
  Two consequences are what a caller wants to know:

  * the table gets as many rows as the batch has keys, which is one for each row exactly when the
    keys differ (`length_putAll_nil_iff`),
  * writing the same batch again changes nothing (`putAll_putAll`).
-/
import ControlPlane.Table
import Mathlib.Data.List.Dedup

namespace ControlPlane.Table

variable {ρ κ : Type} [DecidableEq κ] (key : ρ → κ)

/-- `update_or_create`, every other column being written. -/
def put (rows : List ρ) (new : ρ) : List ρ :=
  if key new ∈ rows.map key then modify key (key new) (fun _ => new) rows else rows ++ [new]

/-- One row after another. -/
def putAll (rows : List ρ) (batch : List ρ) : List ρ := batch.foldl (put key) rows

variable {key} {rows batch : List ρ} {new r : ρ}

/-! ## One write -/

theorem keys_put : (put key rows new).map key =
    if key new ∈ rows.map key then rows.map key else rows.map key ++ [key new] := by
  unfold put
  split
  · exact modify_map_key fun _ _ hk => hk.symm
  · rw [List.map_append, List.map_singleton]

theorem mem_put : r ∈ put key rows new ↔ r = new ∨ (r ∈ rows ∧ key r ≠ key new) := by
  unfold put
  split
  · rename_i hkey
    obtain ⟨old, hold, heq⟩ := List.mem_map.mp hkey
    rw [mem_modify]
    refine or_congr_left ⟨?_, fun h => ⟨old, hold, heq, h⟩⟩
    rintro ⟨_, _, _, h⟩
    exact h
  · rename_i hkey
    rw [List.mem_append, List.mem_singleton, or_comm]
    refine or_congr_right ⟨fun hr => ⟨hr, fun heq => hkey ?_⟩, And.left⟩
    exact heq ▸ List.mem_map_of_mem hr

theorem nodup_put (h : (rows.map key).Nodup) : ((put key rows new).map key).Nodup := by
  rw [keys_put]
  split
  · exact h
  · rename_i hkey
    exact List.nodup_append_comm.mp (List.nodup_cons.mpr ⟨hkey, h⟩)

/-! ## A batch -/

theorem nodup_putAll (h : (rows.map key).Nodup) : ((putAll key rows batch).map key).Nodup := by
  induction batch generalizing rows with
  | nil => exact h
  | cons new batch ih => exact ih (nodup_put h)

/-- A key that is there keeps its place, and new keys come behind. -/
theorem prefix_keys_putAll : rows.map key <+: (putAll key rows batch).map key := by
  induction batch generalizing rows with
  | nil => exact List.prefix_rfl
  | cons new batch ih =>
    refine List.IsPrefix.trans ?_ (@ih (put key rows new))
    rw [keys_put]
    split
    · exact List.prefix_rfl
    · exact List.prefix_append _ _

/-- The last row of the batch with a given key. -/
def LastOf (key : ρ → κ) (batch : List ρ) (r : ρ) : Prop :=
  ∃ before after, batch = before ++ r :: after ∧ ∀ later ∈ after, key later ≠ key r

omit [DecidableEq κ] in
theorem lastOf_cons : LastOf key (new :: batch) r ↔
    LastOf key batch r ∨ (r = new ∧ ∀ later ∈ batch, key later ≠ key r) := by
  constructor
  · rintro ⟨before, after, heq, hlater⟩
    cases before with
    | nil =>
      obtain ⟨rfl, rfl⟩ := List.cons.inj heq
      exact Or.inr ⟨rfl, hlater⟩
    | cons first before => exact Or.inl ⟨before, after, (List.cons.inj heq).2, hlater⟩
  · rintro (⟨before, after, rfl, hlater⟩ | ⟨rfl, hlater⟩)
    · exact ⟨new :: before, after, rfl, hlater⟩
    · exact ⟨[], batch, rfl, hlater⟩

/-- **Last writer wins.** -/
theorem mem_putAll : r ∈ putAll key rows batch ↔
    LastOf key batch r ∨ (r ∈ rows ∧ ∀ new ∈ batch, key new ≠ key r) := by
  induction batch generalizing rows with
  | nil =>
    refine ⟨fun h => Or.inr ⟨h, fun _ hnew => nomatch hnew⟩, ?_⟩
    rintro (⟨before, after, heq, -⟩ | ⟨h, -⟩)
    · exact absurd heq.symm (List.append_ne_nil_of_right_ne_nil _ (List.cons_ne_nil _ _))
    · exact h
  | cons new batch ih =>
    have hstep : putAll key rows (new :: batch) = putAll key (put key rows new) batch := rfl
    rw [hstep, ih, mem_put, lastOf_cons, List.forall_mem_cons]
    constructor
    · rintro (hlast | ⟨rfl | ⟨hr, hne⟩, hbatch⟩)
      · exact Or.inl (Or.inl hlast)
      · exact Or.inl (Or.inr ⟨rfl, hbatch⟩)
      · exact Or.inr ⟨hr, hne.symm, hbatch⟩
    · rintro ((hlast | ⟨rfl, hbatch⟩) | ⟨hr, hne, hbatch⟩)
      · exact Or.inl hlast
      · exact Or.inr ⟨Or.inl rfl, hbatch⟩
      · exact Or.inr ⟨Or.inr ⟨hr, hne.symm⟩, hbatch⟩

omit [DecidableEq κ] in
theorem LastOf.mem (h : LastOf key batch r) : r ∈ batch := by
  obtain ⟨before, after, rfl, -⟩ := h
  exact List.mem_append_right _ List.mem_cons_self

/-- Every key of the batch has a last row. -/
theorem exists_lastOf {k : κ} (h : k ∈ batch.map key) :
    ∃ last, LastOf key batch last ∧ key last = k := by
  induction batch with
  | nil => cases h
  | cons new batch ih =>
    by_cases hk : k ∈ batch.map key
    · obtain ⟨last, hlast, heq⟩ := ih hk
      exact ⟨last, lastOf_cons.mpr (Or.inl hlast), heq⟩
    · have hnew : key new = k := by
        rcases List.mem_cons.mp h with heq | hlater
        · exact heq.symm
        · exact absurd hlater hk
      refine ⟨new, lastOf_cons.mpr (Or.inr ⟨rfl, fun later hlater heq => hk ?_⟩), hnew⟩
      exact hnew ▸ heq ▸ List.mem_map_of_mem hlater

/-- Where keys do not repeat, every row is the last with its key. -/
theorem lastOf_of_nodup (hbatch : (batch.map key).Nodup) (h : r ∈ batch) : LastOf key batch r := by
  obtain ⟨last, hlast, heq⟩ := exists_lastOf (List.mem_map_of_mem (f := key) h)
  exact eq_of_key hbatch hlast.mem h heq ▸ hlast

/-! ## Into an empty table -/

theorem mem_putAll_nil : r ∈ putAll key [] batch ↔ LastOf key batch r := by
  rw [mem_putAll]
  exact or_iff_left fun h => nomatch h.1

theorem nodup_putAll_nil : ((putAll key [] batch).map key).Nodup := nodup_putAll List.nodup_nil

theorem keys_putAll_nil : ((putAll key [] batch).map key).Perm (batch.map key).dedup := by
  refine (List.perm_ext_iff_of_nodup nodup_putAll_nil (List.nodup_dedup _)).mpr fun k => ?_
  rw [List.mem_dedup]
  constructor
  · intro hk
    obtain ⟨r, hr, rfl⟩ := List.mem_map.mp hk
    exact List.mem_map_of_mem (mem_putAll_nil.mp hr).mem
  · intro hk
    obtain ⟨last, hlast, rfl⟩ := exists_lastOf hk
    exact List.mem_map_of_mem (mem_putAll_nil.mpr hlast)

/-- As many rows as keys. -/
theorem length_putAll_nil : (putAll key [] batch).length = (batch.map key).dedup.length := by
  rw [← keys_putAll_nil.length_eq, List.length_map]

/-- A row for each row of the batch, exactly when no key repeats. -/
theorem length_putAll_nil_iff :
    (putAll key [] batch).length = batch.length ↔ (batch.map key).Nodup := by
  rw [length_putAll_nil]
  constructor
  · intro hlength
    have hsame : (batch.map key).dedup = batch.map key :=
      (List.dedup_sublist _).eq_of_length (by rw [hlength, List.length_map])
    exact hsame ▸ List.nodup_dedup _
  · intro hbatch
    rw [hbatch.dedup, List.length_map]

/-! ## The same batch again -/

theorem keys_putAll_of_mem (h : ∀ new ∈ batch, key new ∈ rows.map key) :
    (putAll key rows batch).map key = rows.map key := by
  induction batch generalizing rows with
  | nil => rfl
  | cons new batch ih =>
    obtain ⟨hnew, hbatch⟩ := List.forall_mem_cons.mp h
    have hkeys : (put key rows new).map key = rows.map key := by rw [keys_put, if_pos hnew]
    refine (ih fun later hlater => ?_).trans hkeys
    exact hkeys ▸ hbatch later hlater

omit [DecidableEq κ] in
/-- Tables with the same keys in the same places and the same rows are the same. -/
theorem eq_of_keys {rows' : List ρ} (hkeys : rows.map key = rows'.map key)
    (hnodup : (rows'.map key).Nodup) (hmem : ∀ r ∈ rows, r ∈ rows') : rows = rows' := by
  have hlength : rows.length = rows'.length := by simpa using congrArg List.length hkeys
  refine List.ext_getElem hlength fun i hi hi' => ?_
  have hkey : key rows[i] = key rows'[i] := by
    have hget := congrArg (fun keys => keys[i]?) hkeys
    simpa [hi, hi'] using hget
  exact eq_of_key hnodup (hmem _ (List.getElem_mem hi)) (List.getElem_mem hi') hkey

theorem putAll_putAll (hrows : (rows.map key).Nodup) :
    putAll key (putAll key rows batch) batch = putAll key rows batch := by
  have hnodup : ((putAll key rows batch).map key).Nodup := nodup_putAll hrows
  refine eq_of_keys (keys_putAll_of_mem fun new hnew => ?_) hnodup fun r hr => ?_
  · obtain ⟨last, hlast, heq⟩ := exists_lastOf (List.mem_map_of_mem (f := key) hnew)
    exact heq ▸ List.mem_map_of_mem (mem_putAll.mpr (Or.inl hlast))
  · rcases mem_putAll.mp hr with hlast | ⟨hr, -⟩
    · exact mem_putAll.mpr (Or.inl hlast)
    · exact hr

end ControlPlane.Table
