/-
  CANONICAL ROWS: what does `_canonical_rows` of the extraction worker forget?

  It keeps one row for each key, the LAST one, and sorts what it kept by the texts of the key.  Of the
  order of its input two things survive:

  * which of several rows with one key is the last;
  * which of two keys with the same texts came first, since sorting is stable.  Such keys exist: no
    record and the record `None` have the same text.

  Where rows with the same texts are equal, neither is left to tell (`canonicalRows_canonical`).
-/
import ControlPlane.Extraction.Candidates

namespace ControlPlane.Extraction

variable {rows rows' : List Row} {a b : Row}

/-- One row for each key, the last one, in the order of the texts of the keys. -/
structure Canonical (rows out : List Row) : Prop where
  keys : (out.map Row.key).Nodup
  complete : ∀ k, k ∈ out.map Row.key ↔ k ∈ rows.map Row.key
  last : ∀ row ∈ out, Table.LastOf Row.key rows row
  sorted : out.Pairwise fun a b => a.keyTexts ≤ b.keyTexts

theorem keyTexts_eq_of_key (h : a.key = b.key) : a.keyTexts = b.keyTexts := by
  simp only [Row.key, RowKey.mk.injEq] at h
  simp only [Row.keyTexts, h]

theorem nodup_canonicalRows : ((canonicalRows rows).map Row.key).Nodup :=
  ((Sorting.sortedBy_perm Row.keyTexts _).map Row.key).nodup_iff.mpr Table.nodup_putAll_nil

theorem canonical_canonicalRows (rows : List Row) : Canonical rows (canonicalRows rows) where
  keys := nodup_canonicalRows
  complete k := by
    constructor
    · intro hk
      obtain ⟨row, hrow, rfl⟩ := List.mem_map.mp hk
      exact List.mem_map_of_mem (mem_canonicalRows.mp hrow).mem
    · intro hk
      obtain ⟨row, hrow, rfl⟩ := Table.exists_lastOf hk
      exact List.mem_map_of_mem (mem_canonicalRows.mpr hrow)
  last _ hrow := mem_canonicalRows.mp hrow
  sorted := List.pairwise_insertionSort _ _

/-! ## Ties -/

/-- Two members stand in one order only. -/
theorem not_both_sublist {α : Type} {x y : α} {l : List α} (hl : l.Nodup) (h : [x, y].Sublist l)
    (h' : [y, x].Sublist l) : False := by
  induction l with
  | nil => cases h
  | cons z l ih =>
    obtain ⟨hz, hl⟩ := List.nodup_cons.mp hl
    rcases List.sublist_cons_iff.mp h with hrest | ⟨r, heq, hr⟩
    · rcases List.sublist_cons_iff.mp h' with hrest' | ⟨r', heq', -⟩
      · exact ih hl hrest hrest'
      · obtain ⟨rfl, -⟩ := List.cons.inj heq'
        exact hz (hrest.subset (List.mem_cons_of_mem _ List.mem_cons_self))
    · obtain ⟨rfl, rfl⟩ := List.cons.inj heq
      rcases List.sublist_cons_iff.mp h' with hrest' | ⟨r', heq', -⟩
      · exact hz (hrest'.subset (List.mem_cons_of_mem _ List.mem_cons_self))
      · obtain ⟨rfl, -⟩ := List.cons.inj heq'
        exact hz (hr.subset List.mem_cons_self)

/-- Of two keys with the same texts, the one that came first stays first. -/
theorem first_stays_first (hkey : a.key ≠ b.key) (htexts : a.keyTexts = b.keyTexts) :
    [a.key, b.key].Sublist ((canonicalRows (a :: b :: rows)).map Row.key) := by
  have hprefix : [a, b].map Row.key <+:
      (Table.putAll Row.key [] (a :: b :: rows)).map Row.key := by
    have hput : Table.putAll Row.key [] (a :: b :: rows) = Table.putAll Row.key [a, b] rows := by
      simp [Table.putAll, Table.put, hkey.symm]
    rw [hput]
    exact Table.prefix_keys_putAll
  obtain ⟨kept, hkept, heq⟩ := List.sublist_map_iff.mp hprefix.sublist
  obtain ⟨ra, tail, rfl, hra, htail⟩ := List.map_eq_cons_iff.mp heq.symm
  obtain ⟨rb, tail, rfl, hrb, hnil⟩ := List.map_eq_cons_iff.mp htail
  obtain rfl := List.map_eq_nil_iff.mp hnil
  have hle : ra.keyTexts ≤ rb.keyTexts := by
    rw [keyTexts_eq_of_key hra, keyTexts_eq_of_key hrb, htexts]
  have hsub := (List.pair_sublist_insertionSort (r := fun a b => Row.keyTexts a ≤ Row.keyTexts b)
    hle hkept).map Row.key
  rwa [List.map_cons, List.map_cons, List.map_nil, hra, hrb] at hsub

/-- Any two of the rows may come first, or last. -/
theorem perm_pair (ha : a ∈ rows) (hb : b ∈ rows) (hne : a ≠ b) :
    ∃ rest, rows.Perm (a :: b :: rest) := by
  have hb' : b ∈ rows.erase a := (List.mem_erase_of_ne hne.symm).mpr hb
  exact ⟨(rows.erase a).erase b,
    (List.perm_cons_erase ha).trans ((List.perm_cons_erase hb').cons a)⟩

/-- An order that does not matter leaves no ties. -/
theorem no_ties (h : ∀ rows', rows.Perm rows' → canonicalRows rows' = canonicalRows rows)
    (ha : a ∈ rows) (hb : b ∈ rows) (htexts : a.keyTexts = b.keyTexts) : a = b := by
  by_contra hne
  obtain ⟨rest, hperm⟩ := perm_pair ha hb hne
  by_cases hkey : a.key = b.key
  · -- each of the two may be the last
    have hlast : ∀ {x y : Row}, rows.Perm (x :: y :: rest) → y ∈ canonicalRows rows := by
      intro x y hxy
      have hperm' : rows.Perm (rest ++ [x] ++ [y]) :=
        hxy.trans ((@List.perm_append_comm _ [x, y] _).trans (by simp))
      rw [← h _ hperm', mem_canonicalRows]
      exact ⟨rest ++ [x], [], rfl, fun _ hlater => absurd hlater List.not_mem_nil⟩
    exact hne (canonicalRows_key (hlast (hperm.trans (List.Perm.swap b a rest))) (hlast hperm) hkey)
  · -- each of the two may be the first
    have hab := @first_stays_first rest _ _ hkey htexts
    have hba := @first_stays_first rest _ _ (Ne.symm hkey) htexts.symm
    rw [h _ hperm] at hab
    rw [h _ (hperm.trans (List.Perm.swap b a rest))] at hba
    exact not_both_sublist nodup_canonicalRows hab hba

/-- Without ties what is kept is what was there. -/
theorem mem_canonicalRows_of_no_ties
    (h : ∀ a ∈ rows, ∀ b ∈ rows, a.keyTexts = b.keyTexts → a = b) :
    a ∈ canonicalRows rows ↔ a ∈ rows := by
  rw [mem_canonicalRows]
  constructor
  · exact fun hlast => hlast.mem
  · intro ha
    obtain ⟨last, hlast, hkey⟩ := Table.exists_lastOf (List.mem_map_of_mem (f := Row.key) ha)
    rwa [h last hlast.mem a ha (keyTexts_eq_of_key hkey)] at hlast

/-- **Canonical** up to ties: the output has one row for each key, the last one, in the order of the
    texts of the keys; and it is the same for every order of the input exactly when rows with the
    same texts are equal. -/
theorem canonicalRows_canonical (rows : List Row) : Canonical rows (canonicalRows rows) ∧
    ((∀ rows', rows.Perm rows' → canonicalRows rows' = canonicalRows rows) ↔
      ∀ a ∈ rows, ∀ b ∈ rows, a.keyTexts = b.keyTexts → a = b) := by
  refine ⟨canonical_canonicalRows rows, fun h a ha b hb => no_ties h ha hb, fun h rows' hperm => ?_⟩
  have h' : ∀ a ∈ rows', ∀ b ∈ rows', a.keyTexts = b.keyTexts → a = b := fun a ha b hb =>
    h a (hperm.mem_iff.mpr ha) b (hperm.mem_iff.mpr hb)
  have hsame : (canonicalRows rows').Perm (canonicalRows rows) := by
    refine (List.perm_ext_iff_of_nodup nodup_canonicalRows.of_map nodup_canonicalRows.of_map).mpr
      fun row => ?_
    rw [mem_canonicalRows_of_no_ties h, mem_canonicalRows_of_no_ties h', hperm.mem_iff]
  refine hsame.eq_of_pairwise (fun a b ha hb hab hba => ?_) (canonical_canonicalRows rows').sorted
    (canonical_canonicalRows rows).sorted
  exact h' a ((mem_canonicalRows_of_no_ties h').mp ha) b
    (hperm.mem_iff.mp ((mem_canonicalRows_of_no_ties h).mp hb)) (le_antisymm hab hba)

/-- A triple of a chunk at the offset. -/
def tripleAt (offset : Nat) : Row :=
  smallExtractor.baseRow (PyStr.lit "passage:1") (PyStr.lit "Fett Law declined.")
    (PyStr.lit "entity_relation") (PyStr.lit "Fett Law") (PyStr.lit "entity") (PyStr.lit "declined")
    (PyStr.lit "offer") (PyStr.lit "entity") (some offset) (PyStr.lit "prompt:1")
    (PyStr.lit "schema:1") none none

/-- Two chunks have the same triple, and the one that was read last keeps its span. -/
theorem canonicalRows_order_dependent : [tripleAt 0, tripleAt 18].Perm [tripleAt 18, tripleAt 0] ∧
    canonicalRows [tripleAt 0, tripleAt 18] ≠ canonicalRows [tripleAt 18, tripleAt 0] :=
  ⟨List.Perm.swap _ _ _, by decide +kernel⟩

end ControlPlane.Extraction
