/-
  TABLE GRIDS ARE FAITHFUL: what `_table_elements` accepts of the cells that `html_table_cells` places,
  and what it makes of them.

  1. One turn of the loop goes through exactly when the cell fits into the grid and none of its slots is
     taken (`Grid.add_ok_iff`); the loop knows the cells that it has processed (`Grid.Filled`).
  2. HTML cells fit (`fits_of_scanned`), and are rectangles in reading order.  So the only refusal left
     is a cell that runs into one from above.
  3. A cell that is not merged covers one slot, so the extents can be read off (`extentOf_merged`).
-/
import ControlPlane.Documents.HtmlTable

namespace ControlPlane.Documents

open PyStr

/-! ## One turn of the loop -/

/-- The cell lies in the grid. -/
structure TableCell.Fits (data : TableData) (cell : TableCell) : Prop where
  sized : cell.rect.Sized
  row : 0 ≤ cell.startRowOffsetIdx
  col : 0 ≤ cell.startColOffsetIdx
  rows : cell.startRowOffsetIdx + cell.rowSpan ≤ data.numRows
  cols : cell.startColOffsetIdx + cell.colSpan ≤ data.numCols

/-- What `merged_cells` says of a cell. -/
def mergedEntry (cell : TableCell) : Option PyValue :=
  if 1 < cell.rowSpan ∨ 1 < cell.colSpan then
    some (.dict [(lit "row", .int cell.startRowOffsetIdx), (lit "column", .int cell.startColOffsetIdx),
      (lit "row_span", .int cell.rowSpan), (lit "col_span", .int cell.colSpan)])
  else none

section Turns

variable {hexdigest : List UInt8 → String} {sourceId parentId : String} {data : TableData}
  {page : Option Int} {g g' : Grid} {cell : TableCell} {index : Nat}

/-- The grid behind the cell. -/
def Grid.extend (hexdigest : List UInt8 → String) (sourceId parentId : String) (page : Option Int)
    (g : Grid) (cell : TableCell) (index : Nat) : Grid where
  rows := g.write cell.startRowOffsetIdx cell.startColOffsetIdx (lit cell.text)
  merged := g.merged ++ (mergedEntry cell).toList
  result := g.result ++ [cellElement hexdigest sourceId parentId page index cell none]
  occupied := g.occupied ++ cell.extent

/-- **One turn**, for a cell without a bounding box. -/
theorem Grid.add_ok_iff (hbbox : cell.bbox = none) :
    g.add hexdigest sourceId data parentId page (cell, index) = .ok g' ↔
      cell.Fits data ∧ (∀ slot ∈ cell.extent, slot ∉ g.occupied) ∧
        g' = g.extend hexdigest sourceId parentId page cell index := by
  have hmerged : (if 1 < cell.rowSpan ∨ 1 < cell.colSpan then
      g.merged ++ [.dict [(lit "row", .int cell.startRowOffsetIdx),
        (lit "column", .int cell.startColOffsetIdx), (lit "row_span", .int cell.rowSpan),
        (lit "col_span", .int cell.colSpan)]]
      else g.merged) = g.merged ++ (mergedEntry cell).toList := by
    unfold mergedEntry
    split <;> simp
  constructor
  · intro h
    obtain ⟨-, h⟩ | ⟨hfits, h⟩ := Fallible.ite_ok h
    · cases h
    obtain ⟨-, h⟩ | ⟨hfree, h⟩ := Fallible.ite_ok h
    · cases h
    obtain ⟨bbox, hbox, h⟩ := Fallible.bind_ok.mp h
    rw [hbbox] at hbox
    cases hbox
    cases h
    have hbounds : 1 ≤ cell.rowSpan ∧ 1 ≤ cell.colSpan ∧ 0 ≤ cell.startRowOffsetIdx ∧
        0 ≤ cell.startColOffsetIdx ∧ cell.startRowOffsetIdx + cell.rowSpan ≤ data.numRows ∧
        cell.startColOffsetIdx + cell.colSpan ≤ data.numCols := by omega
    obtain ⟨hrows, hcols, hrow, hcol, hheight, hwidth⟩ := hbounds
    refine ⟨⟨⟨hrows, hcols⟩, hrow, hcol, hheight, hwidth⟩, fun slot hslot htaken => ?_, ?_⟩
    · exact hfree (List.any_eq_true.mpr ⟨slot, hslot, decide_eq_true htaken⟩)
    · rw [Grid.extend, ← hmerged]
      rfl
  · rintro ⟨hfits, hfree, rfl⟩
    obtain ⟨⟨hrows, hcols⟩, hrow, hcol, hheight, hwidth⟩ := hfits
    simp only [TableCell.rect] at hrows hcols
    refine (if_neg (by omega)).trans ((if_neg ?_).trans ?_)
    · rw [List.any_eq_true]
      rintro ⟨slot, hslot, htaken⟩
      exact hfree slot hslot (of_decide_eq_true htaken)
    · rw [hbbox, Grid.extend, ← hmerged]
      rfl

/-! ## What the loop knows -/

/-- `rows[r][c]`. -/
def cellText (rows : List (List PyStr)) (r c : Nat) : Option PyStr := rows[r]?.bind fun row => row[c]?

/-- The grid has the shape of the table, and each text at its anchor. -/
structure Texts (data : TableData) (cells : List TableCell) (rows : List (List PyStr)) : Prop where
  height : rows.length = data.numRows.toNat
  width : ∀ row ∈ rows, row.length = data.numCols.toNat
  anchored : ∀ cell ∈ cells, cellText rows cell.startRowOffsetIdx.toNat cell.startColOffsetIdx.toNat =
    some (lit cell.text)
  blank : ∀ r c : Nat, r < data.numRows.toNat → c < data.numCols.toNat →
    (∀ cell ∈ cells, (cell.startRowOffsetIdx, cell.startColOffsetIdx) ≠ ((r : Int), (c : Int))) →
      cellText rows r c = some []

/-- The grid after these cells. -/
structure Grid.Filled (data : TableData) (done : List (TableCell × Nat)) (g : Grid) : Prop where
  occupied : g.occupied = (done.map Prod.fst).flatMap TableCell.extent
  merged : g.merged = (done.map Prod.fst).filterMap mergedEntry
  fits : ∀ cell ∈ done.map Prod.fst, cell.Fits data
  apart : ((done.map Prod.fst).map TableCell.rect).Pairwise fun a b => ¬ a.Overlap b
  texts : Texts data (done.map Prod.fst) g.rows

theorem cellText_write {r c : Int} {i j : Nat} {text : PyStr} :
    cellText (g.write r c text) i j =
      if i = r.toNat ∧ j = c.toNat then (cellText g.rows i j).map fun _ => text
      else cellText g.rows i j := by
  simp only [cellText, Grid.write, List.getElem?_modify]
  by_cases hi : r.toNat = i
  · subst hi
    simp only [if_true, true_and]
    cases g.rows[r.toNat]? with
    | none => simp
    | some row =>
      simp only [Option.bind_some]
      by_cases hj : c.toNat = j
      · subst hj
        by_cases hlt : c.toNat < row.length
        · simp [hlt]
        · simp [hlt]
      · simp [hj, Ne.symm hj]
  · simp [hi, Ne.symm hi]

/-- A new text is written over a blank. -/
theorem Texts.write {cells : List TableCell} (h : Texts data cells g.rows) (hfits : cell.Fits data)
    (hold : ∀ old ∈ cells, old.Fits data)
    (hnew : ∀ old ∈ cells, (old.startRowOffsetIdx, old.startColOffsetIdx) ≠
      (cell.startRowOffsetIdx, cell.startColOffsetIdx)) :
    Texts data (cells ++ [cell])
      (g.write cell.startRowOffsetIdx cell.startColOffsetIdx (lit cell.text)) := by
  obtain ⟨⟨hrows, hcols⟩, hrow, hcol, hheight, hwidth⟩ := hfits
  simp only [TableCell.rect] at hrows hcols
  refine ⟨?_, ?_, ?_, ?_⟩
  · rw [Grid.write, List.length_modify, h.height]
  · intro row hmem
    obtain ⟨i, hi, rfl⟩ := List.mem_iff_getElem.mp hmem
    rw [Grid.write, List.length_modify] at hi
    have hwide := h.width _ (List.getElem_mem hi)
    simp only [Grid.write, List.getElem_modify]
    split
    · rw [List.length_set, hwide]
    · exact hwide
  · rw [List.forall_mem_append, List.forall_mem_singleton]
    refine ⟨fun old hmem => ?_, ?_⟩
    · rw [cellText_write, if_neg ?_, h.anchored old hmem]
      rintro ⟨hr, hc⟩
      have hfits := hold old hmem
      have hrow' := hfits.row
      have hcol' := hfits.col
      exact hnew old hmem (Prod.ext (by omega) (by omega))
    · have hblank := h.blank cell.startRowOffsetIdx.toNat cell.startColOffsetIdx.toNat (by omega)
        (by omega) fun old hmem => by
          rw [Int.toNat_of_nonneg hrow, Int.toNat_of_nonneg hcol]
          exact hnew old hmem
      rw [cellText_write, if_pos ⟨rfl, rfl⟩, hblank]
      rfl
  · intro r c hr hc hnone
    rw [List.forall_mem_append, List.forall_mem_singleton] at hnone
    rw [cellText_write, if_neg ?_, h.blank r c hr hc hnone.1]
    rintro ⟨rfl, rfl⟩
    refine hnone.2 ?_
    rw [Int.toNat_of_nonneg hrow, Int.toNat_of_nonneg hcol]

variable {done : List (TableCell × Nat)}

/-- No slot is taken exactly when nothing overlaps. -/
theorem Grid.Filled.free_iff (h : g.Filled data done) :
    (∀ slot ∈ cell.extent, slot ∉ g.occupied) ↔
      ¬ ∃ a ∈ (done.map Prod.fst).map TableCell.rect, a.Overlap cell.rect := by
  simp only [h.occupied, List.mem_flatMap, mem_extent]
  constructor
  · rintro hfree ⟨_, hmem, slot, hcovers, hcovers'⟩
    obtain ⟨old, hold, rfl⟩ := List.mem_map.mp hmem
    exact hfree slot hcovers' ⟨old, hold, hcovers⟩
  · rintro hapart slot hcovers' ⟨old, hold, hcovers⟩
    exact hapart ⟨old.rect, List.mem_map_of_mem hold, slot, hcovers, hcovers'⟩

/-- **One turn fills in its cell.** -/
theorem Grid.Filled.add (h : g.Filled data done) (hbbox : cell.bbox = none)
    (hadd : g.add hexdigest sourceId data parentId page (cell, index) = .ok g') :
    g'.Filled data (done ++ [(cell, index)]) := by
  obtain ⟨hfits, hfree, rfl⟩ := (Grid.add_ok_iff hbbox).mp hadd
  have hapart : ∀ old ∈ done.map Prod.fst, ¬ old.rect.Overlap cell.rect :=
    fun old hold hoverlap => h.free_iff.mp hfree ⟨old.rect, List.mem_map_of_mem hold, hoverlap⟩
  refine ⟨?_, ?_, ?_, ?_, ?_⟩
  · simp [Grid.extend, h.occupied]
  · rw [List.map_append, List.filterMap_append, Grid.extend, h.merged]
    cases hentry : mergedEntry cell <;> simp [hentry]
  · rw [List.map_append, List.forall_mem_append]
    exact ⟨h.fits, List.forall_mem_singleton.mpr hfits⟩
  · rw [List.map_append, List.map_append, List.pairwise_append]
    refine ⟨h.apart, List.pairwise_singleton _ _, fun a ha b hb => ?_⟩
    obtain ⟨old, hold, rfl⟩ := List.mem_map.mp ha
    obtain rfl := List.mem_singleton.mp hb
    exact hapart old hold
  · rw [List.map_append]
    refine h.texts.write hfits h.fits fun old hold heq => hapart old hold ?_
    obtain ⟨hr, hc⟩ := Prod.mk.inj heq
    have hcorner := (h.fits old hold).sized.corner
    have hcorner' := hfits.sized.corner
    simp only [TableCell.rect] at hcorner hcorner'
    exact ⟨_, hcorner, by rw [hr, hc]; exact hcorner'⟩

/-- The empty grid. -/
theorem empty_filled : Grid.Filled data []
    { rows := List.replicate data.numRows.toNat (List.replicate data.numCols.toNat []) } where
  occupied := rfl
  merged := rfl
  fits cell hmem := absurd hmem List.not_mem_nil
  apart := List.Pairwise.nil
  texts := by
    refine ⟨List.length_replicate, fun row hrow => ?_, fun cell hmem => absurd hmem List.not_mem_nil,
      fun r c hr hc _ => ?_⟩
    · rw [List.eq_of_mem_replicate hrow, List.length_replicate]
    · simp [cellText, hr, hc]

/-! ## The whole loop -/

/-- **What `_table_elements` accepts**, of cells without bounding boxes that fit into the table. -/
theorem tableElements_ok_iff (hbbox : ∀ cell ∈ data.tableCells, cell.bbox = none)
    (hfits : ∀ cell ∈ data.tableCells, cell.Fits data) :
    (∃ out, tableElements hexdigest sourceId data parentId page = .ok out) ↔
      ∀ before cell after, data.tableCells = before ++ cell :: after →
        ¬ ∃ a ∈ before.map TableCell.rect, a.Overlap cell.rect := by
  have hrun : (∃ out, tableElements hexdigest sourceId data parentId page = .ok out) ↔
      ∃ g, data.tableCells.zipIdx.foldlM (Grid.add hexdigest sourceId data parentId page)
        { rows := List.replicate data.numRows.toNat (List.replicate data.numCols.toNat []) } = .ok g :=
    ⟨fun ⟨_, h⟩ => (Fallible.bind_ok.mp h).imp fun _ hg => hg.1,
      fun ⟨g, hg⟩ => ⟨_, Fallible.bind_ok.mpr ⟨g, hg, rfl⟩⟩⟩
  have hbox : ∀ e ∈ data.tableCells.zipIdx, e.1.bbox = none :=
    fun e he => hbbox e.1 (List.fst_mem_of_mem_zipIdx he)
  have hloop := @Fallible.foldlM_isOk_iff Failure _ _ data.tableCells.zipIdx
    (Grid.add hexdigest sourceId data parentId page) _ (fun done g => Grid.Filled data done g)
    (fun done e => ¬ ∃ a ∈ (done.map Prod.fst).map TableCell.rect, a.Overlap e.1.rect) []
    (fun e he done g hg hadmits => ⟨_, (Grid.add_ok_iff (hbox e he)).mpr
      ⟨hfits e.1 (List.fst_mem_of_mem_zipIdx he), hg.free_iff.mpr hadmits, rfl⟩⟩)
    (fun e he done g g' hg hadd => ⟨hg.free_iff.mp ((Grid.add_ok_iff (hbox e he)).mp hadd).2.1, hg.add (hbox e he) hadd⟩)
    empty_filled
  rw [hrun, hloop]
  constructor
  · intro hcuts before cell after hcut
    have hzip : data.tableCells.zipIdx =
        before.zipIdx ++ (cell, before.length) :: after.zipIdx (before.length + 1) := by
      rw [hcut, List.zipIdx_append, List.zipIdx_cons, Nat.zero_add]
    have hnone := hcuts _ _ _ hzip
    rwa [List.nil_append, List.zipIdx_map_fst] at hnone
  · intro hcuts before e after hzip
    rw [List.nil_append]
    refine hcuts _ e.1 (after.map Prod.fst) ?_
    have hcells := congrArg (List.map Prod.fst) hzip
    rwa [List.zipIdx_map_fst, List.map_append, List.map_cons] at hcells

/-- **What it makes of them.** -/
theorem tableElements_filled {elements : List DocElement} {attributes : List (PyStr × PyValue)}
    (hbbox : ∀ cell ∈ data.tableCells, cell.bbox = none)
    (h : tableElements hexdigest sourceId data parentId page = .ok (elements, attributes)) :
    ∃ g : Grid, g.Filled data data.tableCells.zipIdx ∧ elements = g.result ∧
      attributes = [(lit "rows", .list (g.rows.map fun row => .list (row.map .str))),
        (lit "merged_cells", .list g.merged), (lit "num_rows", .int data.numRows),
        (lit "num_cols", .int data.numCols)] := by
  obtain ⟨g, hg, h⟩ := Fallible.bind_ok.mp h
  cases h
  refine ⟨g, ?_, rfl, rfl⟩
  have hfilled := @Fallible.foldlM_processed Failure _ _ data.tableCells.zipIdx
    (Grid.add hexdigest sourceId data parentId page) _ g (fun done g => Grid.Filled data done g) []
    (fun e he done g g' hg hadd => hg.add (hbbox e.1 (List.fst_mem_of_mem_zipIdx he)) hadd)
    empty_filled hg
  rwa [List.nil_append] at hfilled

end Turns

/-! ## Extents from the merged cells -/

/-- The extent that an entry of `merged_cells` gives the cell at `(r, c)`. -/
def mergedExtent (r c : Int) : PyValue → Option (Int × Int)
  | .dict [(_, .int r'), (_, .int c'), (_, .int rs), (_, .int cs)] =>
      if r' = r ∧ c' = c then some (rs, cs) else none
  | _ => none

/-- The extent of the cell at `(r, c)`: that of its entry, or one slot. -/
def extentOf (merged : List PyValue) (r c : Int) : Int × Int :=
  (merged.findSome? (mergedExtent r c)).getD (1, 1)

theorem mergedExtent_other {cell : TableCell} {entry : PyValue} {r c : Int}
    (hentry : mergedEntry cell = some entry)
    (hne : (cell.startRowOffsetIdx, cell.startColOffsetIdx) ≠ (r, c)) : mergedExtent r c entry = none := by
  unfold mergedEntry at hentry
  split at hentry
  · cases hentry
    exact if_neg fun h => hne (Prod.ext h.1 h.2)
  · cases hentry

/-- Cells that do not overlap do not start at one slot. -/
theorem anchor_ne {a b : TableCell} (ha : a.rect.Sized) (hb : b.rect.Sized)
    (h : ¬ a.rect.Overlap b.rect) : (a.startRowOffsetIdx, a.startColOffsetIdx) ≠
      (b.startRowOffsetIdx, b.startColOffsetIdx) := by
  intro heq
  obtain ⟨hr, hc⟩ := Prod.mk.inj heq
  have hcorner := hb.corner
  simp only [TableCell.rect] at hcorner
  refine h ⟨_, ha.corner, ?_⟩
  simp only [TableCell.rect]
  rwa [hr, hc]

/-- **The extents of cells that do not overlap**, from the merged ones. -/
theorem extentOf_merged {cells : List TableCell} {cell : TableCell}
    (hsized : ∀ cell ∈ cells, cell.rect.Sized)
    (hapart : (cells.map TableCell.rect).Pairwise fun a b => ¬ a.Overlap b) (hmem : cell ∈ cells) :
    extentOf (cells.filterMap mergedEntry) cell.startRowOffsetIdx cell.startColOffsetIdx =
      (cell.rowSpan, cell.colSpan) := by
  obtain ⟨before, after, rfl⟩ := List.append_of_mem hmem
  have hcell := hsized cell hmem
  rw [List.map_append, List.map_cons, List.pairwise_append, List.pairwise_cons] at hapart
  obtain ⟨-, ⟨hafter, -⟩, hbefore⟩ := hapart
  -- no other cell starts at the slot, on either side
  have hskip : ∀ others : List TableCell, (∀ a ∈ others, (a.startRowOffsetIdx, a.startColOffsetIdx) ≠
      (cell.startRowOffsetIdx, cell.startColOffsetIdx)) → (others.filterMap mergedEntry).findSome?
        (mergedExtent cell.startRowOffsetIdx cell.startColOffsetIdx) = none := by
    intro others hothers
    refine List.findSome?_eq_none_iff.mpr fun entry hentry => ?_
    obtain ⟨a, ha, hentry⟩ := List.mem_filterMap.mp hentry
    exact mergedExtent_other hentry (hothers a ha)
  have hnone := hskip before fun a ha => anchor_ne (hsized a (List.mem_append_left _ ha)) hcell
    (hbefore _ (List.mem_map_of_mem ha) _ List.mem_cons_self)
  have hnone' := hskip after fun a ha => (anchor_ne hcell
    (hsized a (List.mem_append_right _ (List.mem_cons_of_mem _ ha)))
    (hafter _ (List.mem_map_of_mem ha))).symm
  rw [extentOf, List.filterMap_append, List.findSome?_append, hnone, Option.none_or]
  by_cases hspans : 1 < cell.rowSpan ∨ 1 < cell.colSpan
  · rw [List.filterMap_cons_some (show mergedEntry cell = some _ from if_pos hspans)]
    simp [mergedExtent]
  · rw [List.filterMap_cons_none (show mergedEntry cell = none from if_neg hspans), hnone']
    obtain ⟨hrows, hcols⟩ := hcell
    simp only [TableCell.rect] at hrows hcols
    exact Prod.ext (by simp; omega) (by simp; omega)

/-! ## HTML tables -/

/-- Every cell spans something, and no `rowspan` leaves the table. -/
structure Spanned (rows : List (List HtmlCell)) : Prop where
  positive : ∀ row ∈ rows, ∀ cell ∈ row, 1 ≤ cell.rowspan ∧ 1 ≤ cell.colspan
  inside : ∀ entry ∈ rows.zipIdx, ∀ cell ∈ entry.1, entry.2 + cell.rowspan ≤ rows.length

/-- The cells of the rows, each in the first column of its row that is free. -/
structure WellPlaced (rows : List (List HtmlCell)) (cells : List TableCell) : Prop where
  written : Written (numbered rows 0) cells
  first : ∀ before cell after, cells = before ++ cell :: after → Rect.FirstFree
    (before.map TableCell.rect) cell.startRowOffsetIdx cell.startColOffsetIdx

/-- How far the cells reach to the right. -/
def IsWidth (cells : List TableCell) (ncols : Int) : Prop :=
  (∀ cell ∈ cells, cell.startColOffsetIdx + cell.colSpan ≤ ncols) ∧
    (cells = [] ∧ ncols = 0 ∨ ∃ cell ∈ cells, ncols = cell.startColOffsetIdx + cell.colSpan)

/-- The attributes of a table: no slot is covered twice, each text stands at its anchor, and the merged
    cells give all extents. -/
def FaithfulGrid (data : TableData) (attributes : List (PyStr × PyValue)) : Prop :=
  ∃ rows merged, attributes = [(lit "rows", .list (rows.map fun row => .list (row.map .str))),
      (lit "merged_cells", .list merged), (lit "num_rows", .int data.numRows),
      (lit "num_cols", .int data.numCols)] ∧
    (data.tableCells.map TableCell.rect).Pairwise (fun a b => ¬ a.Overlap b) ∧
    Texts data data.tableCells rows ∧
    ∀ cell ∈ data.tableCells, extentOf merged cell.startRowOffsetIdx cell.startColOffsetIdx =
      (cell.rowSpan, cell.colSpan)

section Tables

variable {rows : List (List HtmlCell)}

theorem exists_of_written {entries : List (HtmlCell × Nat)} {cells : List TableCell} {cell : TableCell}
    (h : Written entries cells) (hcell : cell ∈ cells) : ∃ e ∈ entries, ∃ c, cell = htmlCell e.1 e.2 c := by
  induction h with
  | nil => exact absurd hcell List.not_mem_nil
  | cons hfirst _ ih =>
    rcases List.mem_cons.mp hcell with rfl | hcell
    · exact ⟨_, List.mem_cons_self, hfirst⟩
    · obtain ⟨e, he, hwritten⟩ := ih hcell
      exact ⟨e, List.mem_cons_of_mem _ he, hwritten⟩

theorem htmlTableCells_scanned (h : Spanned rows) : (rows.zipIdx.foldl scanRow {}).Scanned ∧
    Written (numbered rows 0) (htmlTableCells rows).1 := by
  have hempty : Scan.Scanned {} := ⟨rfl, Rect.placed_nil, by simp, by simp, by simp, .inl ⟨rfl, rfl⟩⟩
  have hall := @scanRows_scanned {} rows 0 [] hempty (by simp) h.positive List.Forall₂.nil
  rwa [List.nil_append] at hall

/-- The cells fit into the table that they make. -/
theorem fits_of_scanned (h : Spanned rows) :
    ∀ cell ∈ (htmlTableData rows).tableCells, cell.Fits (htmlTableData rows) ∧ cell.bbox = none := by
  obtain ⟨hs, hwritten⟩ := htmlTableCells_scanned h
  intro cell hcell
  obtain ⟨before, after, hcut⟩ := List.append_of_mem hcell
  have hrects : (rows.zipIdx.foldl scanRow {}).cells.map TableCell.rect =
      before.map TableCell.rect ++ cell.rect :: after.map TableCell.rect := by
    rw [← List.map_cons, ← List.map_append, ← hcut]
    rfl
  have hcol := (hs.placed _ _ _ hrects).2.nonneg
  obtain ⟨e, he, c, hce⟩ := exists_of_written hwritten hcell
  obtain ⟨entry, hentry, hmem⟩ := List.mem_flatMap.mp he
  obtain ⟨html, hhtml, rfl⟩ := List.mem_map.mp hmem
  have hinside := h.inside entry hentry html hhtml
  refine ⟨⟨hs.sized cell hcell, hs.below cell hcell, hcol, ?_, hs.bounded cell hcell⟩, ?_⟩
  · rw [hce]
    exact hinside
  · rw [hce]
    rfl

/-- **Table grids are faithful.**  Each cell goes to the first free column of its row, and the table is
    as high as its rows and as wide as its cells reach.  `_table_elements` accepts it exactly when no
    cell runs into one that hangs down from above; then no slot is covered twice, each text stands at its
    anchor, and the merged cells give all extents. -/
theorem table_grids_faithful (hexdigest : List UInt8 → String) (sourceId parentId : String)
    (page : Option Int) (rows : List (List HtmlCell)) (h : Spanned rows) :
    WellPlaced rows (htmlTableCells rows).1 ∧ (htmlTableCells rows).2.1 = rows.length ∧
      IsWidth (htmlTableCells rows).1 (htmlTableCells rows).2.2 ∧
      ((∃ out, tableElements hexdigest sourceId (htmlTableData rows) parentId page = .ok out) ↔
        ∀ before cell after, (htmlTableCells rows).1 = before ++ cell :: after →
          ¬ Rect.RunsInto (before.map TableCell.rect) cell.rect) ∧
      ∀ elements attributes,
        tableElements hexdigest sourceId (htmlTableData rows) parentId page = .ok (elements, attributes) →
          FaithfulGrid (htmlTableData rows) attributes := by
  obtain ⟨hs, hwritten⟩ := htmlTableCells_scanned h
  have hrects : ∀ {before cell after}, (htmlTableCells rows).1 = before ++ cell :: after →
      (rows.zipIdx.foldl scanRow {}).cells.map TableCell.rect =
        before.map TableCell.rect ++ cell.rect :: after.map TableCell.rect := by
    intro before cell after hcut
    rw [← List.map_cons, ← List.map_append, ← hcut]
    rfl
  have hsized : ∀ a ∈ (rows.zipIdx.foldl scanRow {}).cells.map TableCell.rect, a.Sized := by
    intro a ha
    obtain ⟨cell, hcell, rfl⟩ := List.mem_map.mp ha
    exact hs.sized cell hcell
  have hbbox := fun cell hcell => (fits_of_scanned h cell hcell).2
  refine ⟨⟨hwritten, fun before cell after hcut => (hs.placed _ _ _ (hrects hcut)).2⟩, rfl,
    ⟨hs.bounded, hs.attained⟩, ?_, fun elements attributes hok => ?_⟩
  · rw [tableElements_ok_iff hbbox fun cell hcell => (fits_of_scanned h cell hcell).1]
    refine forall_congr' fun before => forall_congr' fun cell => forall_congr' fun after =>
      imp_congr_right fun hcut => not_congr ?_
    exact hs.placed.overlap_iff hsized (hrects hcut)
  · obtain ⟨g, hfilled, -, rfl⟩ := tableElements_filled hbbox hok
    obtain ⟨-, hmerged, hfits, hapart, htexts⟩ := hfilled
    rw [List.zipIdx_map_fst] at hmerged hfits hapart htexts
    refine ⟨g.rows, g.merged, rfl, hapart, htexts, fun cell hcell => ?_⟩
    rw [hmerged]
    exact extentOf_merged (fun cell hcell => (hfits cell hcell).sized) hapart hcell

/-- Two rows: a cell that hangs down, and one beside it. -/
def smallTable : List (List HtmlCell) :=
  [[{ text := "a", rowspan := 2 }, { text := "b" }], [{ text := "c" }]]

theorem table_grids_faithful_small :
    WellPlaced smallTable (htmlTableCells smallTable).1 ∧
      (htmlTableCells smallTable).2.1 = smallTable.length ∧
      IsWidth (htmlTableCells smallTable).1 (htmlTableCells smallTable).2.2 ∧
      ((∃ out, tableElements (fun _ => "") "source" (htmlTableData smallTable) "table" none = .ok out) ↔
        ∀ before cell after, (htmlTableCells smallTable).1 = before ++ cell :: after →
          ¬ Rect.RunsInto (before.map TableCell.rect) cell.rect) ∧
      ∀ elements attributes,
        tableElements (fun _ => "") "source" (htmlTableData smallTable) "table" none =
            .ok (elements, attributes) →
          FaithfulGrid (htmlTableData smallTable) attributes :=
  table_grids_faithful (fun _ => "") "source" "table" none smallTable ⟨by decide, by decide⟩

end Tables

end ControlPlane.Documents
