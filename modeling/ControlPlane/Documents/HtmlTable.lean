/-
  HTML TABLES: `html_table_cells` of `theorem_ml/extract/elements.py`, and what `_table_elements` makes of
  its cells.

  The rows are those that the HTML parser finds in the table, each with its `th` and `td`.

  1. A cell goes to the first FREE column of its row (`freeColumn_spec`), so the cells are rectangles in
     reading order (`htmlTableCells_scanned`), and an overlap is always one with a `rowspan` from above.
  2. `_table_elements` refuses nothing else of them (`foldlM_isOk_iff` over `Grid.add_ok_iff`), and the
     grid that it fills has each text at its anchor (`Grid.Filled`).
  3. A cell that is not merged has one slot, so the merged cells give all extents back
     (`extentOf_merged`).
-/
import ControlPlane.Documents.Normalization
import ControlPlane.Packing
import Mathlib.Data.List.ProdSigma

namespace ControlPlane.Documents

open PyStr

/-! ## The cells of a table -/

/-- A `th` or a `td`. -/
structure HtmlCell where
  text : String := ""
  rowspan : Int := 1
  colspan : Int := 1
  /-- It is a `th`. -/
  header : Bool := false

theorem taken_lt {occupied : List (Int × Int)} {r c : Int} (h : (r, c) ∈ occupied) :
    (occupied.filter fun s => s.1 = r ∧ c + 1 ≤ s.2).length <
      (occupied.filter fun s => s.1 = r ∧ c ≤ s.2).length := by
  have hmem : (r, c) ∈ occupied.filter fun s => s.1 = r ∧ c ≤ s.2 :=
    List.mem_filter.mpr ⟨h, by simp⟩
  have hfilter : (occupied.filter fun s => s.1 = r ∧ c + 1 ≤ s.2) =
      (occupied.filter fun s => s.1 = r ∧ c ≤ s.2).filter fun s => s.2 ≠ c := by
    rw [List.filter_filter]
    refine List.filter_congr fun s _ => decide_eq_decide.mpr ?_ |>.trans (Bool.decide_and _ _)
    omega
  rw [hfilter]
  exact List.length_filter_lt_length_iff_exists.mpr ⟨(r, c), hmem, by simp⟩

/-- `while (r, c) in occupied: c += 1`. -/
def freeColumn (occupied : List (Int × Int)) (r c : Int) : Int :=
  if _ : (r, c) ∈ occupied then freeColumn occupied r (c + 1) else c
termination_by (occupied.filter fun s => s.1 = r ∧ c ≤ s.2).length
decreasing_by exact taken_lt ‹_›

/-- `cells`, `occupied` and `ncols`. -/
structure Scan where
  cells : List TableCell := []
  occupied : List (Int × Int) := []
  ncols : Int := 0

/-- What `html_table_cells` says of a cell. -/
def htmlCell (cell : HtmlCell) (r c : Int) : TableCell where
  startRowOffsetIdx := r
  startColOffsetIdx := c
  rowSpan := cell.rowspan
  colSpan := cell.colspan
  text := cell.text
  entries := [(lit "text", .str (lit cell.text)), (lit "start_row_offset_idx", .int r),
    (lit "start_col_offset_idx", .int c), (lit "row_span", .int cell.rowspan),
    (lit "col_span", .int cell.colspan), (lit "column_header", .bool cell.header)]

/-- The slots of a cell. -/
def TableCell.extent (cell : TableCell) : List (Int × Int) :=
  (span cell.startRowOffsetIdx cell.rowSpan).product (span cell.startColOffsetIdx cell.colSpan)

/-- One cell of row `r`; the second component is `c`. -/
def placeCell (r : Int) (state : Scan × Int) (cell : HtmlCell) : Scan × Int :=
  let c := freeColumn state.1.occupied r state.2
  ({ cells := state.1.cells ++ [htmlCell cell r c]
     occupied := state.1.occupied ++ (htmlCell cell r c).extent
     ncols := max state.1.ncols (c + cell.colspan) }, c + cell.colspan)

/-- One row. -/
def scanRow (s : Scan) (entry : List HtmlCell × Nat) : Scan :=
  (entry.1.foldl (placeCell entry.2) (s, 0)).1

/-- `html_table_cells`: the cells, and how many rows and columns there are. -/
def htmlTableCells (rows : List (List HtmlCell)) : List TableCell × Int × Int :=
  let s := rows.zipIdx.foldl scanRow {}
  (s.cells, rows.length, s.ncols)

/-- What `from_paddle` hands to `_table_elements`. -/
def htmlTableData (rows : List (List HtmlCell)) : TableData where
  tableCells := (htmlTableCells rows).1
  numRows := (htmlTableCells rows).2.1
  numCols := (htmlTableCells rows).2.2

/-! ## Cells are rectangles -/

def TableCell.rect (cell : TableCell) : Rect :=
  ⟨cell.startRowOffsetIdx, cell.startColOffsetIdx, cell.rowSpan, cell.colSpan⟩

theorem mem_span {start size n : Int} : n ∈ span start size ↔ start ≤ n ∧ n < start + size := by
  simp only [span, List.mem_map, List.bind_eq_flatMap, List.mem_flatMap, List.mem_range,
    List.pure_def, List.mem_singleton]
  constructor
  · rintro ⟨_, ⟨k, hk, rfl⟩, rfl⟩
    omega
  · rintro ⟨hle, hlt⟩
    exact ⟨n - start, ⟨(n - start).toNat, by omega, by omega⟩, by omega⟩

theorem mem_extent {cell : TableCell} {s : Int × Int} : s ∈ cell.extent ↔ cell.rect.Covers s := by
  obtain ⟨r, c⟩ := s
  simp only [TableCell.extent, TableCell.rect, Rect.Covers, List.pair_mem_product, mem_span]
  tauto

variable {occupied : List (Int × Int)} {r c : Int} {cell : HtmlCell} {s s' : Scan}
  {cells : List HtmlCell} {rows : List (List HtmlCell)}

/-- The loop stops at the first column that is free. -/
theorem freeColumn_spec : c ≤ freeColumn occupied r c ∧ (r, freeColumn occupied r c) ∉ occupied ∧
    ∀ c', c ≤ c' → c' < freeColumn occupied r c → (r, c') ∈ occupied := by
  induction c using freeColumn.induct occupied r with
  | case1 c htaken ih =>
    rw [freeColumn, dif_pos htaken]
    obtain ⟨hle, hfree, hskipped⟩ := ih
    refine ⟨by omega, hfree, fun c' hc' hlt => ?_⟩
    rcases Int.lt_or_eq_of_le hc' with hnext | rfl
    · exact hskipped c' hnext hlt
    · exact htaken
  | case2 c hfree =>
    rw [freeColumn, dif_neg hfree]
    exact ⟨Int.le_refl c, hfree, fun c' hc' hlt => by omega⟩

/-- The cells so far. -/
structure Scan.Scanned (s : Scan) : Prop where
  occupied : s.occupied = s.cells.flatMap TableCell.extent
  placed : Rect.Placed (s.cells.map TableCell.rect)
  sized : ∀ cell ∈ s.cells, cell.rect.Sized
  below : ∀ cell ∈ s.cells, 0 ≤ cell.startRowOffsetIdx
  bounded : ∀ cell ∈ s.cells, cell.startColOffsetIdx + cell.colSpan ≤ s.ncols
  attained : s.cells = [] ∧ s.ncols = 0 ∨
    ∃ cell ∈ s.cells, s.ncols = cell.startColOffsetIdx + cell.colSpan

/-- In row `r`, the columns before `c` are taken. -/
structure Scan.Reached (s : Scan) (r c : Int) : Prop where
  above : ∀ cell ∈ s.cells, cell.startRowOffsetIdx ≤ r
  nonneg : 0 ≤ c
  taken : ∀ c', 0 ≤ c' → c' < c → (r, c') ∈ s.occupied

theorem Scan.Scanned.taken_iff (h : s.Scanned) {slot : Int × Int} :
    slot ∈ s.occupied ↔ ∃ a ∈ s.cells.map TableCell.rect, a.Covers slot := by
  rw [h.occupied, List.mem_flatMap]
  constructor
  · rintro ⟨cell, hcell, hslot⟩
    exact ⟨cell.rect, List.mem_map_of_mem hcell, mem_extent.mp hslot⟩
  · rintro ⟨_, hmem, hcovers⟩
    obtain ⟨cell, hcell, rfl⟩ := List.mem_map.mp hmem
    exact ⟨cell, hcell, mem_extent.mpr hcovers⟩

/-- **One cell** goes to the first free column of its row. -/
theorem placeCell_scanned (hs : s.Scanned) (hr : 0 ≤ r) (hreached : s.Reached r c)
    (hrowspan : 1 ≤ cell.rowspan) (hcolspan : 1 ≤ cell.colspan) :
    (placeCell r (s, c) cell).1.Scanned ∧
      (placeCell r (s, c) cell).1.Reached r (placeCell r (s, c) cell).2 := by
  obtain ⟨hle, hfree, hskipped⟩ := @freeColumn_spec s.occupied r c
  have hnonneg := hreached.nonneg
  have hfirst : Rect.FirstFree (s.cells.map TableCell.rect) r (freeColumn s.occupied r c) := by
    refine ⟨by omega, fun a ha hcovers => hfree (hs.taken_iff.mpr ⟨a, ha, hcovers⟩), ?_⟩
    intro c' hc' hlt
    refine hs.taken_iff.mp ?_
    rcases Int.lt_or_le c' c with hbefore | hafter
    · exact hreached.taken c' hc' hbefore
    · exact hskipped c' hafter hlt
  have hrows : ∀ a ∈ s.cells.map TableCell.rect, a.row ≤ r := by
    intro a ha
    obtain ⟨cell', hcell', rfl⟩ := List.mem_map.mp ha
    exact hreached.above cell' hcell'
  refine ⟨⟨?_, ?_, ?_, ?_, ?_, ?_⟩, ⟨?_, ?_, ?_⟩⟩
  · simp [placeCell, hs.occupied]
  · simp only [placeCell, List.map_append, List.map_singleton]
    exact hs.placed.snoc hrows hfirst
  · simp only [placeCell, List.forall_mem_append, List.forall_mem_singleton]
    exact ⟨hs.sized, hrowspan, hcolspan⟩
  · simp only [placeCell, List.forall_mem_append, List.forall_mem_singleton]
    exact ⟨hs.below, hr⟩
  · simp only [placeCell, List.forall_mem_append, List.forall_mem_singleton]
    exact ⟨fun cell' hcell' => (hs.bounded cell' hcell').trans (Int.le_max_left _ _),
      Int.le_max_right _ _⟩
  · refine Or.inr ?_
    simp only [placeCell, List.mem_append, List.mem_singleton]
    rcases Int.le_total s.ncols (freeColumn s.occupied r c + cell.colspan) with hnew | hold
    · exact ⟨_, Or.inr rfl, Int.max_eq_right hnew⟩
    · rcases hs.attained with ⟨-, hzero⟩ | ⟨cell', hcell', hcols⟩
      · exact ⟨_, Or.inr rfl, Int.max_eq_right (by omega)⟩
      · exact ⟨cell', Or.inl hcell', (Int.max_eq_left hold).trans hcols⟩
  · simp only [placeCell, List.forall_mem_append, List.forall_mem_singleton]
    exact ⟨hreached.above, Int.le_refl r⟩
  · simp only [placeCell]
    omega
  · intro c' hc' hlt
    simp only [placeCell, List.mem_append] at hlt ⊢
    rcases Int.lt_or_le c' (freeColumn s.occupied r c) with hbefore | hafter
    · exact Or.inl (hs.taken_iff.mpr (hfirst.first c' hc' hbefore))
    · refine Or.inr (mem_extent.mpr ?_)
      simp only [Rect.Covers, TableCell.rect, htmlCell]
      omega

/-- The cells that come out, one for each that went in. -/
def Written (entries : List (HtmlCell × Nat)) (cells : List TableCell) : Prop :=
  List.Forall₂ (fun e cell => ∃ c, cell = htmlCell e.1 e.2 c) entries cells

/-- **One row**, by induction on its cells. -/
theorem scanRow_scanned {state : Scan × Int} {k : Nat} {entries : List (HtmlCell × Nat)}
    (hs : state.1.Scanned) (hreached : state.1.Reached k state.2)
    (hspans : ∀ cell ∈ cells, 1 ≤ cell.rowspan ∧ 1 ≤ cell.colspan)
    (hwritten : Written entries state.1.cells) :
    (cells.foldl (placeCell k) state).1.Scanned ∧
      (∀ cell ∈ (cells.foldl (placeCell k) state).1.cells, cell.startRowOffsetIdx ≤ k) ∧
      Written (entries ++ cells.map fun cell => (cell, k)) (cells.foldl (placeCell k) state).1.cells := by
  induction cells generalizing state entries with
  | nil => exact ⟨hs, hreached.above, by simpa using hwritten⟩
  | cons cell cells ih =>
    rw [List.forall_mem_cons] at hspans
    obtain ⟨hs', hreached'⟩ :=
      placeCell_scanned hs (Int.natCast_nonneg k) hreached hspans.1.1 hspans.1.2
    have hnew : Written (entries ++ [(cell, k)]) (placeCell k state cell).1.cells :=
      List.rel_append hwritten (List.Forall₂.cons ⟨_, rfl⟩ List.Forall₂.nil)
    have hrest := ih hs' hreached' hspans.2 hnew
    rwa [List.append_assoc] at hrest

/-- The cells of a table, each with its row. -/
def numbered (rows : List (List HtmlCell)) (k : Nat) : List (HtmlCell × Nat) :=
  (rows.zipIdx k).flatMap fun entry => entry.1.map fun cell => (cell, entry.2)

/-- **All rows**, by induction on them. -/
theorem scanRows_scanned {k : Nat} {entries : List (HtmlCell × Nat)} (hs : s.Scanned)
    (habove : ∀ cell ∈ s.cells, cell.startRowOffsetIdx ≤ k)
    (hspans : ∀ row ∈ rows, ∀ cell ∈ row, 1 ≤ cell.rowspan ∧ 1 ≤ cell.colspan)
    (hwritten : Written entries s.cells) :
    ((rows.zipIdx k).foldl scanRow s).Scanned ∧
      Written (entries ++ numbered rows k) ((rows.zipIdx k).foldl scanRow s).cells := by
  induction rows generalizing s k entries with
  | nil => exact ⟨hs, by simpa [numbered] using hwritten⟩
  | cons row rows ih =>
    rw [List.forall_mem_cons] at hspans
    have hreached : s.Reached k 0 := ⟨habove, Int.le_refl 0, fun c' hc' hlt => by omega⟩
    obtain ⟨hs', habove', hwritten'⟩ :=
      @scanRow_scanned _ (s, 0) k _ hs hreached hspans.1 hwritten
    have hrest := ih (k := k + 1) hs' (fun cell hcell => by have := habove' cell hcell; omega)
      hspans.2 hwritten'
    rwa [List.append_assoc] at hrest

end ControlPlane.Documents
