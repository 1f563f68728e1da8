/-
  PADDLE NORMALIZATION: `from_paddle` of `theorem_ml/extract/elements.py`, and that it builds the section
  structure of `section_hierarchy`.

  A page is a list of blocks in reading order; what the layout model types is typed here, a level is any
  value.  The HTML parser is `soup`: the rows of the first table of a text, if there is one.

  `from_paddle` keeps a stack of sections while it goes through the blocks, and cells of tables come in
  between.  Both stacks hold the open headers, so what is not a cell is what `section_hierarchy` makes of
  the same elements without their parents (`Agrees`, by induction on the blocks).
-/
import ControlPlane.Documents.HtmlTable
import ControlPlane.Documents.Sections

namespace ControlPlane.Documents

open PyStr OpenHeaders

/-! ## Pages -/

/-- An entry of `parsing_res_list`; absent entries have the defaults that `get` is called with. -/
structure PaddleBlock (γ : Type) where
  blockLabel : PyStr
  /-- `str(block.get("block_content", ""))`. -/
  content : PyStr := []
  level : PyValue := .int 1
  bbox : Option BoundingBox := none
  language : PyValue := .str (lit "unknown")
  caption : PyValue := .str []
  /-- `none` where the key is absent; a group may be `None` itself. -/
  groupId : Option (Option γ) := none
  /-- The entries under other keys than `block_content`. -/
  entries : List (PyStr × PyValue) := []

structure PaddlePage (γ : Type) where
  pageIndex : Option Int := none
  parsingResList : Option (List (PaddleBlock γ)) := none

/-- `PADDLE_LABELS`. -/
def paddleLabels : List (String × String) :=
  [("doc_title", "Title"), ("paragraph_title", "SectionHeader"), ("text", "Paragraph"),
    ("list", "ListItem"), ("list_item", "ListItem"), ("table", "Table"), ("image", "Figure"),
    ("chart", "Figure"), ("figure", "Figure"), ("formula", "Formula"),
    ("display_formula", "Formula"), ("inline_formula", "Formula"), ("code", "Code"),
    ("header", "Header"), ("footer", "Footer"), ("number", "Footer"), ("footnote", "Footnote"),
    ("reference", "Paragraph"), ("figure_title", "Caption"), ("table_title", "Caption"),
    ("table_caption", "Caption"), ("figure_caption", "Caption"), ("caption", "Caption"),
    ("abstract", "Paragraph"), ("content", "Paragraph"), ("aside_text", "Paragraph"),
    ("vision_footnote", "Footnote"), ("seal", "Figure"), ("algorithm", "Code")]

/-- `PADDLE_LABELS.get(label)`. -/
def paddleKind (label : PyStr) : Option String :=
  (paddleLabels.map fun e => (lit e.1, e.2)).lookup label

/-- What `from_paddle` raises: as the rest of the module does, or what `int` raises. -/
inductive PaddleFailure where
  | failure (failure : Failure)
  | int

/-- A `th` or `td` as the parser finds it, its spans as they are written. -/
structure SoupCell where
  text : String
  rowspan : Option PyStr := none
  colspan : Option PyStr := none
  header : Bool := false

/-! ## One block -/

section Blocks

variable {γ : Type} [DecidableEq γ] (hexdigest : List UInt8 → String) (sourceId : String)
  (decimal : CodePoint → Option Nat) (soup : PyStr → Option (List (List SoupCell))) (page : Int)

/-- `int(cell.get(name, 1))`. -/
def readSpan (written : Option PyStr) : Except PaddleFailure Int :=
  match written with
  | none => .ok 1
  | some text => ((intText decimal text).map Except.ok).getD (.error .int)

def SoupCell.read (cell : SoupCell) : Except PaddleFailure HtmlCell := do
  let rowspan ← readSpan decimal cell.rowspan
  let colspan ← readSpan decimal cell.colspan
  .ok { text := cell.text, rowspan := rowspan, colspan := colspan, header := cell.header }

/-- The rows of the table in a text. -/
def readTable (text : PyStr) : Except PaddleFailure (List (List HtmlCell)) :=
  match soup text with
  | none =>
      .error (.failure (.element (lit "Paddle table output omitted structural HTML table")))
  | some rows => rows.mapM fun row => row.mapM (SoupCell.read decimal)

/-- The level of a section header, and the sections that it leaves open. -/
def PaddleBlock.enter (block : PaddleBlock γ) (kind : String) (sections : List (Int × PyStr)) :
    Except PaddleFailure (Option Int × List (Int × PyStr)) :=
  if kind = "SectionHeader" then
    match block.level.toInt decimal with
    | none => .error .int
    | some level => .ok (some level, sections.dropWhile fun s => level ≤ s.1)
  else .ok (none, sections)

/-- What a block has by its kind. -/
def PaddleBlock.kindAttributes (block : PaddleBlock γ) (kind : String) : List (PyStr × PyValue) :=
  if kind = "Formula" then [(lit "latex", .str block.content)]
  else if kind = "Code" then [(lit "language", block.language)]
  else if kind = "Figure" then [(lit "caption", block.caption)]
  else []

def paddleId (index : Nat) : String :=
  elementId hexdigest sourceId ("paddle/" ++ toString page ++ "/" ++ toString index)

/-- The element of a block. -/
def PaddleBlock.element (block : PaddleBlock γ) (index order : Nat) (kind : String)
    (bbox : Option (List PyValue)) (level : Option Int) (sections : List (Int × PyStr)) : DocElement where
  id := lit (paddleId hexdigest sourceId page index)
  kind := lit kind
  text := if kind = "Table" then [] else block.content
  page := some page
  bbox := bbox
  parent := if kind ∈ ["Title", "Header", "Footer"] then none else sections.head?.map Prod.snd
  order := order
  attributes := update block.entries
    ((level.map fun level => (lit "level", PyValue.int level)).toList ++ block.kindAttributes kind)

/-- The cells of a block that is a table, and the attributes that they give it. -/
def PaddleBlock.cells (block : PaddleBlock γ) (index : Nat) (kind : String) :
    Except PaddleFailure (List DocElement × List (PyStr × PyValue)) :=
  if kind = "Table" then do
    let rows ← readTable decimal soup block.content
    let (cells, attributes) ← (tableElements hexdigest sourceId (htmlTableData rows)
      (paddleId hexdigest sourceId page index) (some page)).mapError .failure
    .ok (cells, (lit "source_html", .str block.content) :: attributes)
  else .ok ([], [])

/-- `elements`, each with its `group_id`, and `sections`; the innermost section comes first. -/
structure PaddleWalk (γ : Type) where
  elements : List (DocElement × Option (Option γ)) := []
  sections : List (Int × PyStr) := []

/-- One turn of the loop. -/
def PaddleWalk.turn (w : PaddleWalk γ) (entry : PaddleBlock γ × Nat) :
    Except PaddleFailure (PaddleWalk γ) :=
  match paddleKind entry.1.blockLabel with
  | none => .error (.failure
      (.element (lit "Unsupported Paddle block label: " ++ entry.1.blockLabel)))
  | some kind => do
      let (level, sections) ← entry.1.enter decimal kind w.sections
      let bbox ← (bboxOf entry.1.bbox).mapError .failure
      let e := entry.1.element hexdigest sourceId page entry.2 w.elements.length kind bbox level sections
      let (cells, attributes) ← entry.1.cells hexdigest sourceId decimal soup page entry.2 kind
      .ok {
        elements := w.elements ++ ({ e with attributes := update e.attributes attributes },
          entry.1.groupId) :: cells.map fun cell => (cell, none)
        sections := (level.map fun level => (level, e.id)).toList ++ sections }

/-- The loop over the blocks of a page. -/
def paddleBlocks (blocks : List (PaddleBlock γ)) : Except PaddleFailure (PaddleWalk γ) :=
  blocks.zipIdx.foldlM (PaddleWalk.turn hexdigest sourceId decimal soup page) {}

/-! ## Captions -/

/-- `owners`: the last figure or table of every group. -/
def owners (elements : List (DocElement × Option (Option γ))) : List (Option γ × PyStr) :=
  elements.foldl (fun owners e =>
    match e.2 with
    | some group =>
        if e.1.kind = lit "Figure" ∨ e.1.kind = lit "Table" then PyDict.set owners group e.1.id
        else owners
    | none => owners) []

/-- A caption goes to the owner of its group. -/
def ownCaption (owners : List (Option γ × PyStr)) (e : DocElement × Option (Option γ)) : DocElement :=
  match owners.lookup e.2.join with
  | some owner => if e.1.kind = lit "Caption" then { e.1 with parent := some owner } else e.1
  | none => e.1

/-- `from_paddle`, of a page that is decoded; `page` is given, or that of the result. -/
def fromPaddle (page : Option Int) (result : PaddlePage γ) : Except PaddleFailure DocElementTree :=
  match result.parsingResList with
  | none =>
      .error (.failure (.element (lit "Expected official Paddle page parsing_res_list")))
  | some blocks => do
      let w ← paddleBlocks hexdigest sourceId decimal soup
        (page.getD (result.pageIndex.getD 0 + 1)) blocks
      (buildTree (lit sourceId) (w.elements.map (ownCaption (owners w.elements)))).mapError .failure

end Blocks

/-! ## The sections are those of `section_hierarchy` -/

section Sections

variable {γ : Type} {hexdigest : List UInt8 → String} {sourceId : String}
  {decimal : CodePoint → Option Nat} {soup : PyStr → Option (List (List SoupCell))} {page : Int}
  {w w' : PaddleWalk γ} {block : PaddleBlock γ} {kind : String} {index : Nat}

/-- The elements that are no cells of tables. -/
def PaddleWalk.nonCells (w : PaddleWalk γ) : List DocElement :=
  (w.elements.map Prod.fst).filter fun e => !e.isCell

/-- The element without its parent. -/
def DocElement.cleared (e : DocElement) : DocElement := { e with parent := none }

theorem paddleKind_cases {label : PyStr} (h : paddleKind label = some kind) :
    lit kind ≠ lit "TableCell" ∧ (lit kind ∈ unsectioned ↔ kind ∈ ["Title", "Header", "Footer"]) := by
  have hall : ∀ e ∈ paddleLabels.map (fun e => (lit e.1, e.2)), lit e.2 ≠ lit "TableCell" ∧
      (lit e.2 ∈ unsectioned ↔ e.2 ∈ ["Title", "Header", "Footer"]) := by decide
  exact hall _ (PyDict.mem_of_lookup h)

theorem enter_paddle {sections sections' : List (Int × PyStr)} {level : Option Int}
    (h : block.enter decimal kind sections = .ok (level, sections')) :
    (kind = "SectionHeader" ∧ ∃ n, level = some n ∧ sections' = sections.dropWhile fun s => n ≤ s.1) ∨
      (kind ≠ "SectionHeader" ∧ level = none ∧ sections' = sections) := by
  unfold PaddleBlock.enter at h
  split at h
  · rename_i hkind
    split at h
    · cases h
    · rename_i n _
      cases h
      exact Or.inl ⟨hkind, n, rfl, rfl⟩
  · rename_i hkind
    cases h
    exact Or.inr ⟨hkind, rfl, rfl⟩

theorem cells_paddle {cells : List DocElement} {attributes : List (PyStr × PyValue)}
    (h : block.cells hexdigest sourceId decimal soup page index kind = .ok (cells, attributes)) :
    (∀ cell ∈ cells, cell.isCell = true) ∧ (kind ≠ "Table" → attributes = []) := by
  unfold PaddleBlock.cells at h
  split at h
  · rename_i hkind
    obtain ⟨rows, -, h⟩ := Fallible.bind_ok.mp h
    obtain ⟨⟨cells', attributes'⟩, htable, h⟩ := Fallible.bind_ok.mp h
    cases h
    have hcells := (tableElements_ok (Fallible.mapError_ok.mp htable)).1
    exact ⟨fun cell hcell => (hcells.cell cell hcell).1, fun hne => absurd hkind hne⟩
  · cases h
    exact ⟨fun cell hcell => absurd hcell List.not_mem_nil, fun _ => rfl⟩

/-- The element of a block, with the attributes of its table. -/
def PaddleBlock.written (hexdigest : List UInt8 → String) (sourceId : String) (page : Int)
    (block : PaddleBlock γ) (index order : Nat) (kind : String) (bbox : Option (List PyValue))
    (level : Option Int) (sections : List (Int × PyStr)) (more : List (PyStr × PyValue)) : DocElement :=
  let e := block.element hexdigest sourceId page index order kind bbox level sections
  { e with attributes := update e.attributes more }

/-- A section header keeps the level that it was entered with. -/
theorem written_level {order : Nat} {bbox : Option (List PyValue)} {n : Int}
    {sections : List (Int × PyStr)} :
    (block.written hexdigest sourceId page index order "SectionHeader" bbox (some n) sections
      []).cleared.intLevel decimal = some n := by
  have hlookup : (update (update block.entries [(lit "level", .int n)]) []).lookup (lit "level") =
      some (.int n) := by
    simp only [update, List.foldl_cons, List.foldl_nil]
    rw [PyDict.lookup_set, if_pos rfl]
  unfold DocElement.intLevel
  refine (congrArg (fun v => (Option.getD v (.int 1)).toInt decimal) hlookup).trans rfl

/-- **One element** gets the section that `section_hierarchy` gives it. -/
theorem written_turn {order : Nat} {bbox : Option (List PyValue)} {level : Option Int}
    {sections₀ sections : List (Int × PyStr)} {more : List (PyStr × PyValue)} {e : DocElement}
    (hkind : lit kind ∈ unsectioned ↔ kind ∈ ["Title", "Header", "Footer"])
    (henter : block.enter decimal kind sections₀ = .ok (level, sections))
    (hmore : kind ≠ "Table" → more = [])
    (he : e = block.written hexdigest sourceId page index order kind bbox level sections more) :
    (e.cleared.kind = lit "SectionHeader" → (e.cleared.intLevel decimal).isSome = true) ∧
      e.cleared.turn decimal sections₀ =
        some (e, (level.map fun level => (level, e.id)).toList ++ sections) := by
  have hid : e.cleared.kind = lit kind := by rw [he]; rfl
  have hparent : e.parent =
      if kind ∈ ["Title", "Header", "Footer"] then none else sections.head?.map Prod.snd := by
    rw [he]
    rfl
  -- behind `adopt`, the element has its own parent again
  have hadopt : kind ∉ ["Title", "Header", "Footer"] → e.cleared.adopt sections = e := by
    intro hnot
    rw [if_neg hnot] at hparent
    refine (if_pos rfl).trans ?_
    rw [← hparent]
    rfl
  unfold DocElement.turn
  rcases enter_paddle henter with ⟨rfl, n, rfl, hsections⟩ | ⟨hne, rfl, rfl⟩
  · obtain rfl := hmore (by decide)
    have hlevel : e.cleared.intLevel decimal = some n := by
      rw [he]
      exact written_level
    refine ⟨fun _ => by rw [hlevel]; rfl, ?_⟩
    rw [if_pos hid, hlevel, Option.map_some]
    refine congrArg some (Prod.ext ?_ ?_)
    · rw [← hsections]
      exact hadopt (by decide)
    · rw [hsections]
      rfl
  · have hheader : e.cleared.kind ≠ lit "SectionHeader" := fun heq =>
      hne (lit_injective (hid.symm.trans heq))
    refine ⟨fun heq => absurd heq hheader, ?_⟩
    rw [if_neg hheader]
    by_cases hunsectioned : kind ∈ ["Title", "Header", "Footer"]
    · have hmem : e.cleared.kind ∈ unsectioned := by
        rw [hid]
        exact hkind.mpr hunsectioned
      rw [if_neg (not_not.mpr hmem)]
      rw [if_pos hunsectioned] at hparent
      rw [DocElement.cleared, ← hparent]
      rfl
    · have hmem : e.cleared.kind ∉ unsectioned := by
        rw [hid]
        exact fun hin => hunsectioned (hkind.mp hin)
      rw [if_pos hmem, hadopt hunsectioned]
      rfl

/-- **One block** adds one element that is no cell, in its section. -/
theorem turn_paddle {entry : PaddleBlock γ × Nat}
    (h : w.turn hexdigest sourceId decimal soup page entry = .ok w') :
    ∃ e, w'.nonCells = w.nonCells ++ [e] ∧
      (e.cleared.kind = lit "SectionHeader" → (e.cleared.intLevel decimal).isSome = true) ∧
      e.cleared.turn decimal w.sections = some (e, w'.sections) := by
  unfold PaddleWalk.turn at h
  split at h
  · cases h
  rename_i kind hkind
  obtain ⟨hcell, hsectioned⟩ := paddleKind_cases hkind
  obtain ⟨⟨level, sections⟩, henter, h⟩ := Fallible.bind_ok.mp h
  obtain ⟨bbox, -, h⟩ := Fallible.bind_ok.mp h
  obtain ⟨⟨cells, attributes⟩, hcells, h⟩ := Fallible.bind_ok.mp h
  cases h
  obtain ⟨hall, hattributes⟩ := cells_paddle hcells
  obtain ⟨e, he⟩ : ∃ e, e = entry.1.written hexdigest sourceId page entry.2 w.elements.length kind bbox
    level sections attributes := ⟨_, rfl⟩
  have hid : e.isCell = false := by
    rw [he]
    exact decide_eq_false hcell
  have hnone : cells.filter (fun e => !e.isCell) = [] :=
    List.filter_eq_nil_iff.mpr fun cell hmem => by simp [hall cell hmem]
  have hfilter : (e :: cells).filter (fun e => !e.isCell) = [e] := by
    rw [List.filter_cons_of_pos (by rw [hid]; rfl), hnone]
  have hcells : (cells.map fun cell => (cell, (none : Option (Option γ)))).map Prod.fst = cells := by
    rw [List.map_map]
    exact List.map_id _
  obtain ⟨hlevel, hturn⟩ := written_turn hsectioned henter hattributes he
  subst he
  refine ⟨_, ?_, hlevel, hturn⟩
  unfold PaddleWalk.nonCells
  rw [List.map_append, List.filter_append, List.map_cons, hcells]
  exact congrArg _ hfilter

variable (decimal) in
/-- So far, the elements have the sections of `section_hierarchy`. -/
structure PaddleWalk.Agrees (w : PaddleWalk γ) : Prop where
  sections : w.sections = stacked decimal (w.nonCells.map DocElement.cleared)
  elements : sectionedFrom decimal [] (w.nonCells.map DocElement.cleared) = w.nonCells
  levels : ∀ e ∈ w.nonCells.map DocElement.cleared, e.kind = lit "SectionHeader" →
    (e.intLevel decimal).isSome = true

theorem PaddleWalk.Agrees.turn {entry : PaddleBlock γ × Nat} (hw : w.Agrees decimal)
    (h : w.turn hexdigest sourceId decimal soup page entry = .ok w') : w'.Agrees decimal := by
  obtain ⟨e, hnew, hlevel, hturn⟩ := turn_paddle h
  rw [hw.sections, stacked_turn hlevel] at hturn
  obtain ⟨hsectioned, hstacked⟩ := Prod.mk.inj (Option.some.inj hturn)
  refine ⟨?_, ?_, ?_⟩
  · rw [hnew, List.map_append, List.map_singleton, ← hstacked]
  · rw [hnew, List.map_append, List.map_singleton, sectionedFrom_snoc, hw.elements, List.nil_append,
      hsectioned]
  · rw [hnew, List.map_append, List.map_singleton, List.forall_mem_append, List.forall_mem_singleton]
    exact ⟨hw.levels, hlevel⟩

/-- **All blocks.** -/
theorem paddleBlocks_agrees {blocks : List (PaddleBlock γ)}
    (h : paddleBlocks hexdigest sourceId decimal soup page blocks = .ok w) : w.Agrees decimal := by
  have hempty : PaddleWalk.Agrees decimal ({} : PaddleWalk γ) :=
    ⟨rfl, rfl, fun e he => absurd he List.not_mem_nil⟩
  exact @Fallible.foldlM_processed _ _ _ _ _ _ _ (fun _ w => PaddleWalk.Agrees decimal w) []
    (fun _ _ _ _ _ hw hturn => hw.turn hturn) hempty h

end Sections

end ControlPlane.Documents
