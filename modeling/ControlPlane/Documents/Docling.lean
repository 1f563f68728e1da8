/-
  DOCLING NORMALIZATION: `from_docling` of `theorem_ml/extract/elements.py`.

  An export of a Docling document is a dictionary of items that point at each other by `$ref`.  What its
  models type is typed here; a text that such a model has validated is a `String`, without lone
  surrogates.  What is read by no name is kept as it is (`entries`).

  `visit` goes down the children of an item.  The items it is inside of (`active`) are references of the
  document, each once, so it comes to an end; how deep Python lets it go is not modelled.
-/
import ControlPlane.Documents.Elements
import ControlPlane.PyDict

namespace ControlPlane.Documents

open PyStr

/-! ## Exports -/

/-- What `_bbox` is given: a mapping of sides, or coordinates one after the other. -/
inductive BoundingBox where
  | sides (l t r b : PyFloat)
  | coordinates (xs : List PyFloat)

structure Provenance where
  pageNo : Option Int := none
  bbox : Option BoundingBox := none

structure TableCell where
  startRowOffsetIdx : Int
  startColOffsetIdx : Int
  rowSpan : Int := 1
  colSpan : Int := 1
  text : String := ""
  bbox : Option BoundingBox := none
  /-- The cell itself. -/
  entries : List (PyStr × PyValue) := []

structure TableData where
  tableCells : List TableCell := []
  numRows : Int := 0
  numCols : Int := 0
  /-- The dictionary itself. -/
  entries : List (PyStr × PyValue) := []

/-- An item of `texts`, `tables`, `pictures` or `groups`, or the body or the furniture; absent entries
    have the defaults that `get` is called with. -/
structure DoclingItem where
  selfRef : String
  label : String := ""
  text : String := ""
  children : List String := []
  parent : Option String := none
  captions : List String := []
  prov : List Provenance := []
  level : Int := 1
  codeLanguage : String := "unknown"
  data : TableData := {}
  /-- The entries under other keys than `text`, `children`, `parent`, `self_ref`, `label`, `data`. -/
  entries : List (PyStr × PyValue) := []

/-- `export_to_dict()`. -/
structure DoclingDict where
  texts : List DoclingItem := []
  tables : List DoclingItem := []
  pictures : List DoclingItem := []
  groups : List DoclingItem := []
  body : Option DoclingItem := none
  furniture : Option DoclingItem := none

/-- `DOCLING_LABELS`. -/
def doclingLabels : List (String × String) :=
  [("title", "Title"), ("section_header", "SectionHeader"), ("text", "Paragraph"),
    ("paragraph", "Paragraph"), ("list_item", "ListItem"), ("table", "Table"),
    ("picture", "Figure"), ("formula", "Formula"), ("code", "Code"),
    ("page_header", "Header"), ("page_footer", "Footer"), ("page_break", "PageBreak"),
    ("footnote", "Footnote"), ("caption", "Caption"), ("checkbox_selected", "Paragraph"),
    ("checkbox_unselected", "Paragraph"), ("reference", "Paragraph")]

/-- `DOCLING_LABELS.get(label)`. -/
def DoclingItem.kind (item : DoclingItem) : Option String := doclingLabels.lookup item.label

/-- The two roots of the traversal. -/
def DoclingDict.roots (doc : DoclingDict) : List DoclingItem := doc.body.toList ++ doc.furniture.toList

/-- `references`: the last item under a `self_ref`, in the place of the first. -/
def DoclingDict.references (doc : DoclingDict) : List (String × DoclingItem) :=
  (doc.texts ++ doc.tables ++ doc.pictures ++ doc.groups ++ doc.roots).foldl
    (fun references item => PyDict.set references item.selfRef item) []

/-! ## Elements of one item -/

/-- `_bbox`. -/
def bboxOf : Option BoundingBox → Except Failure (Option (List PyValue))
  | none => .ok none
  | some (.sides l t r b) => .ok (some [.float l, .float t, .float r, .float b])
  | some (.coordinates xs) =>
      if xs.length ≠ 4 then .error (.element (lit "Expected four bounding-box coordinates"))
      else .ok (some (xs.map .float))

variable (hexdigest : List UInt8 → String) (sourceId : String)

/-- `element_id`, where `hexdigest` is that of SHA-256. -/
def elementId (address : String) : String :=
  hexdigest (encoded (lit (sourceId ++ "\x00" ++ address)))

/-- The id of an item's element. -/
def doclingId (ref : String) : PyStr := lit (elementId hexdigest sourceId ("docling/" ++ ref))

/-- `range(start, start + span)`. -/
def span (start span : Int) : List Int := (List.range span.toNat).map fun k => start + k

/-- What the loop of `_table_elements` fills. -/
structure Grid where
  rows : List (List PyStr)
  merged : List PyValue := []
  result : List DocElement := []
  occupied : List (Int × Int) := []

/-- `rows[r][c] = text`. -/
def Grid.write (g : Grid) (r c : Int) (text : PyStr) : List (List PyStr) :=
  g.rows.modify r.toNat fun row => row.set c.toNat text

/-- The cell at place `index`. -/
def cellElement (parentId : String) (page : Option Int) (index : Nat) (cell : TableCell)
    (bbox : Option (List PyValue)) : DocElement where
  id := lit (elementId hexdigest sourceId (parentId ++ "/cell/" ++ toString index))
  kind := lit "TableCell"
  text := lit cell.text
  page := page
  bbox := bbox
  parent := some (lit parentId)
  order := index
  attributes := cell.entries

/-- One turn of the loop. -/
def Grid.add (data : TableData) (parentId : String) (page : Option Int) (g : Grid)
    (entry : TableCell × Nat) : Except Failure Grid := do
  let (cell, index) := entry
  let (r, c, rs, cs) := (cell.startRowOffsetIdx, cell.startColOffsetIdx, cell.rowSpan, cell.colSpan)
  if min rs cs < 1 ∨ r < 0 ∨ c < 0 ∨ data.numRows < r + rs ∨ data.numCols < c + cs then
    .error (.element (lit "Invalid table cell extent"))
  else
    let extent := (span r rs).product (span c cs)
    if extent.any (· ∈ g.occupied) then .error (.element (lit "Overlapping table cells"))
    else
      let bbox ← bboxOf cell.bbox
      .ok {
        rows := g.write r c (lit cell.text)
        merged := if 1 < rs ∨ 1 < cs then
            g.merged ++ [.dict [(lit "row", .int r), (lit "column", .int c),
              (lit "row_span", .int rs), (lit "col_span", .int cs)]]
          else g.merged
        result := g.result ++ [cellElement hexdigest sourceId parentId page index cell bbox]
        occupied := g.occupied ++ extent }

/-- `_table_elements`: the cells, and the attributes that it puts on the table. -/
def tableElements (data : TableData) (parentId : String) (page : Option Int) :
    Except Failure (List DocElement × List (PyStr × PyValue)) := do
  let empty : Grid :=
    { rows := List.replicate data.numRows.toNat (List.replicate data.numCols.toNat []) }
  let g ← data.tableCells.zipIdx.foldlM (Grid.add hexdigest sourceId data parentId page) empty
  .ok (g.result,
    [(lit "rows", .list (g.rows.map fun row => .list (row.map .str))),
      (lit "merged_cells", .list g.merged), (lit "num_rows", .int data.numRows),
      (lit "num_cols", .int data.numCols)])

/-- `attributes.update(…)`. -/
def update (attributes entries : List (PyStr × PyValue)) : List (PyStr × PyValue) :=
  entries.foldl (fun attributes e => PyDict.set attributes e.1 e.2) attributes

variable (doc : DoclingDict)

/-- `references[x["$ref"]].get("text", "")` for a caption. -/
def captionText (ref : String) : Except Failure String :=
  match doc.references.lookup ref with
  | none => .error (.keyError (lit ref))
  | some item => .ok item.text

/-- The attributes that an item has by its kind. -/
def kindAttributes (item : DoclingItem) (kind : String) : Except Failure (List (PyStr × PyValue)) := do
  if kind = "SectionHeader" then .ok [(lit "level", .int item.level)]
  else if kind = "Formula" then .ok [(lit "latex", .str (lit item.text))]
  else if kind = "Code" then .ok [(lit "language", .str (lit item.codeLanguage))]
  else if kind = "Figure" then
    let texts ← item.captions.mapM (captionText doc)
    .ok [(lit "caption", .str (lit ("\n".intercalate texts)))]
  else .ok []

/-- The element of an item and its cells, with what comes before it. -/
def itemElements (ref : String) (item : DoclingItem) (kind : String) (parent : Option PyStr)
    (order : Nat) : Except Failure (List DocElement) := do
  let first := item.prov.headD {}
  let bbox ← bboxOf first.bbox
  let byKind ← kindAttributes doc item kind
  let e : DocElement := {
    id := doclingId hexdigest sourceId ref
    kind := lit kind
    text := lit item.text
    page := first.pageNo
    bbox := bbox
    parent := parent
    order := order
    attributes := update item.entries
      ([(lit "source_ref", .str (lit ref)), (lit "source_label", .str (lit item.label))] ++ byKind) }
  if kind = "Table" then
    let (cells, attributes) ← tableElements hexdigest sourceId item.data
      (elementId hexdigest sourceId ("docling/" ++ ref)) first.pageNo
    let data := [(lit "table_data", PyValue.dict item.data.entries)]
    .ok ({ e with attributes := update e.attributes (data ++ attributes) } :: cells)
  else .ok [e]

/-! ## The traversal -/

/-- `output` and `emitted`. -/
structure Walk where
  output : List DocElement := []
  emitted : List String := []

/-- A leaf with a text that no kind of element takes. -/
def DoclingItem.unsupported (item : DoclingItem) : Bool :=
  item.kind.isNone && item.children.isEmpty && item.text ≠ ""

/-- What `visit` appends for an item, and the parent of its children. -/
def enter (ref : String) (item : DoclingItem) (parent : Option PyStr) (output : List DocElement) :
    Except Failure (List DocElement × Option PyStr) :=
  match item.kind with
  | some kind => do
      let elements ← itemElements hexdigest sourceId doc ref item kind parent output.length
      .ok (output ++ elements, some (doclingId hexdigest sourceId ref))
  | none =>
      if item.unsupported then
        .error (.element (lit ("Unsupported Docling text label: " ++ item.label)))
      else .ok (output, parent)

/-- The references that are not active. -/
def waiting (active : List String) : List (String × DoclingItem) :=
  doc.references.filter fun e => e.1 ∉ active

theorem waiting_lt {doc : DoclingDict} {active : List String} {ref : String} {item : DoclingItem}
    (hnew : ref ∉ active) (hlookup : doc.references.lookup ref = some item) :
    (waiting doc (ref :: active)).length < (waiting doc active).length := by
  have hmem : (ref, item) ∈ waiting doc active :=
    List.mem_filter.mpr ⟨PyDict.mem_of_lookup hlookup, decide_eq_true hnew⟩
  have hfilter : waiting doc (ref :: active) = (waiting doc active).filter fun e => e.1 ≠ ref := by
    rw [waiting, waiting, List.filter_filter]
    refine List.filter_congr fun e _ => ?_
    simp [not_or]
  rw [hfilter]
  exact List.length_filter_lt_length_iff_exists.mpr ⟨(ref, item), hmem, by simp⟩

/-- `visit`, inside of the items `active`. -/
def visit (active : List String) (ref : String) (parent : Option PyStr) (w : Walk) :
    Except Failure Walk :=
  if _ : ref ∈ active then .error (.element (lit "Docling document contains a cycle"))
  else if ref ∈ w.emitted then .ok w
  else match _ : doc.references.lookup ref with
    | none => .error (.element (lit ("Dangling Docling reference: " ++ ref)))
    | some item => do
        let (output, childParent) ← enter hexdigest sourceId doc ref item parent w.output
        let w ← item.children.foldlM (fun w child => visit (ref :: active) child childParent w)
          { w with output := output }
        .ok { w with emitted := w.emitted ++ [ref] }
termination_by (waiting doc active).length
decreasing_by exact waiting_lt ‹_› ‹_›

/-- The parent of an item that was not reached: that of its `parent`, if it has an element. -/
def linkedParent (item : DoclingItem) (w : Walk) : Option PyStr :=
  item.parent.bind fun parentRef =>
    if parentRef ∈ w.emitted ∧ ((doc.references.lookup parentRef).bind DoclingItem.kind).isSome then
      some (doclingId hexdigest sourceId parentRef)
    else none

/-- The items that have a kind and were not reached. -/
def visitLinked (w : Walk) (entry : String × DoclingItem) : Except Failure Walk :=
  if entry.2.kind.isSome ∧ entry.1 ∉ w.emitted then
    visit hexdigest sourceId doc [] entry.1 (linkedParent hexdigest sourceId doc entry.2 w) w
  else .ok w

/-! ## Captions and sections -/

/-- `by_id[id].parent = owner`, where `by_id` has the last element under an id. -/
def setParent (id owner : PyStr) : List DocElement → List DocElement
  | [] => []
  | e :: rest =>
      if e.id = id ∧ id ∉ rest.map DocElement.id then { e with parent := some owner } :: rest
      else e :: setParent id owner rest

/-- The captions of one item. -/
def ownCaptions (elements : List DocElement) (entry : String × DoclingItem) : List DocElement :=
  if doclingId hexdigest sourceId entry.1 ∈ elements.map DocElement.id then
    entry.2.captions.foldl (fun elements caption =>
      setParent (doclingId hexdigest sourceId caption) (doclingId hexdigest sourceId entry.1) elements)
      elements
  else elements

/-- `int(e.attributes.get("level", 1))`; a section header has the integer that `from_docling` sets. -/
def DocElement.level (e : DocElement) : Int :=
  ((e.attributes.lookup (lit "level")).bind PyValue.int?).getD 1

/-- The kinds that stand outside of the sections. -/
def unsectioned : List PyStr := [lit "Title", lit "Header", lit "Footer", lit "PageBreak"]

/-- An element without a parent goes into the innermost section. -/
def DocElement.adopt (sections : List (Int × PyStr)) (e : DocElement) : DocElement :=
  if e.parent = none then { e with parent := sections.head?.map Prod.snd } else e

/-- One turn of `section_hierarchy`; the innermost section comes first. -/
def DocElement.section (sections : List (Int × PyStr)) (e : DocElement) :
    DocElement × List (Int × PyStr) :=
  if e.kind = lit "SectionHeader" then
    let sections := sections.dropWhile fun s => e.level ≤ s.1
    (e.adopt sections, (e.level, e.id) :: sections)
  else if e.kind ∉ unsectioned then (e.adopt sections, sections)
  else (e, sections)

/-- `section_hierarchy`, inside of the sections. -/
def sectionHierarchy (sections : List (Int × PyStr)) : List DocElement → List DocElement
  | [] => []
  | e :: rest => (e.section sections).1 :: sectionHierarchy (e.section sections).2 rest

/-! ## `from_docling` -/

/-- Body and furniture, then the items that are linked in another way. -/
def traverse : Except Failure Walk := do
  let w ← (doc.roots.map DoclingItem.selfRef).foldlM
    (fun w ref => visit hexdigest sourceId doc [] ref none w) {}
  doc.references.foldlM (visitLinked hexdigest sourceId doc) w

/-- `from_docling`. -/
def fromDocling : Except Failure DocElementTree := do
  let w ← traverse hexdigest sourceId doc
  buildTree (lit sourceId)
    (sectionHierarchy [] (doc.references.foldl (ownCaptions hexdigest sourceId) w.output))

end ControlPlane.Documents
