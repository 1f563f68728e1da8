/-
  DOES NORMALIZATION DROP TEXT?

  1. The output of the traversal is made of BLOCKS, an element and the cells of its table, one block for
     every reference of a known kind (`Walk.Sound`, by induction on the references that are not active).
  2. An item shows as the element that stands for its reference, and a table shows its cells behind
     that element (`shown_of_blocks`); captions, sections and the layout change none of this
     (`fromDocling_shapes`).
  3. What was visited is closed under children and free of cycles.  So a reference that leads nowhere,
     a cycle, and a leaf of no kind that has a text are refused, where the traversal comes by.

  It comes by the body, the furniture and the items of a known kind, and what is below (`Visited`).  An
  item of no known kind keeps its text to itself when it is not visited, or when it has children, and a
  table of no known kind keeps its cells.  `Covered` says that a document has nothing of the sort.
-/
import ControlPlane.Documents.Docling
import ControlPlane.Documents.Trees
import Mathlib.Logic.Relation

namespace ControlPlane.Documents

open PyStr

/-! ## What shows in a tree -/

def DocElement.isCell (e : DocElement) : Bool := e.kind = lit "TableCell"

/-- `attributes["source_ref"]`. -/
def DocElement.sourceRef (e : DocElement) : Option PyStr :=
  (e.attributes.lookup (lit "source_ref")).bind PyValue.str?

/-- The element is that of the item. -/
def DocElement.standsFor (ref : String) (e : DocElement) : Bool :=
  !e.isCell && decide (e.sourceRef = some (lit ref))

/-- The texts of the elements of an item. -/
def textsOf (ref : String) (elements : List DocElement) : List PyStr :=
  (elements.filter (DocElement.standsFor ref)).map DocElement.text

/-- The texts of the cells that stand behind the element of an item. -/
def cellsBehind (ref : String) (elements : List DocElement) : List PyStr :=
  ((elements.dropWhile fun e => !e.standsFor ref).tail.takeWhile DocElement.isCell).map DocElement.text

/-- Every text is carried by exactly one element, and every cell of a table stands once behind the one
    element of the table. -/
structure Preserved (doc : DoclingDict) (elements : List DocElement) : Prop where
  texts : ∀ item ∈ doc.texts ++ doc.tables ++ doc.pictures, item.text ≠ "" →
    textsOf item.selfRef elements = [lit item.text]
  cells : ∀ item ∈ doc.tables, item.data.tableCells ≠ [] →
    (textsOf item.selfRef elements).length = 1 ∧
      cellsBehind item.selfRef elements = item.data.tableCells.map fun cell => lit cell.text

/-- What decides about the above. -/
def DocElement.shape (e : DocElement) : Bool × Option PyStr × PyStr := (e.isCell, e.sourceRef, e.text)

section Shapes

variable {ref : String} {els els' : List DocElement}

theorem textsOf_congr (h : els.map DocElement.shape = els'.map DocElement.shape) :
    textsOf ref els = textsOf ref els' := by
  have hshape : ∀ els : List DocElement, textsOf ref els = ((els.map DocElement.shape).filter
      fun s => !s.1 && decide (s.2.1 = some (lit ref))).map fun s => s.2.2 := by
    intro els
    rw [List.filter_map, List.map_map]
    rfl
  rw [hshape, hshape, h]

theorem cellsBehind_congr (h : els.map DocElement.shape = els'.map DocElement.shape) :
    cellsBehind ref els = cellsBehind ref els' := by
  have hshape : ∀ els : List DocElement, cellsBehind ref els = (((els.map DocElement.shape).dropWhile
      fun s => !(!s.1 && decide (s.2.1 = some (lit ref)))).tail.takeWhile fun s => s.1).map
        fun s => s.2.2 := by
    intro els
    rw [List.dropWhile_map, ← List.map_tail, List.takeWhile_map, List.map_map]
    rfl
  rw [hshape, hshape, h]

end Shapes

/-! ## Blocks -/

/-- The element of an item, and behind it its cells. -/
structure IsBlock (ref : String) (item : DoclingItem) (els : List DocElement) : Prop where
  split : ∃ e cells, els = e :: cells ∧ e.standsFor ref = true ∧ e.text = lit item.text ∧
    (∀ cell ∈ cells, cell.isCell = true) ∧ cells.map DocElement.text =
      if item.kind = some "Table" then item.data.tableCells.map fun cell => lit cell.text else []

/-- Elements that are blocks, with the references that they stand for. -/
inductive Blocks (doc : DoclingDict) : List String → List DocElement → Prop where
  | nil : Blocks doc [] []
  | cons {ref : String} {item : DoclingItem} {els rest : List DocElement} {refs : List String}
      (hlookup : doc.references.lookup ref = some item) (hkind : item.kind.isSome = true)
      (hblock : IsBlock ref item els) (hnew : ref ∉ refs) (h : Blocks doc refs rest) :
      Blocks doc (ref :: refs) (els ++ rest)

section Blocks

variable {doc : DoclingDict} {ref ref' : String} {item : DoclingItem} {els rest : List DocElement}
  {refs : List String}

theorem standsFor_unique {e : DocElement} (h : e.standsFor ref = true) :
    e.standsFor ref' = true ↔ ref' = ref := by
  obtain ⟨hcell, hsource⟩ := Bool.and_eq_true_iff.mp h
  rw [DocElement.standsFor, hcell, Bool.true_and, of_decide_eq_true hsource, decide_eq_true_eq,
    Option.some_inj]
  exact ⟨fun heq => (lit_injective heq).symm, fun heq => heq ▸ rfl⟩

theorem not_standsFor_of_cell {e : DocElement} (h : e.isCell = true) : e.standsFor ref = false := by
  rw [DocElement.standsFor, h]
  rfl

theorem standsFor_of {e : DocElement} (hkind : e.kind ≠ lit "TableCell")
    (hsource : e.attributes.lookup (lit "source_ref") = some (.str (lit ref))) :
    e.standsFor ref = true := by
  have hcell : e.isCell = false := decide_eq_false hkind
  have hself : e.sourceRef = some (lit ref) := by
    rw [DocElement.sourceRef, hsource]
    rfl
  rw [DocElement.standsFor, hcell, hself]
  simp

/-- What follows a block begins with an element that is no cell. -/
theorem Blocks.head (h : Blocks doc refs els) : ∀ e ∈ els.head?, e.isCell = false := by
  cases h with
  | nil => exact fun e he => nomatch he
  | cons _ _ hblock _ _ =>
    obtain ⟨e, cells, rfl, hstands, -⟩ := hblock.split
    intro e' he'
    obtain rfl : e = e' := by simpa using he'
    simpa using (Bool.and_eq_true_iff.mp hstands).1

theorem textsOf_block (hblock : IsBlock ref item els) :
    textsOf ref' (els ++ rest) = (if ref' = ref then [lit item.text] else []) ++ textsOf ref' rest := by
  obtain ⟨e, cells, rfl, hstands, htext, hcells, -⟩ := hblock.split
  have hnone : cells.filter (DocElement.standsFor ref') = [] :=
    List.filter_eq_nil_iff.mpr fun cell hcell => by simp [not_standsFor_of_cell (hcells cell hcell)]
  rw [textsOf, textsOf, List.filter_append, List.filter_cons, hnone, List.map_append]
  split
  · rename_i hself
    rw [if_pos ((standsFor_unique hstands).mp hself)]
    simp [htext]
  · rename_i hother
    rw [if_neg fun heq => hother ((standsFor_unique hstands).mpr heq)]
    rfl

theorem cellsBehind_block (hblock : IsBlock ref item els)
    (hrest : ∀ e ∈ rest.head?, e.isCell = false) : cellsBehind ref' (els ++ rest) =
      if ref' = ref then
        if item.kind = some "Table" then item.data.tableCells.map fun cell => lit cell.text else []
      else cellsBehind ref' rest := by
  obtain ⟨e, cells, rfl, hstands, -, hcells, htexts⟩ := hblock.split
  rw [cellsBehind, List.cons_append, List.dropWhile_cons]
  by_cases href : ref' = ref
  · have hstop : rest.takeWhile DocElement.isCell = [] := by
      cases rest with
      | nil => rfl
      | cons e' rest => rw [List.takeWhile_cons, hrest e' rfl]; rfl
    rw [if_pos href, (standsFor_unique hstands).mpr href]
    simp only [Bool.not_true, Bool.false_eq_true, if_false, List.tail_cons]
    rw [List.takeWhile_append_of_pos hcells, hstop, List.append_nil, htexts]
  · have hpass : e.standsFor ref' = false :=
      Bool.eq_false_iff.mpr fun h => href ((standsFor_unique hstands).mp h)
    have hcellsPass : ∀ cell ∈ cells, (!cell.standsFor ref') = true := fun cell hcell => by
      rw [not_standsFor_of_cell (hcells cell hcell)]
      rfl
    rw [if_neg href, hpass]
    simp only [Bool.not_false, if_true]
    rw [List.dropWhile_append_of_pos hcellsPass, cellsBehind]

/-- **What shows of an item**: the text and the cells of the item that its reference leads to, if this
    has a known kind, and nothing else. -/
theorem Blocks.shown (h : Blocks doc refs els) :
    (∀ item, doc.references.lookup ref = some item → ref ∈ refs →
      textsOf ref els = [lit item.text] ∧ cellsBehind ref els =
        if item.kind = some "Table" then item.data.tableCells.map fun cell => lit cell.text else []) ∧
    (ref ∉ refs → textsOf ref els = [] ∧ cellsBehind ref els = []) := by
  induction h with
  | nil => exact ⟨fun _ _ hmem => absurd hmem List.not_mem_nil, fun _ => ⟨rfl, rfl⟩⟩
  | @cons ref' item' els rest refs hlookup _ hblock hnew hrest ih =>
    rw [textsOf_block hblock, cellsBehind_block hblock hrest.head]
    refine ⟨fun item hitem hmem => ?_, fun hnot => ?_⟩
    · by_cases href : ref = ref'
      · subst href
        obtain rfl : item' = item := Option.some.inj (hlookup.symm.trans hitem)
        rw [if_pos rfl, if_pos rfl, (ih.2 hnew).1]
        exact ⟨rfl, rfl⟩
      · rw [if_neg href, if_neg href]
        exact ih.1 item hitem ((List.mem_cons.mp hmem).resolve_left href)
    · obtain ⟨href, hnot⟩ := not_or.mp (fun hmem => hnot (List.mem_cons.mpr hmem))
      rw [if_neg href, if_neg href]
      exact ih.2 hnot

theorem Blocks.append {els' : List DocElement} (h : Blocks doc refs els)
    (hlookup : doc.references.lookup ref = some item) (hkind : item.kind.isSome = true)
    (hblock : IsBlock ref item els') (hnew : ref ∉ refs) :
    Blocks doc (refs ++ [ref]) (els ++ els') := by
  induction h with
  | nil =>
    have hsingle := Blocks.cons hlookup hkind hblock hnew Blocks.nil
    rwa [List.append_nil] at hsingle
  | @cons ref₀ item₀ els₀ rest refs hlookup₀ hkind₀ hblock₀ hnew₀ _ ih =>
    rw [List.cons_append, List.append_assoc]
    obtain ⟨hne, hnew⟩ := not_or.mp (fun hmem => hnew (List.mem_cons.mpr hmem))
    refine Blocks.cons hlookup₀ hkind₀ hblock₀ (fun hmem => ?_) (ih hnew)
    rcases List.mem_append.mp hmem with hmem | hmem
    · exact hnew₀ hmem
    · exact hne (List.mem_singleton.mp hmem).symm

theorem Blocks.kind (h : Blocks doc refs els) (hmem : ref ∈ refs) :
    ∃ item, doc.references.lookup ref = some item ∧ item.kind.isSome = true := by
  induction h with
  | nil => exact nomatch hmem
  | cons hlookup hkind _ _ _ ih =>
    rcases List.mem_cons.mp hmem with rfl | hmem
    · exact ⟨_, hlookup, hkind⟩
    · exact ih hmem

theorem Blocks.scalar (h : Blocks doc refs els) : ∀ e ∈ els, Scalar e.text := by
  induction h with
  | nil => exact fun e he => nomatch he
  | cons _ _ hblock _ _ ih =>
    obtain ⟨e, cells, rfl, -, htext, -, htexts⟩ := hblock.split
    intro e' he'
    rcases List.mem_append.mp he' with he' | he'
    · rcases List.mem_cons.mp he' with rfl | he'
      · rw [htext]
        exact lit_scalar _
      · have hmem := List.mem_map_of_mem (f := DocElement.text) he'
        rw [htexts] at hmem
        split at hmem
        · obtain ⟨cell, -, htext⟩ := List.mem_map.mp hmem
          rw [← htext]
          exact lit_scalar _
        · cases hmem
    · exact ih e' he'

end Blocks

/-! ## The elements of an item are a block -/

section Items

variable {hexdigest : List UInt8 → String} {sourceId parentId : String} {doc : DoclingDict}
  {data : TableData} {page : Option Int} {g g' : Grid} {failure : Failure}

theorem bboxOf_error {box : Option BoundingBox} (h : bboxOf box = .error failure) :
    failure.IsElement := by
  unfold bboxOf at h
  split at h
  · cases h
  · cases h
  · split at h
    · cases h
      exact ⟨_, rfl⟩
    · cases h

theorem Grid.add_ok {entry : TableCell × Nat}
    (h : g.add hexdigest sourceId data parentId page entry = .ok g') : ∃ bbox, g'.result =
      g.result ++ [cellElement hexdigest sourceId parentId page entry.2 entry.1 bbox] := by
  obtain ⟨-, h⟩ | ⟨-, h⟩ := Fallible.ite_ok h
  · cases h
  obtain ⟨-, h⟩ | ⟨-, h⟩ := Fallible.ite_ok h
  · cases h
  obtain ⟨bbox, -, h⟩ := Fallible.bind_ok.mp h
  cases h
  exact ⟨bbox, rfl⟩

theorem Grid.add_error {entry : TableCell × Nat}
    (h : g.add hexdigest sourceId data parentId page entry = .error failure) : failure.IsElement := by
  simp only [Grid.add] at h
  split at h
  · cases h
    exact ⟨_, rfl⟩
  · split at h
    · cases h
      exact ⟨_, rfl⟩
    · rcases Fallible.bind_error.mp h with h | ⟨_, _, h⟩
      · exact bboxOf_error h
      · cases h

/-- Elements that are the cells of one table. -/
structure AreCells (parentId : String) (texts : List PyStr) (els : List DocElement) : Prop where
  texts : els.map DocElement.text = texts
  cell : ∀ e ∈ els, e.isCell = true ∧ e.parent = some (lit parentId)

/-- Every turn of the loop appends one cell. -/
theorem grid_cells {entries : List (TableCell × Nat)} {texts : List PyStr}
    (hg : AreCells parentId texts g.result)
    (h : entries.foldlM (Grid.add hexdigest sourceId data parentId page) g = .ok g') :
    AreCells parentId (texts ++ entries.map fun entry => lit entry.1.text) g'.result := by
  induction entries generalizing g texts with
  | nil =>
    cases h
    rwa [List.map_nil, List.append_nil]
  | cons entry entries ih =>
    rw [List.foldlM_cons] at h
    obtain ⟨mid, hmid, hrest⟩ := Fallible.bind_ok.mp h
    obtain ⟨bbox, hresult⟩ := Grid.add_ok hmid
    have hcells : AreCells parentId (texts ++ [lit entry.1.text]) mid.result := by
      rw [hresult]
      refine ⟨by rw [List.map_append, hg.texts]; rfl, fun e he => ?_⟩
      rcases List.mem_append.mp he with he | he
      · exact hg.cell e he
      · rw [List.mem_singleton.mp he]
        exact ⟨decide_eq_true rfl, rfl⟩
    have hall := ih hcells hrest
    rwa [List.append_assoc] at hall

theorem tableElements_ok {cells : List DocElement} {attributes : List (PyStr × PyValue)}
    (h : tableElements hexdigest sourceId data parentId page = .ok (cells, attributes)) :
    AreCells parentId (data.tableCells.map fun cell => lit cell.text) cells ∧
      lit "source_ref" ∉ PyDict.keys attributes := by
  obtain ⟨g, hg, h⟩ := Fallible.bind_ok.mp h
  cases h
  have hcells := grid_cells ⟨rfl, fun e he => absurd he List.not_mem_nil⟩ hg
  refine ⟨?_, by simp only [PyDict.keys, List.map_cons, List.map_nil]; decide⟩
  have hzip : (data.tableCells.zipIdx.map fun entry => lit entry.1.text) =
      data.tableCells.map fun cell => lit cell.text := by
    have hfst := congrArg (List.map fun cell : TableCell => lit cell.text)
      (List.zipIdx_map_fst 0 data.tableCells)
    rwa [List.map_map] at hfst
  rwa [List.map_nil, List.nil_append, hzip] at hcells

theorem tableElements_error (h : tableElements hexdigest sourceId data parentId page = .error failure) :
    failure.IsElement := by
  rcases Fallible.bind_error.mp h with h | ⟨_, _, h⟩
  · obtain ⟨entry, -, g, -, h⟩ := Fallible.foldlM_error (fun _ _ _ _ _ _ => trivial) trivial h
    exact Grid.add_error h
  · cases h

/-! Attributes -/

theorem lookup_update {attributes entries : List (PyStr × PyValue)} {key : PyStr}
    (h : key ∉ PyDict.keys entries) :
    (update attributes entries).lookup key = attributes.lookup key := by
  induction entries generalizing attributes with
  | nil => rfl
  | cons e entries ih =>
    obtain ⟨hne, hrest⟩ := not_or.mp (fun hmem => h (List.mem_cons.mpr hmem))
    have hset : (PyDict.set attributes e.1 e.2).lookup key = attributes.lookup key := by
      rw [PyDict.lookup_set, if_neg hne]
    exact (ih hrest).trans hset

theorem kindAttributes_ok {item : DoclingItem} {kind : String} {byKind : List (PyStr × PyValue)}
    (h : kindAttributes doc item kind = .ok byKind) : lit "source_ref" ∉ PyDict.keys byKind := by
  obtain ⟨-, h⟩ | ⟨-, h⟩ := Fallible.ite_ok h
  · cases h
    simp only [PyDict.keys, List.map_cons, List.map_nil]
    decide
  obtain ⟨-, h⟩ | ⟨-, h⟩ := Fallible.ite_ok h
  · cases h
    simp only [PyDict.keys, List.map_cons, List.map_nil]
    decide
  obtain ⟨-, h⟩ | ⟨-, h⟩ := Fallible.ite_ok h
  · cases h
    simp only [PyDict.keys, List.map_cons, List.map_nil]
    decide
  obtain ⟨-, h⟩ | ⟨-, h⟩ := Fallible.ite_ok h
  · obtain ⟨texts, -, h⟩ := Fallible.bind_ok.mp h
    cases h
    simp only [PyDict.keys, List.map_cons, List.map_nil]
    decide
  · cases h
    exact List.not_mem_nil

/-- No label stands for a table cell. -/
theorem kind_ne_cell {item : DoclingItem} {kind : String} (h : item.kind = some kind) :
    lit kind ≠ lit "TableCell" := by
  have hall : ∀ entry ∈ doclingLabels, lit entry.2 ≠ lit "TableCell" := by decide
  exact hall _ (PyDict.mem_of_lookup h)

/-- The elements of an item: a block, with the id of the item and its parent. -/
theorem itemElements_ok {ref : String} {item : DoclingItem} {kind : String} {parent : Option PyStr}
    {order : Nat} {els : List DocElement} (hkind : item.kind = some kind)
    (h : itemElements hexdigest sourceId doc ref item kind parent order = .ok els) :
    IsBlock ref item els ∧ doclingId hexdigest sourceId ref ∈ els.map DocElement.id ∧
      ∀ e ∈ els, e.parent = parent ∨ e.parent = some (doclingId hexdigest sourceId ref) := by
  obtain ⟨bbox, -, h⟩ := Fallible.bind_ok.mp h
  obtain ⟨byKind, hbyKind, h⟩ := Fallible.bind_ok.mp h
  have hsource : ∀ more, lit "source_ref" ∉ PyDict.keys more →
      (update (update item.entries ([(lit "source_ref", .str (lit ref)),
        (lit "source_label", .str (lit item.label))] ++ byKind)) more).lookup (lit "source_ref") =
          some (.str (lit ref)) := by
    intro more hmore
    rw [lookup_update hmore, update, List.foldl_append]
    refine (lookup_update (kindAttributes_ok hbyKind)).trans ?_
    simp only [List.foldl_cons, List.foldl_nil]
    rw [PyDict.lookup_set, if_neg (by decide), PyDict.lookup_set, if_pos rfl]
  obtain ⟨rfl, h⟩ | ⟨hother, h⟩ := Fallible.ite_ok h
  · obtain ⟨⟨cells, attributes⟩, htable, h⟩ := Fallible.bind_ok.mp h
    cases h
    obtain ⟨hcells, hattributes⟩ := tableElements_ok htable
    have hmore : lit "source_ref" ∉
        PyDict.keys ([(lit "table_data", PyValue.dict item.data.entries)] ++ attributes) := by
      intro hmem
      rcases List.mem_cons.mp hmem with hmem | hmem
      · exact absurd (show lit "source_ref" = lit "table_data" from hmem) (by decide)
      · exact hattributes hmem
    refine ⟨⟨_, cells, rfl, ?_, rfl, fun e he => (hcells.cell e he).1, ?_⟩, List.mem_cons_self,
      List.forall_mem_cons.mpr ⟨Or.inl rfl, fun e he => Or.inr (hcells.cell e he).2⟩⟩
    · exact standsFor_of (kind_ne_cell hkind) (hsource _ hmore)
    · rw [if_pos hkind, hcells.texts]
  · cases h
    have hnot : item.kind ≠ some "Table" := fun htable =>
      hother (Option.some.inj (hkind.symm.trans htable))
    refine ⟨⟨_, [], rfl, ?_, rfl, fun e he => absurd he List.not_mem_nil, ?_⟩, List.mem_cons_self,
      List.forall_mem_cons.mpr ⟨Or.inl rfl, fun e he => absurd he List.not_mem_nil⟩⟩
    · exact standsFor_of (kind_ne_cell hkind) (hsource [] List.not_mem_nil)
    · rw [if_neg hnot, List.map_nil]

/-- Where no caption leads nowhere, only an `ElementError` is raised. -/
theorem itemElements_error {ref : String} {item : DoclingItem} {kind : String} {parent : Option PyStr}
    {order : Nat} (hcaptions : ∀ caption ∈ item.captions, caption ∈ PyDict.keys doc.references)
    (h : itemElements hexdigest sourceId doc ref item kind parent order = .error failure) :
    failure.IsElement := by
  rcases Fallible.bind_error.mp h with h | ⟨bbox, -, h⟩
  · exact bboxOf_error h
  rcases Fallible.bind_error.mp h with h | ⟨byKind, -, h⟩
  · exfalso
    unfold kindAttributes at h
    split at h
    · cases h
    · split at h
      · cases h
      · split at h
        · cases h
        · split at h
          · rcases Fallible.bind_error.mp h with h | ⟨_, _, h⟩
            · obtain ⟨before, caption, after, hsplit, -, h⟩ := Fallible.mapM_error.mp h
              obtain ⟨found, hfound⟩ := PyDict.exists_lookup
                (hcaptions caption (hsplit ▸ List.mem_append_right _ List.mem_cons_self))
              rw [captionText, hfound] at h
              cases h
            · cases h
          · cases h
  · split at h
    · rcases Fallible.bind_error.mp h with h | ⟨_, _, h⟩
      · exact tableElements_error h
      · cases h
    · cases h

end Items

/-! ## The traversal -/

/-- `child` is among the children of the item `ref`. -/
def Child (doc : DoclingDict) (ref child : String) : Prop :=
  ∃ item, doc.references.lookup ref = some item ∧ child ∈ item.children

/-- The reference is that of an item of a known kind. -/
def Known (doc : DoclingDict) (ref : String) : Prop :=
  ∃ item, doc.references.lookup ref = some item ∧ item.kind.isSome = true

/-- What holds between two visits, inside of the items `active`. -/
structure Walk.Sound (hexdigest : List UInt8 → String) (sourceId : String) (doc : DoclingDict)
    (active : List String) (w : Walk) : Prop where
  closed : ∀ ref ∈ w.emitted, ∃ item, doc.references.lookup ref = some item ∧
    item.unsupported = false ∧ ∀ child ∈ item.children, child ∈ w.emitted
  grounded : ∀ ref ∈ w.emitted, Acc (fun child ref => Child doc ref child) ref
  blocks : ∃ refs, Blocks doc refs w.output ∧
    ∀ ref, ref ∈ refs ↔ (ref ∈ active ∨ ref ∈ w.emitted) ∧ Known doc ref
  ids : ∀ ref, ref ∈ active ∨ ref ∈ w.emitted → Known doc ref →
    doclingId hexdigest sourceId ref ∈ w.output.map DocElement.id
  parents : ∀ e ∈ w.output, ∀ parent ∈ e.parent, parent ∈ w.output.map DocElement.id

/-- A walk goes on. -/
structure Walk.Grew (w w' : Walk) : Prop where
  output : w.output <+: w'.output
  emitted : ∀ ref ∈ w.emitted, ref ∈ w'.emitted

/-- The parent that a child is given has an element. -/
def Walk.Has (w : Walk) (parent : Option PyStr) : Prop :=
  ∀ id ∈ parent, id ∈ w.output.map DocElement.id

theorem Walk.Grew.refl (w : Walk) : w.Grew w := ⟨List.prefix_refl _, fun _ h => h⟩

theorem Walk.Grew.trans {w w' w'' : Walk} (h : w.Grew w') (h' : w'.Grew w'') : w.Grew w'' :=
  ⟨h.output.trans h'.output, fun ref hmem => h'.emitted ref (h.emitted ref hmem)⟩

theorem Walk.Grew.has {w w' : Walk} {parent : Option PyStr} (h : w.Grew w') (hw : w.Has parent) :
    w'.Has parent :=
  fun id hid => (h.output.map DocElement.id).subset (hw id hid)

theorem Walk.has_none (w : Walk) : w.Has none := by
  intro id hid
  cases hid

section Traversal

variable {hexdigest : List UInt8 → String} {sourceId ref : String} {doc : DoclingDict}
  {active : List String} {item : DoclingItem} {parent : Option PyStr} {w w' : Walk}

theorem known_iff (hlookup : doc.references.lookup ref = some item) :
    Known doc ref ↔ item.kind.isSome = true := by
  refine ⟨fun ⟨item', hlookup', hkind⟩ => ?_, fun h => ⟨item, hlookup, h⟩⟩
  obtain rfl : item = item' := Option.some.inj (hlookup.symm.trans hlookup')
  exact hkind

/-- Entering an item: it is active from here on. -/
theorem enter_ok {output : List DocElement} {childParent : Option PyStr}
    (hw : Walk.Sound hexdigest sourceId doc active w) (hactive : ref ∉ active)
    (hemitted : ref ∉ w.emitted) (hlookup : doc.references.lookup ref = some item)
    (hparent : w.Has parent)
    (h : enter hexdigest sourceId doc ref item parent w.output = .ok (output, childParent)) :
    Walk.Sound hexdigest sourceId doc (ref :: active) { w with output := output } ∧
      w.Grew { w with output := output } ∧ Walk.Has { w with output := output } childParent ∧
      item.unsupported = false := by
  obtain ⟨refs, hblocks, hrefs⟩ := hw.blocks
  have hnew : ref ∉ refs := fun hmem => by
    rcases ((hrefs ref).mp hmem).1 with hmem | hmem
    · exact hactive hmem
    · exact hemitted hmem
  unfold enter at h
  split at h
  · rename_i kind hkind
    obtain ⟨els, hels, h⟩ := Fallible.bind_ok.mp h
    obtain ⟨rfl, rfl⟩ := Prod.mk.inj (Except.ok.inj h)
    obtain ⟨hblock, hid, hparents⟩ := itemElements_ok hkind hels
    have hknown : Known doc ref := ⟨item, hlookup, by rw [hkind]; rfl⟩
    have hsub : ∀ id ∈ w.output.map DocElement.id, id ∈ (w.output ++ els).map DocElement.id := by
      intro id hmem
      rw [List.map_append]
      exact List.mem_append_left _ hmem
    have hself : doclingId hexdigest sourceId ref ∈ (w.output ++ els).map DocElement.id := by
      rw [List.map_append]
      exact List.mem_append_right _ hid
    refine ⟨⟨hw.closed, hw.grounded, ⟨refs ++ [ref], ?_, fun r => ?_⟩, fun r hr hknown' => ?_,
      fun e he p hp => ?_⟩, ⟨List.prefix_append _ _, fun _ hmem => hmem⟩, fun p hp => ?_, ?_⟩
    · exact hblocks.append hlookup (by rw [hkind]; rfl) hblock hnew
    · rw [List.mem_append, hrefs, List.mem_singleton, List.mem_cons]
      constructor
      · rintro (⟨hor, hk⟩ | rfl)
        · exact ⟨hor.imp_left Or.inr, hk⟩
        · exact ⟨Or.inl (Or.inl rfl), hknown⟩
      · rintro ⟨(rfl | hmem) | hmem, hk⟩
        · exact Or.inr rfl
        · exact Or.inl ⟨Or.inl hmem, hk⟩
        · exact Or.inl ⟨Or.inr hmem, hk⟩
    · rw [List.mem_cons, or_assoc] at hr
      rcases hr with rfl | hr
      · exact hself
      · exact hsub _ (hw.ids r hr hknown')
    · rcases List.mem_append.mp he with he | he
      · exact hsub p (hw.parents e he p hp)
      · rcases hparents e he with heq | heq
        · exact hsub p (hparent p (heq ▸ hp))
        · rw [heq] at hp
          obtain rfl : doclingId hexdigest sourceId ref = p := Option.some.inj hp
          exact hself
    · obtain rfl : doclingId hexdigest sourceId ref = p := Option.some.inj hp
      exact hself
    · rw [DoclingItem.unsupported, hkind]
      rfl
  · rename_i hkind
    obtain ⟨-, h⟩ | ⟨hsupported, h⟩ := Fallible.ite_ok h
    · cases h
    obtain ⟨rfl, rfl⟩ := Prod.mk.inj (Except.ok.inj h)
    have hunknown : ¬Known doc ref := fun hknown => by
      have hsome := (known_iff hlookup).mp hknown
      rw [hkind] at hsome
      cases hsome
    refine ⟨⟨hw.closed, hw.grounded, ⟨refs, hblocks, fun r => ?_⟩, fun r hr hknown => ?_, hw.parents⟩,
      Walk.Grew.refl w, hparent, Bool.eq_false_iff.mpr hsupported⟩
    · rw [hrefs, List.mem_cons]
      constructor
      · exact fun ⟨hor, hk⟩ => ⟨hor.imp_left Or.inr, hk⟩
      · rintro ⟨(rfl | hmem) | hmem, hk⟩
        · exact absurd hk hunknown
        · exact ⟨Or.inl hmem, hk⟩
        · exact ⟨Or.inr hmem, hk⟩
    · rw [List.mem_cons, or_assoc] at hr
      rcases hr with rfl | hr
      · exact absurd hknown hunknown
      · exact hw.ids r hr hknown

/-- Leaving an item: its children are emitted, and it is. -/
theorem Walk.Sound.leave (hw : Walk.Sound hexdigest sourceId doc (ref :: active) w)
    (hlookup : doc.references.lookup ref = some item) (hsupported : item.unsupported = false)
    (hchildren : ∀ child ∈ item.children, child ∈ w.emitted) :
    Walk.Sound hexdigest sourceId doc active { w with emitted := w.emitted ++ [ref] } where
  closed r hr := by
    rcases List.mem_append.mp hr with hr | hr
    · obtain ⟨item', hitem', hsupported', hall⟩ := hw.closed r hr
      exact ⟨item', hitem', hsupported', fun child hchild => List.mem_append_left _ (hall child hchild)⟩
    · rw [List.mem_singleton.mp hr]
      exact ⟨item, hlookup, hsupported, fun child hchild =>
        List.mem_append_left _ (hchildren child hchild)⟩
  grounded r hr := by
    rcases List.mem_append.mp hr with hr | hr
    · exact hw.grounded r hr
    · rw [List.mem_singleton.mp hr]
      refine ⟨_, fun child ⟨item', hitem', hchild⟩ => hw.grounded child (hchildren child ?_)⟩
      rwa [Option.some.inj (hlookup.symm.trans hitem')]
  blocks := by
    obtain ⟨refs, hblocks, hrefs⟩ := hw.blocks
    refine ⟨refs, hblocks, fun r => (hrefs r).trans (and_congr_left' ?_)⟩
    rw [List.mem_cons, List.mem_append, List.mem_singleton]
    tauto
  ids r hr := hw.ids r (by
    rw [List.mem_append, List.mem_singleton] at hr
    rw [List.mem_cons]
    tauto)
  parents := hw.parents

/-- A visit of an item that is neither active nor emitted. -/
theorem visit_item (hactive : ref ∉ active) (hemitted : ref ∉ w.emitted)
    (hlookup : doc.references.lookup ref = some item) :
    visit hexdigest sourceId doc active ref parent w =
      (enter hexdigest sourceId doc ref item parent w.output >>= fun entered =>
        (item.children.foldlM (fun w child =>
          visit hexdigest sourceId doc (ref :: active) child entered.2 w)
          { w with output := entered.1 }) >>= fun w =>
            .ok { w with emitted := w.emitted ++ [ref] }) := by
  rw [visit, dif_neg hactive, if_neg hemitted]
  split
  · rename_i hnone
    rw [hlookup] at hnone
    cases hnone
  · rename_i item' hsome
    obtain rfl : item = item' := Option.some.inj (hlookup.symm.trans hsome)
    rfl

/-- **A visit that gets through** emits the reference and keeps what holds between visits, by induction
    on the references that are not active. -/
theorem visit_ok (hw : Walk.Sound hexdigest sourceId doc active w) (hparent : w.Has parent)
    (h : visit hexdigest sourceId doc active ref parent w = .ok w') :
    Walk.Sound hexdigest sourceId doc active w' ∧ w.Grew w' ∧ ref ∈ w'.emitted := by
  induction hn : (waiting doc active).length using Nat.strong_induction_on
    generalizing active ref parent w w' with
  | _ n ih =>
    rw [visit] at h
    split at h
    · cases h
    rename_i hactive
    split at h
    · rename_i hemitted
      cases h
      exact ⟨hw, Walk.Grew.refl _, hemitted⟩
    rename_i hemitted
    split at h
    · cases h
    rename_i item hlookup
    obtain ⟨⟨output, childParent⟩, henter, h⟩ := Fallible.bind_ok.mp h
    obtain ⟨w₂, hfold, h⟩ := Fallible.bind_ok.mp h
    cases h
    obtain ⟨hentered, hgrew, hchild, hsupported⟩ :=
      enter_ok hw hactive hemitted hlookup hparent henter
    have hlt : (waiting doc (ref :: active)).length < n := hn ▸ waiting_lt hactive hlookup
    obtain ⟨⟨hsound, -⟩, hgrew₂, hall⟩ := Fallible.foldlM_ok
      (I := fun w => Walk.Sound hexdigest sourceId doc (ref :: active) w ∧ w.Has childParent)
      (R := Walk.Grew) (Q := fun child w => child ∈ w.emitted) Walk.Grew.refl Walk.Grew.trans
      (fun hgrew hmem => hgrew.emitted _ hmem)
      (fun child _ w w' hboth hvisit => by
        obtain ⟨hw', hgrew, hmem⟩ := ih _ hlt hboth.1 hboth.2 hvisit rfl
        exact ⟨⟨hw', hgrew.has hboth.2⟩, hgrew, hmem⟩)
      ⟨hentered, hchild⟩ hfold
    refine ⟨hsound.leave hlookup hsupported hall, (hgrew.trans hgrew₂).trans ⟨List.prefix_refl _, ?_⟩,
      List.mem_append_right _ (List.mem_singleton_self _)⟩
    exact fun r hr => List.mem_append_left _ hr

/-- **A visit that raises**, raises an `ElementError`, unless a caption leads nowhere. -/
theorem visit_error {failure : Failure} (hw : Walk.Sound hexdigest sourceId doc active w)
    (hparent : w.Has parent)
    (hcaptions : ∀ ref item, doc.references.lookup ref = some item →
      ∀ caption ∈ item.captions, caption ∈ PyDict.keys doc.references)
    (h : visit hexdigest sourceId doc active ref parent w = .error failure) : failure.IsElement := by
  induction hn : (waiting doc active).length using Nat.strong_induction_on
    generalizing active ref parent w with
  | _ n ih =>
    rw [visit] at h
    split at h
    · cases h
      exact ⟨_, rfl⟩
    rename_i hactive
    split at h
    · cases h
    rename_i hemitted
    split at h
    · cases h
      exact ⟨_, rfl⟩
    rename_i item hlookup
    rcases Fallible.bind_error.mp h with h | ⟨⟨output, childParent⟩, henter, h⟩
    · unfold enter at h
      split at h
      · rcases Fallible.bind_error.mp h with h | ⟨_, _, h⟩
        · exact itemElements_error (hcaptions ref item hlookup) h
        · cases h
      · split at h
        · cases h
          exact ⟨_, rfl⟩
        · cases h
    rcases Fallible.bind_error.mp h with h | ⟨_, _, h⟩
    · obtain ⟨hentered, -, hchild, -⟩ := enter_ok hw hactive hemitted hlookup hparent henter
      have hlt : (waiting doc (ref :: active)).length < n := hn ▸ waiting_lt hactive hlookup
      obtain ⟨child, -, w', ⟨hw', hhas⟩, hraised⟩ := Fallible.foldlM_error
        (I := fun w => Walk.Sound hexdigest sourceId doc (ref :: active) w ∧ w.Has childParent)
        (fun child _ w w' hboth hvisit => by
          obtain ⟨hw', hgrew, -⟩ := visit_ok hboth.1 hboth.2 hvisit
          exact ⟨hw', hgrew.has hboth.2⟩)
        ⟨hentered, hchild⟩ h
      exact ih _ hlt hw' hhas hraised rfl
    · cases h

/-- The parent that an item links to has an element. -/
theorem linkedParent_has (hw : Walk.Sound hexdigest sourceId doc [] w) (item : DoclingItem) :
    w.Has (linkedParent hexdigest sourceId doc item w) := by
  intro id hid
  obtain ⟨parentRef, -, hid⟩ := Option.bind_eq_some_iff.mp hid
  split at hid
  · rename_i hlinked
    obtain rfl : doclingId hexdigest sourceId parentRef = id := Option.some.inj hid
    obtain ⟨kind, hkind⟩ := Option.isSome_iff_exists.mp hlinked.2
    obtain ⟨parent, hlookup, hkind⟩ := Option.bind_eq_some_iff.mp hkind
    exact hw.ids parentRef (Or.inr hlinked.1) ⟨parent, hlookup, by rw [hkind]; rfl⟩
  · cases hid

theorem visitLinked_ok {entry : String × DoclingItem} (hw : Walk.Sound hexdigest sourceId doc [] w)
    (h : visitLinked hexdigest sourceId doc w entry = .ok w') :
    Walk.Sound hexdigest sourceId doc [] w' ∧ w.Grew w' ∧
      (entry.2.kind.isSome = true → entry.1 ∈ w'.emitted) := by
  obtain ⟨-, h⟩ | ⟨hskip, h⟩ := Fallible.ite_ok h
  · obtain ⟨hw', hgrew, hmem⟩ := visit_ok hw (linkedParent_has hw entry.2) h
    exact ⟨hw', hgrew, fun _ => hmem⟩
  · cases h
    exact ⟨hw, Walk.Grew.refl _, fun hkind => Decidable.not_not.mp fun hnot => hskip ⟨hkind, hnot⟩⟩

theorem empty_sound : Walk.Sound hexdigest sourceId doc [] {} where
  closed _ h := absurd h List.not_mem_nil
  grounded _ h := absurd h List.not_mem_nil
  blocks := ⟨[], .nil, by simp⟩
  ids _ h := by simp at h
  parents _ h := absurd h List.not_mem_nil

/-- The first pass. -/
theorem roots_ok (h : (doc.roots.map DoclingItem.selfRef).foldlM
    (fun w ref => visit hexdigest sourceId doc [] ref none w) {} = .ok w) :
    Walk.Sound hexdigest sourceId doc [] w ∧ ∀ item ∈ doc.roots, item.selfRef ∈ w.emitted := by
  obtain ⟨hw, -, hall⟩ := Fallible.foldlM_ok (I := Walk.Sound hexdigest sourceId doc [])
    (R := Walk.Grew) (Q := fun ref w => ref ∈ w.emitted) Walk.Grew.refl Walk.Grew.trans
    (fun hgrew hmem => hgrew.emitted _ hmem)
    (fun _ _ _ _ hw hvisit => visit_ok hw (Walk.has_none _) hvisit) empty_sound h
  exact ⟨hw, fun item hitem => hall _ (List.mem_map_of_mem hitem)⟩

/-- **Both passes**: everything is emitted that the traversal starts from. -/
theorem traverse_ok (h : traverse hexdigest sourceId doc = .ok w) :
    Walk.Sound hexdigest sourceId doc [] w ∧ (∀ item ∈ doc.roots, item.selfRef ∈ w.emitted) ∧
      ∀ ref, Known doc ref → ref ∈ w.emitted := by
  obtain ⟨w₁, hroots, h⟩ := Fallible.bind_ok.mp h
  obtain ⟨hw₁, hemitted⟩ := roots_ok hroots
  obtain ⟨hw, hgrew, hall⟩ := Fallible.foldlM_ok (I := Walk.Sound hexdigest sourceId doc [])
    (R := Walk.Grew)
    (Q := fun (entry : String × DoclingItem) w => entry.2.kind.isSome = true → entry.1 ∈ w.emitted)
    Walk.Grew.refl Walk.Grew.trans (fun hgrew hmem hkind => hgrew.emitted _ (hmem hkind))
    (fun _ _ _ _ hw hvisit => visitLinked_ok hw hvisit) hw₁ h
  refine ⟨hw, fun item hitem => hgrew.emitted _ (hemitted item hitem), ?_⟩
  rintro ref ⟨item, hlookup, hkind⟩
  exact hall (ref, item) (PyDict.mem_of_lookup hlookup) hkind

theorem traverse_error {failure : Failure}
    (hcaptions : ∀ ref item, doc.references.lookup ref = some item →
      ∀ caption ∈ item.captions, caption ∈ PyDict.keys doc.references)
    (h : traverse hexdigest sourceId doc = .error failure) : failure.IsElement := by
  rcases Fallible.bind_error.mp h with h | ⟨w₁, hroots, h⟩
  · obtain ⟨ref, -, w, hw, h⟩ := Fallible.foldlM_error (I := Walk.Sound hexdigest sourceId doc [])
      (fun _ _ _ _ hw hvisit => (visit_ok hw (Walk.has_none _) hvisit).1) empty_sound h
    exact visit_error hw (Walk.has_none _) hcaptions h
  · obtain ⟨entry, -, w, hw, h⟩ := Fallible.foldlM_error (I := Walk.Sound hexdigest sourceId doc [])
      (fun _ _ _ _ hw hvisit => (visitLinked_ok hw hvisit).1) (roots_ok hroots).1 h
    unfold visitLinked at h
    split at h
    · exact visit_error hw (linkedParent_has hw entry.2) hcaptions h
    · cases h

end Traversal

/-! ## Captions and sections -/

/-- The elements, with other parents, which are among them. -/
structure Reparented (els els' : List DocElement) : Prop where
  shapes : els'.map DocElement.shape = els.map DocElement.shape
  ids : els'.map DocElement.id = els.map DocElement.id
  parents : ∀ e' ∈ els', ∀ parent ∈ e'.parent, (∃ e ∈ els, parent ∈ e.parent) ∨
    parent ∈ els.map DocElement.id

namespace Reparented

variable {els els' els'' : List DocElement}

theorem refl (els : List DocElement) : Reparented els els :=
  ⟨rfl, rfl, fun e he _ hparent => Or.inl ⟨e, he, hparent⟩⟩

theorem trans (h : Reparented els els') (h' : Reparented els' els'') : Reparented els els'' where
  shapes := h'.shapes.trans h.shapes
  ids := h'.ids.trans h.ids
  parents e'' he'' parent hparent := by
    rcases h'.parents e'' he'' parent hparent with ⟨e', he', hparent⟩ | hmem
    · exact h.parents e' he' parent hparent
    · exact Or.inr (h.ids ▸ hmem)

/-- One element after another, where all of them may lie in a longer list. -/
theorem isParent (h : Reparented els els')
    (hlisted : ∀ e ∈ els, ∀ parent ∈ e.parent, parent ∈ els.map DocElement.id) (a b : PyStr)
    (hparent : IsParent els' a b) : b ∈ els'.map DocElement.id := by
  obtain ⟨e', he', -, hb⟩ := hparent
  rw [h.ids]
  rcases h.parents e' he' b hb with ⟨e, he, hb⟩ | hmem
  · exact hlisted e he b hb
  · exact hmem

end Reparented

section Parents

variable {id owner : PyStr} {els : List DocElement}

theorem setParent_map {β : Type} {f : DocElement → β}
    (hf : ∀ (e : DocElement) parent, f { e with parent := parent } = f e) :
    (setParent id owner els).map f = els.map f := by
  induction els with
  | nil => rfl
  | cons e rest ih =>
    rw [setParent]
    split
    · rw [List.map_cons, List.map_cons, hf]
    · rw [List.map_cons, List.map_cons, ih]

theorem mem_setParent {e' : DocElement} (h : e' ∈ setParent id owner els) :
    e' ∈ els ∨ e'.parent = some owner := by
  induction els with
  | nil => exact absurd h List.not_mem_nil
  | cons e rest ih =>
    rw [setParent] at h
    split at h
    · rcases List.mem_cons.mp h with rfl | h
      · exact Or.inr rfl
      · exact Or.inl (List.mem_cons_of_mem _ h)
    · rcases List.mem_cons.mp h with rfl | h
      · exact Or.inl List.mem_cons_self
      · exact (ih h).imp_left (List.mem_cons_of_mem _)

theorem setParent_reparented (howner : owner ∈ els.map DocElement.id) :
    Reparented els (setParent id owner els) where
  shapes := setParent_map fun _ _ => rfl
  ids := setParent_map fun _ _ => rfl
  parents e' he' parent hparent := by
    rcases mem_setParent he' with he' | howned
    · exact Or.inl ⟨e', he', hparent⟩
    · rw [howned] at hparent
      obtain rfl : owner = parent := Option.some.inj hparent
      exact Or.inr howner

theorem ownCaptions_reparented {hexdigest : List UInt8 → String} {sourceId : String}
    {entry : String × DoclingItem} : Reparented els (ownCaptions hexdigest sourceId els entry) := by
  unfold ownCaptions
  split
  · rename_i howner
    generalize entry.2.captions = captions
    induction captions generalizing els with
    | nil => exact Reparented.refl els
    | cons caption captions ih =>
      have hset : Reparented els (setParent (doclingId hexdigest sourceId caption) _ els) :=
        setParent_reparented howner
      exact hset.trans (ih (hset.ids.symm ▸ howner))
  · exact Reparented.refl els

theorem foldl_ownCaptions {hexdigest : List UInt8 → String} {sourceId : String}
    {entries : List (String × DoclingItem)} :
    Reparented els (entries.foldl (ownCaptions hexdigest sourceId) els) := by
  induction entries generalizing els with
  | nil => exact Reparented.refl els
  | cons entry entries ih => exact ownCaptions_reparented.trans ih

theorem adopt_cases (sections : List (Int × PyStr)) (e : DocElement) :
    ∃ parent, e.adopt sections = { e with parent := parent } ∧
      ∀ p ∈ parent, p ∈ e.parent ∨ p ∈ sections.map Prod.snd := by
  unfold DocElement.adopt
  split
  · refine ⟨_, rfl, fun p hp => Or.inr ?_⟩
    obtain ⟨s, hs, rfl⟩ := Option.map_eq_some_iff.mp hp
    exact List.mem_map_of_mem (List.mem_of_head? hs)
  · exact ⟨e.parent, rfl, fun p hp => Or.inl hp⟩

/-- A turn changes the parent of the element only, into the id of a section around it, and opens no
    section but its own. -/
theorem section_cases (sections : List (Int × PyStr)) (e : DocElement) :
    (∃ parent, (e.section sections).1 = { e with parent := parent } ∧
      ∀ p ∈ parent, p ∈ e.parent ∨ p ∈ sections.map Prod.snd) ∧
    ∀ s ∈ (e.section sections).2, s ∈ sections ∨ s.2 = e.id := by
  have hdrop : ∀ s ∈ sections.dropWhile fun s => decide (e.level ≤ s.1), s ∈ sections :=
    fun s hs => (List.dropWhile_sublist _).subset hs
  unfold DocElement.section
  split
  · refine ⟨?_, fun s hs => ?_⟩
    · obtain ⟨parent, heq, hparent⟩ := adopt_cases (sections.dropWhile fun s => e.level ≤ s.1) e
      refine ⟨parent, heq, fun p hp => (hparent p hp).imp_right fun hp => ?_⟩
      obtain ⟨s, hs, rfl⟩ := List.mem_map.mp hp
      exact List.mem_map_of_mem (hdrop s hs)
    · rcases List.mem_cons.mp hs with rfl | hs
      · exact Or.inr rfl
      · exact Or.inl (hdrop s hs)
  · split
    · exact ⟨adopt_cases sections e, fun s hs => Or.inl hs⟩
    · exact ⟨⟨e.parent, rfl, fun p hp => Or.inl hp⟩, fun s hs => Or.inl hs⟩

theorem sectionHierarchy_map {β : Type} {f : DocElement → β} {sections : List (Int × PyStr)}
    (hf : ∀ (e : DocElement) parent, f { e with parent := parent } = f e) :
    (sectionHierarchy sections els).map f = els.map f := by
  induction els generalizing sections with
  | nil => rfl
  | cons e rest ih =>
    obtain ⟨⟨parent, heq, -⟩, -⟩ := section_cases sections e
    rw [sectionHierarchy, List.map_cons, List.map_cons, ih, heq, hf]

theorem mem_sectionHierarchy {sections : List (Int × PyStr)} {e' : DocElement} {p : PyStr}
    (h : e' ∈ sectionHierarchy sections els) (hp : p ∈ e'.parent) :
    (∃ e ∈ els, p ∈ e.parent) ∨ p ∈ sections.map Prod.snd ∨ p ∈ els.map DocElement.id := by
  induction els generalizing sections with
  | nil => exact absurd h List.not_mem_nil
  | cons e rest ih =>
    obtain ⟨⟨parent, heq, hparent⟩, hopen⟩ := section_cases sections e
    rcases List.mem_cons.mp h with rfl | h
    · rw [heq] at hp
      exact (hparent p hp).imp (fun hp => ⟨e, List.mem_cons_self, hp⟩) Or.inl
    · rcases ih h with ⟨e₀, he₀, hp⟩ | hp | hp
      · exact Or.inl ⟨e₀, List.mem_cons_of_mem _ he₀, hp⟩
      · obtain ⟨s, hs, rfl⟩ := List.mem_map.mp hp
        rcases hopen s hs with hs | heq
        · exact Or.inr (Or.inl (List.mem_map_of_mem hs))
        · exact Or.inr (Or.inr (heq ▸ List.mem_cons_self))
      · exact Or.inr (Or.inr (List.mem_cons_of_mem _ hp))

theorem sectionHierarchy_reparented : Reparented els (sectionHierarchy [] els) where
  shapes := sectionHierarchy_map fun _ _ => rfl
  ids := sectionHierarchy_map fun _ _ => rfl
  parents e' he' p hp := by
    rcases mem_sectionHierarchy he' hp with h | h | h
    · exact Or.inl h
    · exact absurd h List.not_mem_nil
    · exact Or.inr h

end Parents

/-! ## What comes out -/

/-- The traversal comes by: it starts there, or above. -/
def Visited (doc : DoclingDict) (ref : String) : Prop :=
  ∃ start, (start ∈ doc.roots.map DoclingItem.selfRef ∨ Known doc start) ∧
    Relation.ReflTransGen (Child doc) start ref

section Outcome

variable {hexdigest : List UInt8 → String} {sourceId ref : String} {doc : DoclingDict}
  {item : DoclingItem} {tree : DocElementTree} {w : Walk}

theorem visited_emitted (h : traverse hexdigest sourceId doc = .ok w) (hvisited : Visited doc ref) :
    ref ∈ w.emitted := by
  obtain ⟨hw, hroots, hknown⟩ := traverse_ok h
  obtain ⟨start, hstart, hpath⟩ := hvisited
  induction hpath with
  | refl =>
    rcases hstart with hstart | hstart
    · obtain ⟨item, hitem, rfl⟩ := List.mem_map.mp hstart
      exact hroots item hitem
    · exact hknown start hstart
  | tail _ hchild ih =>
    obtain ⟨item, hitem, hchild⟩ := hchild
    obtain ⟨item', hitem', -, hall⟩ := hw.closed _ ih
    obtain rfl : item = item' := Option.some.inj (hitem.symm.trans hitem')
    exact hall _ hchild

/-- What is well-founded is on no cycle. -/
theorem not_cyclic_of_acc (h : Acc (fun child ref => Child doc ref child) ref) :
    ¬Relation.TransGen (Child doc) ref ref := by
  induction h with
  | intro ref _ ih =>
    intro hcycle
    obtain ⟨child, hchild, hrest⟩ := Relation.TransGen.head'_iff.mp hcycle
    exact ih child hchild (Relation.TransGen.tail' hrest hchild)

theorem placed_shapes {els els' : List DocElement} (h : List.Forall₂ DocElement.Placed els els') :
    els'.map DocElement.shape = els.map DocElement.shape := by
  induction h with
  | nil => rfl
  | cons he _ ih => rw [List.map_cons, List.map_cons, ih, he]; rfl

/-- **A tree comes out** only if every item on the way leads to items, on no cycle, and has no text that
    no element takes; and then the items of a known kind show, and no others. -/
theorem fromDocling_ok (h : fromDocling hexdigest sourceId doc = .ok tree) :
    (∀ ref, Visited doc ref → ∃ item, doc.references.lookup ref = some item ∧
      item.unsupported = false ∧ ¬Relation.TransGen (Child doc) ref ref) ∧
    (∀ ref item, doc.references.lookup ref = some item → item.kind.isSome = true →
      textsOf ref tree.elements = [lit item.text] ∧ cellsBehind ref tree.elements =
        if item.kind = some "Table" then item.data.tableCells.map fun cell => lit cell.text else []) ∧
    ∀ ref, ¬Known doc ref → textsOf ref tree.elements = [] := by
  obtain ⟨w, htraverse, h⟩ := Fallible.bind_ok.mp h
  obtain ⟨hw, -, hknown⟩ := traverse_ok htraverse
  obtain ⟨refs, hblocks, hrefs⟩ := hw.blocks
  have hshapes : tree.elements.map DocElement.shape = w.output.map DocElement.shape :=
    (placed_shapes (buildTree_ok h).2.1.placed).trans
      (sectionHierarchy_reparented.shapes.trans foldl_ownCaptions.shapes)
  refine ⟨fun ref hvisited => ?_, fun ref item hlookup hkind => ?_, fun ref hunknown => ?_⟩
  · have hemitted := visited_emitted htraverse hvisited
    obtain ⟨item, hlookup, hsupported, -⟩ := hw.closed ref hemitted
    exact ⟨item, hlookup, hsupported, not_cyclic_of_acc (hw.grounded ref hemitted)⟩
  · have hmem : Known doc ref := ⟨item, hlookup, hkind⟩
    rw [textsOf_congr hshapes, cellsBehind_congr hshapes]
    exact hblocks.shown.1 item hlookup ((hrefs ref).mpr ⟨Or.inr (hknown ref hmem), hmem⟩)
  · rw [textsOf_congr hshapes]
    exact (hblocks.shown.2 fun hmem => hunknown ((hrefs ref).mp hmem).2).1

theorem fromDocling_error {failure : Failure}
    (hcaptions : ∀ ref item, doc.references.lookup ref = some item →
      ∀ caption ∈ item.captions, caption ∈ PyDict.keys doc.references)
    (h : fromDocling hexdigest sourceId doc = .error failure) : failure.IsElement := by
  rcases Fallible.bind_error.mp h with h | ⟨w, htraverse, h⟩
  · exact traverse_error hcaptions h
  · obtain ⟨hw, -, -⟩ := traverse_ok htraverse
    obtain ⟨refs, hblocks, -⟩ := hw.blocks
    have hreparented : Reparented w.output (sectionHierarchy []
        (doc.references.foldl (ownCaptions hexdigest sourceId) w.output)) :=
      foldl_ownCaptions.trans sectionHierarchy_reparented
    refine buildTree_error (fun e he => ?_) (hreparented.isParent hw.parents) h
    have hshape := List.mem_map_of_mem (f := DocElement.shape) he
    rw [hreparented.shapes] at hshape
    obtain ⟨e', he', hsame⟩ := List.mem_map.mp hshape
    have htext : e'.text = e.text := congrArg (fun s => s.2.2) hsame
    exact htext ▸ hblocks.scalar e' he'

end Outcome

/-! ## The claim, and where it holds -/

/-- Some `$ref` that is read leads nowhere. -/
def Dangling (doc : DoclingDict) : Prop :=
  ∃ ref item, doc.references.lookup ref = some item ∧
    ∃ target ∈ item.children ++ item.captions ++ item.parent.toList, target ∉ PyDict.keys doc.references

/-- Some item is below itself. -/
def Cyclic (doc : DoclingDict) : Prop := ∃ ref, Relation.TransGen (Child doc) ref ref

/-- An `ElementError`, or a tree that has all texts and cells; and an exception for references that
    lead nowhere or in circles. -/
structure Normalizes (hexdigest : List UInt8 → String) (sourceId : String) (doc : DoclingDict) :
    Prop where
  outcome : (∃ message, fromDocling hexdigest sourceId doc = .error (.element message)) ∨
    ∃ tree, fromDocling hexdigest sourceId doc = .ok tree ∧ Preserved doc tree.elements
  raises : Dangling doc ∨ Cyclic doc → ∃ failure, fromDocling hexdigest sourceId doc = .error failure

/-- No text, no cell and no reference is out of sight of the traversal. -/
structure Covered (doc : DoclingDict) : Prop where
  /-- An item with a text has a kind, or is a leaf that the traversal refuses; and no other item has
      taken its `self_ref`. -/
  texts : ∀ item ∈ doc.texts ++ doc.tables ++ doc.pictures, item.text ≠ "" →
    ∃ kept, doc.references.lookup item.selfRef = some kept ∧
      (kept.kind.isSome = true ∧ kept.text = item.text ∨
        Visited doc item.selfRef ∧ kept.unsupported = true)
  /-- So does a table with cells, and its label is that of tables. -/
  cells : ∀ item ∈ doc.tables, item.data.tableCells ≠ [] →
    ∃ kept, doc.references.lookup item.selfRef = some kept ∧
      (kept.kind = some "Table" ∧
          kept.data.tableCells.map TableCell.text = item.data.tableCells.map TableCell.text ∨
        Visited doc item.selfRef ∧ kept.unsupported = true)
  /-- A child that leads nowhere is the child of an item that is visited. -/
  children : ∀ ref item, doc.references.lookup ref = some item →
    ∀ child ∈ item.children, child ∉ PyDict.keys doc.references → Visited doc ref
  captions : ∀ ref item, doc.references.lookup ref = some item →
    ∀ target ∈ item.captions ++ item.parent.toList, target ∈ PyDict.keys doc.references
  cycles : ∀ ref, Relation.TransGen (Child doc) ref ref → Visited doc ref

section Claim

variable {hexdigest : List UInt8 → String} {sourceId : String} {doc : DoclingDict}

theorem Covered.preserved {tree : DocElementTree} (h : Covered doc)
    (hok : fromDocling hexdigest sourceId doc = .ok tree) : Preserved doc tree.elements := by
  obtain ⟨hvisited, hshown, -⟩ := fromDocling_ok hok
  have hrefused : ∀ {ref kept}, doc.references.lookup ref = some kept →
      ¬(Visited doc ref ∧ kept.unsupported = true) := by
    rintro ref kept hlookup ⟨hvisit, hunsupported⟩
    obtain ⟨item, hitem, hsupported, -⟩ := hvisited ref hvisit
    obtain rfl : item = kept := Option.some.inj (hitem.symm.trans hlookup)
    rw [hunsupported] at hsupported
    cases hsupported
  refine ⟨fun item hitem htext => ?_, fun item hitem hcells => ?_⟩
  · obtain ⟨kept, hlookup, ⟨hkind, hsame⟩ | hleaf⟩ := h.texts item hitem htext
    · rw [(hshown _ kept hlookup hkind).1, hsame]
    · exact absurd hleaf (hrefused hlookup)
  · obtain ⟨kept, hlookup, ⟨hkind, hsame⟩ | hleaf⟩ := h.cells item hitem hcells
    · obtain ⟨htexts, hbehind⟩ := hshown _ kept hlookup (by rw [hkind]; rfl)
      rw [htexts, hbehind, if_pos hkind]
      refine ⟨rfl, ?_⟩
      have hlits := congrArg (List.map lit) hsame
      rwa [List.map_map, List.map_map] at hlits
    · exact absurd hleaf (hrefused hlookup)

theorem Covered.raises {tree : DocElementTree} (h : Covered doc)
    (hok : fromDocling hexdigest sourceId doc = .ok tree) : ¬(Dangling doc ∨ Cyclic doc) := by
  obtain ⟨hvisited, -, -⟩ := fromDocling_ok hok
  rintro (⟨ref, item, hlookup, target, htarget, hnowhere⟩ | ⟨ref, hcycle⟩)
  · rw [List.append_assoc] at htarget
    rcases List.mem_append.mp htarget with hchild | hlink
    · obtain ⟨start, hstart, hpath⟩ := h.children ref item hlookup target hchild hnowhere
      obtain ⟨kept, hkept, -⟩ := hvisited target ⟨start, hstart, hpath.tail ⟨item, hlookup, hchild⟩⟩
      exact hnowhere (PyDict.mem_keys_of_lookup hkept)
    · exact hnowhere (h.captions ref item hlookup target hlink)
  · obtain ⟨item, -, -, hacyclic⟩ := hvisited ref (h.cycles ref hcycle)
    exact hacyclic hcycle

/-- What a tree without loss says about the document. -/
theorem Preserved.covered {tree : DocElementTree} (h : Preserved doc tree.elements)
    (hok : fromDocling hexdigest sourceId doc = .ok tree) (hnot : ¬(Dangling doc ∨ Cyclic doc)) :
    Covered doc := by
  obtain ⟨-, hshown, hunknown⟩ := fromDocling_ok hok
  obtain ⟨hdangling, hcyclic⟩ := not_or.mp hnot
  have hleads : ∀ ref item, doc.references.lookup ref = some item →
      ∀ target ∈ item.children ++ item.captions ++ item.parent.toList,
        target ∈ PyDict.keys doc.references :=
    fun ref item hlookup target htarget => by_contra fun hnowhere =>
      hdangling ⟨ref, item, hlookup, target, htarget, hnowhere⟩
  refine ⟨fun item hitem htext => ?_, fun item hitem hcells => ?_,
    fun ref item hlookup child hchild hnowhere => ?_, fun ref item hlookup target htarget => ?_,
    fun ref hcycle => absurd ⟨ref, hcycle⟩ hcyclic⟩
  · have hone := h.texts item hitem htext
    by_cases hknown : Known doc item.selfRef
    · obtain ⟨kept, hlookup, hkind⟩ := hknown
      rw [(hshown _ kept hlookup hkind).1] at hone
      exact ⟨kept, hlookup, Or.inl ⟨hkind, lit_injective (List.cons.inj hone).1⟩⟩
    · rw [hunknown _ hknown] at hone
      cases hone
  · obtain ⟨hone, hbehind⟩ := h.cells item hitem hcells
    by_cases hknown : Known doc item.selfRef
    · obtain ⟨kept, hlookup, hkind⟩ := hknown
      rw [(hshown _ kept hlookup hkind).2] at hbehind
      split at hbehind
      · rename_i htable
        refine ⟨kept, hlookup, Or.inl ⟨htable, List.map_injective_iff.mpr lit_injective ?_⟩⟩
        rwa [List.map_map, List.map_map]
      · exact absurd (List.map_eq_nil_iff.mp hbehind.symm) hcells
    · rw [hunknown _ hknown] at hone
      cases hone
  · exact absurd (hleads ref item hlookup child (by simp [hchild])) hnowhere
  · refine hleads ref item hlookup target ?_
    rw [List.append_assoc]
    exact List.mem_append_right _ htarget

end Claim

/-- **NORMALIZATION DROPS NOTHING WHERE NOTHING IS OUT OF SIGHT**, and nowhere else, unless the document
    is refused anyway. -/
theorem from_docling_lossless (hexdigest : List UInt8 → String) (sourceId : String)
    (doc : DoclingDict) : (Covered doc → Normalizes hexdigest sourceId doc) ∧
      (Normalizes hexdigest sourceId doc → Covered doc ∨
        ∃ message, fromDocling hexdigest sourceId doc = .error (.element message)) := by
  refine ⟨fun h => ?_, fun h => ?_⟩
  · cases hrun : fromDocling hexdigest sourceId doc with
    | ok tree =>
      exact ⟨Or.inr ⟨tree, hrun, h.preserved hrun⟩, fun hbad => absurd hbad (h.raises hrun)⟩
    | error failure =>
      obtain ⟨message, rfl⟩ := fromDocling_error (fun ref item hlookup caption hcaption =>
        h.captions ref item hlookup caption (List.mem_append_left _ hcaption)) hrun
      exact ⟨Or.inl ⟨message, hrun⟩, fun _ => ⟨_, hrun⟩⟩
  · rcases h.outcome with hrefused | ⟨tree, hok, hpreserved⟩
    · exact Or.inr hrefused
    · refine Or.inl (hpreserved.covered hok fun hbad => ?_)
      obtain ⟨failure, herror⟩ := h.raises hbad
      rw [hok] at herror
      cases herror

/-- A table of contents. -/
def contents : DoclingDict where
  tables := [{
    selfRef := "#/tables/0"
    label := "document_index"
    data := {
      tableCells := [{ startRowOffsetIdx := 0, startColOffsetIdx := 0, text := "1 Introduction" }]
      numRows := 1
      numCols := 1 } }]
  body := some { selfRef := "#/body", children := ["#/tables/0"] }

/-- Its cells are in no element. -/
theorem table_of_contents_dropped :
    ¬∀ (hexdigest : List UInt8 → String) (sourceId : String) (doc : DoclingDict),
      Normalizes hexdigest sourceId doc := by
  intro hall
  have hrun : fromDocling (fun _ => "") "source" contents = .ok ⟨lit "source", [], []⟩ := by
    have htable : visit (fun _ => "") "source" contents ["#/body"] "#/tables/0" none {} =
        .ok { emitted := ["#/tables/0"] } := by
      rw [visit_item (by decide) List.not_mem_nil (show _ = some contents.tables[0] from rfl)]
      rfl
    have hbody : visit (fun _ => "") "source" contents [] "#/body" none {} =
        .ok { emitted := ["#/tables/0", "#/body"] } := by
      rw [visit_item List.not_mem_nil List.not_mem_nil
        (show _ = some { selfRef := "#/body", children := ["#/tables/0"] } from rfl)]
      refine Fallible.bind_ok.mpr ⟨([], none), rfl, Fallible.bind_ok.mpr
        ⟨{ emitted := ["#/tables/0"] }, ?_, rfl⟩⟩
      exact Fallible.bind_ok.mpr ⟨_, htable, rfl⟩
    have htraverse : traverse (fun _ => "") "source" contents =
        .ok { emitted := ["#/tables/0", "#/body"] } :=
      Fallible.bind_ok.mpr ⟨_, Fallible.bind_ok.mpr ⟨_, hbody, rfl⟩, rfl⟩
    rw [fromDocling, htraverse]
    rfl
  obtain ⟨message, hrefused⟩ | ⟨tree, hok, hpreserved⟩ := (hall (fun _ => "") "source" contents).outcome
  · rw [hrun] at hrefused
    cases hrefused
  · rw [hrun] at hok
    cases hok
    have hcells := (hpreserved.cells _ List.mem_cons_self (List.cons_ne_nil _ _)).1
    exact absurd hcells (by decide)

end ControlPlane.Documents
