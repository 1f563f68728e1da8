/-
  DOCUMENT ELEMENTS: `DocElement`, `DocElementTree` and `build_tree` of `theorem_ml/extract/elements.py`.

  A tree is a text and elements that address byte ranges of its UTF-8.  Elements come from parsers, and
  trees from dictionaries that were stored; what the dataclasses annotate is what the values are here,
  and a dictionary with a value of another type is refused when it is read.  `asdict` copies, and a
  copy of plain data is that data.
-/
import ControlPlane.Ancestors
import ControlPlane.Fallible
import ControlPlane.PyFloat
import ControlPlane.Utf8
import Mathlib.Algebra.Order.Ring.Nat

namespace ControlPlane.Documents

open PyStr

/-! ## Elements -/

/-- Plain data: what `json` knows, and tuples. -/
inductive PyValue where
  | none
  | bool (b : Bool)
  | int (n : Int)
  | float (x : PyFloat)
  | str (text : PyStr)
  | list (items : List PyValue)
  | tuple (items : List PyValue)
  | dict (fields : List (PyStr × PyValue))

/-- `KINDS`. -/
def kinds : List PyStr :=
  [lit "Title", lit "SectionHeader", lit "Paragraph", lit "ListItem", lit "Table", lit "TableCell",
    lit "Figure", lit "Formula", lit "Code", lit "Header", lit "Footer", lit "PageBreak",
    lit "Footnote", lit "Caption"]

/-- `ElementError`, the `ValueError`s of the claim code, and what Python raises by itself. -/
inductive Failure where
  | element (message : PyStr)
  | value (message : PyStr)
  | unicodeEncode
  | stopIteration
  | keyError (key : PyStr)
  | typeError
  deriving DecidableEq, Repr

structure DocElement where
  id : PyStr
  kind : PyStr
  text : PyStr
  byteStart : Int := 0
  byteEnd : Int := 0
  page : Option Int := none
  bbox : Option (List PyValue) := none
  parent : Option PyStr := none
  order : Int := 0
  attributes : List (PyStr × PyValue) := []

structure DocElementTree where
  sourceId : PyStr
  text : PyStr
  elements : List DocElement

/-- `text.encode("utf-8")`. -/
def encodeText (text : PyStr) : Except Failure (List UInt8) :=
  match text.encode with
  | none => .error .unicodeEncode
  | some raw => .ok raw

/-! ## Validation -/

/-- `{e.id: e.parent for e in self.elements}`, once the ids are known to be distinct. -/
def DocElementTree.parents (tree : DocElementTree) : List (PyStr × Option PyStr) :=
  tree.elements.map fun e => (e.id, e.parent)

/-- The ancestor walk of one element. -/
def checkAncestors (parents : List (PyStr × Option PyStr)) (e : DocElement) : Except Failure Unit :=
  match Ancestors.climb parents [e.id] e.parent with
  | .root => .ok ()
  | .cycle => .error (.element (lit "Cyclic element hierarchy"))
  | .missing key => .error (.keyError key)

/-- What `validate` does with one element. -/
def DocElementTree.checkElement (tree : DocElementTree) (encoded : List UInt8) (e : DocElement) :
    Except Failure Unit := do
  if e.kind ∉ kinds then .error (.element (lit "Unknown element kind: " ++ e.kind))
  else if ¬ (0 ≤ e.byteStart ∧ e.byteStart ≤ e.byteEnd ∧ e.byteEnd ≤ encoded.length) then
    .error (.element (lit "Invalid byte range for " ++ e.id))
  else
    let raw ← encodeText e.text
    if slice encoded e.byteStart.toNat e.byteEnd.toNat ≠ raw then
      .error (.element (lit "Text/span mismatch for " ++ e.id))
    else if ∃ page ∈ e.page, page < 1 then .error (.element (lit "Page numbers are one-based"))
    else if ∃ parent ∈ e.parent, parent ∉ tree.elements.map DocElement.id then
      .error (.element (lit "Missing parent for " ++ e.id))
    else checkAncestors tree.parents e

/-- `validate`. -/
def DocElementTree.validate (tree : DocElementTree) : Except Failure Unit := do
  let encoded ← encodeText tree.text
  if ¬ (tree.elements.map DocElement.id).Nodup then
    .error (.element (lit "Duplicate element identity"))
  else tree.elements.forM (tree.checkElement encoded)

/-! ## Building -/

/-- `result`, `chunks` and `position` of `build_tree`; `order` counts `result`. -/
structure Buffer where
  result : List DocElement
  chunks : List PyStr
  position : Nat

/-- A newline behind what is there. -/
def Buffer.separate (b : Buffer) : Buffer :=
  if b.chunks = [] then b
  else { b with chunks := b.chunks ++ [lit "\n"], position := b.position + 1 }

/-- The element at the end of the buffer. -/
def Buffer.place (b : Buffer) (e : DocElement) (raw : List UInt8) : DocElement :=
  { e with
    order := b.result.length
    byteStart := b.position
    byteEnd := b.position + raw.length }

/-- One turn of the loop. -/
def Buffer.add (b : Buffer) (e : DocElement) : Except Failure Buffer := do
  let raw ← encodeText e.text
  .ok {
    result := b.separate.result ++ [b.separate.place e raw]
    chunks := b.separate.chunks ++ [e.text]
    position := b.separate.position + raw.length }

/-- `build_tree`. -/
def buildTree (sourceId : PyStr) (elements : List DocElement) : Except Failure DocElementTree := do
  let b ← elements.foldlM Buffer.add ⟨[], [], 0⟩
  let tree : DocElementTree := ⟨sourceId, b.chunks.flatten, b.result⟩
  tree.validate
  .ok tree

/-! ## Dictionaries -/

def PyValue.str? : PyValue → Option PyStr
  | .str text => some text
  | _ => Option.none

def PyValue.int? : PyValue → Option Int
  | .int n => some n
  | _ => Option.none

def PyValue.dict? : PyValue → Option (List (PyStr × PyValue))
  | .dict fields => some fields
  | _ => Option.none

/-- What `for` and `tuple` go through. -/
def PyValue.items? : PyValue → Option (List PyValue)
  | .list items => some items
  | .tuple items => some items
  | _ => Option.none

/-- `None`, or a value of the type. -/
def PyValue.optional? {α : Type} (decode : PyValue → Option α) : PyValue → Option (Option α)
  | .none => some Option.none
  | v => (decode v).map some

def PyValue.ofOption : Option PyValue → PyValue
  | Option.none => .none
  | some v => v

/-- `asdict`. -/
def DocElement.toDict (e : DocElement) : List (PyStr × PyValue) :=
  [(lit "id", .str e.id), (lit "kind", .str e.kind), (lit "text", .str e.text),
    (lit "byte_start", .int e.byteStart), (lit "byte_end", .int e.byteEnd),
    (lit "page", .ofOption (e.page.map .int)), (lit "bbox", .ofOption (e.bbox.map .tuple)),
    (lit "parent", .ofOption (e.parent.map .str)), (lit "order", .int e.order),
    (lit "attributes", .dict e.attributes)]

/-- The fields of the dataclass. -/
def DocElement.fieldNames : List PyStr :=
  [lit "id", lit "kind", lit "text", lit "byte_start", lit "byte_end", lit "page", lit "bbox",
    lit "parent", lit "order", lit "attributes"]

/-- A keyword argument: given, or its default if it has one. -/
def argument {α : Type} (values : List (PyStr × PyValue)) (name : String) (default : Option α)
    (decode : PyValue → Option α) : Except Failure α :=
  match (values.lookup (lit name)).elim default decode with
  | Option.none => .error .typeError
  | some a => .ok a

/-- `DocElement.from_dict`: `cls(**values)`. -/
def DocElement.fromDict (values : List (PyStr × PyValue)) : Except Failure DocElement := do
  if ∃ v ∈ values, v.1 ∉ fieldNames then .error .typeError
  else
    let id ← argument values "id" none PyValue.str?
    let kind ← argument values "kind" none PyValue.str?
    let text ← argument values "text" none PyValue.str?
    let byteStart ← argument values "byte_start" (some 0) PyValue.int?
    let byteEnd ← argument values "byte_end" (some 0) PyValue.int?
    let page ← argument values "page" (some none) (PyValue.optional? PyValue.int?)
    let bbox ← argument values "bbox" (some none) (PyValue.optional? PyValue.items?)
    let parent ← argument values "parent" (some none) (PyValue.optional? PyValue.str?)
    let order ← argument values "order" (some 0) PyValue.int?
    let attributes ← argument values "attributes" (some []) PyValue.dict?
    .ok ⟨id, kind, text, byteStart, byteEnd, page, bbox, parent, order, attributes⟩

/-- `value[key]`. -/
def subscript (value : List (PyStr × PyValue)) (key : String) : Except Failure PyValue :=
  match value.lookup (lit key) with
  | Option.none => .error (.keyError (lit key))
  | some v => .ok v

/-- `dict(value)` of an element. -/
def elementOf (v : PyValue) : Except Failure DocElement :=
  match v.dict? with
  | Option.none => .error .typeError
  | some values => DocElement.fromDict values

/-- `asdict`. -/
def DocElementTree.toDict (tree : DocElementTree) : List (PyStr × PyValue) :=
  [(lit "source_id", .str tree.sourceId), (lit "text", .str tree.text),
    (lit "elements", .list (tree.elements.map fun e => .dict e.toDict))]

/-- `DocElementTree.from_dict`, where `str` is `str(…)` of what is no string. -/
def DocElementTree.fromDict (str : PyValue → PyStr) (value : List (PyStr × PyValue)) :
    Except Failure DocElementTree := do
  let source ← subscript value "source_id"
  let text ← subscript value "text"
  let elements ← subscript value "elements"
  match text.str?, elements.items? with
  | some text, some items =>
    let elements ← items.mapM elementOf
    let tree : DocElementTree := ⟨source.str?.getD (str source), text, elements⟩
    tree.validate
    .ok tree
  | _, _ => .error .typeError

/-- `tree.get(element_id)`; `none` is `StopIteration`. -/
def DocElementTree.get (tree : DocElementTree) (elementId : PyStr) : Option DocElement :=
  tree.elements.find? fun e => e.id = elementId

end ControlPlane.Documents
