/-
  IMPORTS AT RUN TIME: `_diagrams_only_import` of `apps/rendering/diagrams_worker.py`, and the import
  statements that go through it.

  An `import` statement asks for one name after the other; with an alias it then follows the attributes of
  the package to the module, without one it binds the package.  A `from` statement asks for its names
  together.

  1. A `from` that the static check admits is admitted here, since both look in the same places
     (`from_admitted`), and what it binds is owned because it was checked again (`from_owned`).
  2. Of an `import` the static check looks at the name only, and this one at neither the module's owner nor
     what the attributes lead to.  So the two agree exactly when the names are there and the environment is
     in order (`imports_agree_iff`).
-/
import ControlPlane.Rendering.Validation

namespace ControlPlane.Rendering

open PyStr

/-! ## `_diagrams_only_import` -/

inductive ImportFailure where
  | importError (message : PyStr)
  | moduleNotFound (name : PyStr)
  deriving DecidableEq, Repr

variable {ω : Type} (env : Environment ω)

/-- `builtins.__import__`: the package where nothing is asked of the module, else the module. -/
def builtinsImport (name : Dotted) (fromlist : List PyStr) : Except ImportFailure ω :=
  match env.module name, env.module (name.take 1) with
  | some module, some package => .ok (if fromlist = [] then package else module)
  | _, _ => .error (.moduleNotFound name.text)

/-- What `getattr` finds on a module once the submodule was asked for. -/
def member (name : Dotted) (module : ω) (symbol : PyStr) : Option ω :=
  (env.attr module symbol).or (env.module (name ++ [symbol]))

/-- A symbol of the `fromlist`; `getattr` of what is not there is `None`, whose owner is no module. -/
def checkOwner (name : Dotted) (module : ω) (symbol : PyStr) : Except ImportFailure Unit :=
  if isDiagramsModule ((member env name module symbol).bind env.owner) then .ok ()
  else .error (.importError (lit "imports are restricted to diagrams-owned symbols"))

/-- `_diagrams_only_import`. -/
def diagramsOnlyImport (name : Dotted) (fromlist : List PyStr) (level : Nat) :
    Except ImportFailure ω :=
  if level ≠ 0 ∨ isDiagramsModule (some name.text) = false then
    .error (.importError (lit "imports are restricted to diagrams"))
  else if fromlist = [] then
    if name.text = lit "diagrams" then
      .error (.importError (lit "the diagrams package must not be imported directly"))
    else builtinsImport env name fromlist
  else if lit "*" ∈ fromlist then
    .error (.importError (lit "wildcard diagrams imports are not allowed"))
  else do
    let module ← builtinsImport env name fromlist
    fromlist.forM (checkOwner env name module)
    .ok module

/-! ## Import statements -/

/-- What asks for a module: an alias of an `import`, or a `from`. -/
inductive Import where
  | plain (name : Dotted) (asname : Option PyStr)
  | names (name : Dotted) (level : Nat) (symbols : List (PyStr × Option PyStr))

/-- The call of `__import__`. -/
def importCall : Import → Except ImportFailure ω
  | .plain name _ => diagramsOnlyImport env name [] 0
  | .names name level symbols => diagramsOnlyImport env name (symbols.map Prod.fst) level

/-- From an object along attributes; on a module the submodule is bound. -/
def follow [DecidableEq ω] : Dotted → ω → List PyStr → Option ω
  | _, value, [] => some value
  | name, value, part :: rest =>
    match env.attr value part with
    | some next => follow (name ++ [part]) next rest
    | none =>
      if env.module name = some value then
        (env.module (name ++ [part])).bind fun next => follow (name ++ [part]) next rest
      else none

/-- What a statement binds, of what `__import__` has returned. -/
def bindings [DecidableEq ω] (returned : ω) : Import → List ω
  | .plain _ none => [returned]
  | .plain name (some _) => (follow env (name.take 1) returned (name.drop 1)).toList
  | .names name _ symbols => symbols.filterMap fun symbol => member env name returned symbol.1

/-- The imports of a node. -/
def importsOf : Label → List Import
  | .importNames aliases => aliases.map fun imported => .plain imported.1 imported.2
  | .importFrom module level aliases => [.names (module.getD []) level aliases.val]
  | _ => []

/-- The imports of a tree. -/
def imports (tree : Ast) : List Import := tree.walk.flatMap fun node => importsOf node.label

/-! ## Agreement -/

/-- The two checks agree: what the source imports is admitted, and what any admitted import binds is
    owned. -/
structure Agree [DecidableEq ω] (tree : Ast) : Prop where
  admitted : ∀ i ∈ imports tree, (importCall env i).isOk = true
  owned : ∀ i returned, importCall env i = .ok returned →
    ∀ value ∈ bindings env returned i, isDiagramsOwned env value = true

/-- What is importable below the package is in order: the package is owned, and so is what the attributes
    lead to from it along the name. -/
def InOrder [DecidableEq ω] : Prop :=
  ∀ (name : Dotted) (package : ω), isDiagramsModule (some name.text) = true → name.text ≠ lit "diagrams" →
    (env.module name).isSome = true → env.module (name.take 1) = some package →
      isDiagramsOwned env package = true ∧
        ∀ value, follow env (name.take 1) package (name.drop 1) = some value →
          isDiagramsOwned env value = true

variable {env} {printable : CodePoint → Bool} {tree : Ast} {name : Dotted}

/-- **What is admitted statically**: every node of the tree passes. -/
theorem validate_ok {parse : PyStr → Option Ast} {source : PyStr} {maxBytes : Int}
    (h : validateDiagramsSource env printable parse source maxBytes = .ok tree) :
    ∀ node ∈ tree.walk, checkNode env printable node = .ok () := by
  rw [validateDiagramsSource] at h
  split at h
  · cases h
  split at h
  · cases h
  split at h
  · cases h
  obtain ⟨_, hall, h⟩ := Fallible.bind_ok.mp h
  cases h
  exact Fallible.forM_ok.mp hall

/-- The symbol that the static check resolves is what `getattr` finds at run time. -/
theorem resolve_member {symbol : PyStr} {value : ω}
    (h : resolveDiagramsSymbol env printable name symbol = .ok value) :
    ∃ module, env.module name = some module ∧ member env name module symbol = some value := by
  rw [resolveDiagramsSymbol] at h
  split at h
  · cases h
  rename_i module hmodule
  refine ⟨module, hmodule, ?_⟩
  split at h
  · rename_i found hattr
    cases h
    rw [member, hattr]
    rfl
  rename_i hattr
  split at h
  · rename_i found hsub
    cases h
    rw [member, hattr, hsub]
    rfl
  · cases h

theorem validate_of_checked {parse : PyStr → Option Ast} {source : PyStr} {maxBytes : Int}
    {encoded : List UInt8} (hencode : source.encode = some encoded)
    (hsize : ¬ (encoded = [] ∨ maxBytes < encoded.length)) (hparse : parse source = some tree)
    (h : ∀ node ∈ tree.walk, checkNode env printable node = .ok ()) :
    validateDiagramsSource env printable parse source maxBytes = .ok tree := by
  rw [validateDiagramsSource, hencode]
  refine (if_neg hsize).trans ?_
  rw [hparse]
  exact Fallible.bind_ok.mpr ⟨(), Fallible.forM_ok.mpr h, rfl⟩

theorem isDiagramsModule_ne_nil (h : isDiagramsModule (some name.text) = true) : name ≠ [] := by
  rintro rfl
  exact absurd h (by decide)

/-- What is importable is in a package. -/
theorem package_of_module (hname : name ≠ []) (h : (env.module name).isSome = true) :
    (env.module (name.take 1)).isSome = true := by
  induction name using List.reverseRecOn with
  | nil => exact absurd rfl hname
  | append_singleton name part ih =>
    by_cases hnil : name = []
    · rw [hnil] at h ⊢
      exact h
    · have hparent := env.parent name part hnil h
      rw [List.take_append_of_le_length (List.length_pos_iff.mpr hnil)]
      exact ih hnil hparent

theorem builtinsImport_ok {fromlist : List PyStr} {returned : ω}
    (h : builtinsImport env name fromlist = .ok returned) :
    ∃ module package, env.module name = some module ∧ env.module (name.take 1) = some package ∧
      returned = if fromlist = [] then package else module := by
  rw [builtinsImport] at h
  split at h
  · rename_i module package hmodule hpackage
    cases h
    exact ⟨module, package, hmodule, hpackage, rfl⟩
  · cases h

theorem builtinsImport_of_module {module : ω} {fromlist : List PyStr} (hname : name ≠ [])
    (h : env.module name = some module) : ∃ package, env.module (name.take 1) = some package ∧
      builtinsImport env name fromlist = .ok (if fromlist = [] then package else module) := by
  obtain ⟨package, hpackage⟩ := Option.isSome_iff_exists.mp
    (package_of_module hname (by rw [h]; rfl))
  refine ⟨package, hpackage, ?_⟩
  rw [builtinsImport, h, hpackage]

/-- **A `from` that is admitted statically is admitted at run time.** -/
theorem from_admitted {symbols : List (PyStr × Option PyStr)}
    (hname : isDiagramsModule (some name.text) = true)
    (h : ∀ symbol ∈ symbols, checkSymbol env printable name symbol = .ok ()) (hne : symbols ≠ []) :
    (importCall env (.names name 0 symbols)).isOk = true := by
  have hresolved : ∀ symbol ∈ symbols, symbol.1 ≠ lit "*" ∧ ∃ module value,
      env.module name = some module ∧ member env name module symbol.1 = some value ∧
        isDiagramsOwned env value = true := by
    intro symbol hsymbol
    have hcheck := h symbol hsymbol
    rw [checkSymbol] at hcheck
    obtain ⟨-, hcheck⟩ | ⟨hstar, hcheck⟩ := Fallible.ite_ok hcheck
    · cases hcheck
    obtain ⟨value, hvalue, hcheck⟩ := Fallible.bind_ok.mp hcheck
    obtain ⟨-, hcheck⟩ | ⟨howned, -⟩ := Fallible.ite_ok hcheck
    · cases hcheck
    obtain ⟨module, hmodule, hmember⟩ := resolve_member hvalue
    exact ⟨hstar, module, value, hmodule, hmember, Bool.not_eq_false _ |>.mp howned⟩
  obtain ⟨first, rest, rfl⟩ := List.exists_cons_of_ne_nil hne
  obtain ⟨-, module, -, hmodule, -, -⟩ := hresolved first List.mem_cons_self
  obtain ⟨package, -, himport⟩ := @builtinsImport_of_module _ _ _ module
    ((first :: rest).map Prod.fst) (isDiagramsModule_ne_nil hname) hmodule
  have hstar : lit "*" ∉ (first :: rest).map Prod.fst := by
    intro hmem
    obtain ⟨symbol, hsymbol, hstar⟩ := List.mem_map.mp hmem
    exact (hresolved symbol hsymbol).1 hstar
  have howners : ((first :: rest).map Prod.fst).forM (checkOwner env name module) = .ok () := by
    refine Fallible.forM_ok.mpr fun text htext => ?_
    obtain ⟨symbol, hsymbol, rfl⟩ := List.mem_map.mp htext
    obtain ⟨-, module', value, hmodule', hmember, howned⟩ := hresolved symbol hsymbol
    obtain rfl : module = module' := Option.some.inj (hmodule.symm.trans hmodule')
    rw [checkOwner, hmember]
    exact if_pos howned
  have hsymbols : (first :: rest).map Prod.fst ≠ [] := List.cons_ne_nil _ _
  rw [importCall, diagramsOnlyImport, if_neg (by rw [hname]; simp), if_neg hsymbols, if_neg hstar, himport]
  refine Fallible.isOk_iff.mpr ⟨module, Fallible.bind_ok.mpr ⟨module, ?_, ?_⟩⟩
  · rw [if_neg hsymbols]
  · exact Fallible.bind_ok.mpr ⟨(), howners, rfl⟩

/-- What `_diagrams_only_import` has returned for a plain name. -/
theorem plain_admitted {asname : Option PyStr} {returned : ω} :
    importCall env (.plain name asname) = .ok returned ↔
      isDiagramsModule (some name.text) = true ∧ name.text ≠ lit "diagrams" ∧
        (env.module name).isSome = true ∧ env.module (name.take 1) = some returned := by
  rw [importCall, diagramsOnlyImport]
  constructor
  · intro h
    obtain ⟨-, h⟩ | ⟨hlevel, h⟩ := Fallible.ite_ok h
    · cases h
    rw [if_pos rfl] at h
    obtain ⟨-, h⟩ | ⟨hname, h⟩ := Fallible.ite_ok h
    · cases h
    obtain ⟨module, package, hmodule, hpackage, rfl⟩ := builtinsImport_ok h
    have hdiagrams : isDiagramsModule (some name.text) = true := by
      rw [← Bool.not_eq_false]
      exact fun hfalse => hlevel (Or.inr hfalse)
    exact ⟨hdiagrams, hname, by rw [hmodule]; rfl, hpackage⟩
  · rintro ⟨hdiagrams, hname, hmodule, hpackage⟩
    obtain ⟨module, hmodule⟩ := Option.isSome_iff_exists.mp hmodule
    rw [if_neg (by rw [hdiagrams]; simp), if_pos rfl, if_neg hname, builtinsImport, hmodule, hpackage]
    rfl

/-- **What a `from` binds** was checked by what admitted it. -/
theorem from_owned [DecidableEq ω] {level : Nat} {symbols : List (PyStr × Option PyStr)} {returned : ω}
    (h : importCall env (.names name level symbols) = .ok returned) :
    ∀ value ∈ bindings env returned (.names name level symbols), isDiagramsOwned env value = true := by
  intro value hvalue
  obtain ⟨symbol, hsymbol, hmember⟩ := List.mem_filterMap.mp hvalue
  have hne : symbols.map Prod.fst ≠ [] := List.ne_nil_of_mem (List.mem_map_of_mem hsymbol)
  rw [importCall, diagramsOnlyImport] at h
  obtain ⟨-, h⟩ | ⟨-, h⟩ := Fallible.ite_ok h
  · cases h
  rw [if_neg hne] at h
  obtain ⟨-, h⟩ | ⟨-, h⟩ := Fallible.ite_ok h
  · cases h
  obtain ⟨module, -, h⟩ := Fallible.bind_ok.mp h
  obtain ⟨_, howners, h⟩ := Fallible.bind_ok.mp h
  cases h
  have hcheck := Fallible.forM_ok.mp howners symbol.1 (List.mem_map_of_mem hsymbol)
  obtain ⟨howned, -⟩ | ⟨-, hcheck⟩ := Fallible.ite_ok hcheck
  · rw [hmember] at howned
    exact howned
  · cases hcheck

/-- A plain import of an admitted source has a name below the package, and an alias. -/
theorem checkImport_ok {imported : Dotted × Option PyStr}
    (h : checkImport printable imported = .ok ()) :
    isDiagramsModule (some imported.1.text) = true ∧ imported.1.text ≠ lit "diagrams" ∧
      imported.2 ≠ none := by
  obtain ⟨-, h⟩ | ⟨hdiagrams, h⟩ := Fallible.ite_ok h
  · cases h
  obtain ⟨-, h⟩ | ⟨hname, -⟩ := Fallible.ite_ok h
  · cases h
  rw [not_or] at hname
  exact ⟨Bool.not_eq_false _ |>.mp hdiagrams, hname.1, hname.2⟩

/-- **What an admitted source imports**: names below the package, and symbols that pass. -/
theorem import_cases (h : ∀ node ∈ tree.walk, checkNode env printable node = .ok ()) {i : Import}
    (hi : i ∈ imports tree) :
    (∃ name asname, i = .plain name asname ∧ isDiagramsModule (some name.text) = true ∧
        name.text ≠ lit "diagrams") ∨
      (importCall env i).isOk = true := by
  obtain ⟨⟨label, children⟩, hnode, hi⟩ := List.mem_flatMap.mp hi
  have hcheck := h _ hnode
  cases label with
  | attributeAccess attr => exact absurd hi List.not_mem_nil
  | name id => exact absurd hi List.not_mem_nil
  | call => exact absurd hi List.not_mem_nil
  | other kind => exact absurd hi List.not_mem_nil
  | importNames aliases =>
    obtain ⟨imported, himported, rfl⟩ := List.mem_map.mp hi
    obtain ⟨hdiagrams, hname, -⟩ := checkImport_ok (Fallible.forM_ok.mp hcheck imported himported)
    exact Or.inl ⟨imported.1, imported.2, rfl, hdiagrams, hname⟩
  | importFrom module level aliases =>
    obtain rfl := List.mem_singleton.mp hi
    cases module with
    | none => cases hcheck
    | some name =>
      obtain ⟨-, hpassed⟩ | ⟨hlevel, hpassed⟩ := Fallible.ite_ok hcheck
      · cases hpassed
      rw [not_or, not_not] at hlevel
      obtain ⟨rfl, hdiagrams⟩ := hlevel
      exact Or.inr (from_admitted (Bool.not_eq_false _ |>.mp hdiagrams)
        (Fallible.forM_ok.mp hpassed) aliases.property)

/-- **THE CHECKS AGREE exactly when the plain names are there and the environment is in order.** -/
theorem imports_agree_iff [DecidableEq ω] (env : Environment ω) (printable : CodePoint → Bool)
    (parse : PyStr → Option Ast) (source : PyStr) (maxBytes : Int) (tree : Ast)
    (h : validateDiagramsSource env printable parse source maxBytes = .ok tree) :
    Agree env tree ↔
      (∀ name asname, .plain name asname ∈ imports tree → (env.module name).isSome = true) ∧
        InOrder env := by
  have hchecked := validate_ok h
  constructor
  · intro hagree
    refine ⟨fun name asname hi => ?_, fun name package hdiagrams hname hmodule hpackage => ⟨?_, ?_⟩⟩
    · obtain ⟨returned, hreturned⟩ := Fallible.isOk_iff.mp (hagree.admitted _ hi)
      exact (plain_admitted.mp hreturned).2.2.1
    · exact hagree.owned (.plain name none) package
        (plain_admitted.mpr ⟨hdiagrams, hname, hmodule, hpackage⟩) package List.mem_cons_self
    · intro value hvalue
      refine hagree.owned (.plain name (some [])) package
        (plain_admitted.mpr ⟨hdiagrams, hname, hmodule, hpackage⟩) value ?_
      exact Option.mem_toList.mpr hvalue
  · rintro ⟨hthere, horder⟩
    refine ⟨fun i hi => ?_, fun i returned hreturned value hvalue => ?_⟩
    · rcases import_cases hchecked hi with ⟨name, asname, rfl, hdiagrams, hname⟩ | hadmitted
      · have hmodule := hthere name asname hi
        obtain ⟨package, hpackage⟩ := Option.isSome_iff_exists.mp
          (package_of_module (isDiagramsModule_ne_nil hdiagrams) hmodule)
        exact Fallible.isOk_iff.mpr
          ⟨package, plain_admitted.mpr ⟨hdiagrams, hname, hmodule, hpackage⟩⟩
      · exact hadmitted
    · cases i with
      | names name level symbols => exact from_owned hreturned value hvalue
      | plain name asname =>
        obtain ⟨hdiagrams, hname, hmodule, hpackage⟩ := plain_admitted.mp hreturned
        obtain ⟨howned, hfollow⟩ := horder name returned hdiagrams hname hmodule hpackage
        cases asname with
        | none =>
          obtain rfl := List.mem_singleton.mp hvalue
          exact howned
        | some alias' => exact hfollow value (Option.mem_toList.mp hvalue)

/-- An environment with the package alone, and a class of it. -/
def packageAlone : Environment (Option PyStr) where
  module name := if name = [lit "diagrams"] then some none else none
  attr value symbol := if value = none ∧ symbol = lit "Diagram" then some (some symbol) else none
  owner _ := some (lit "diagrams")
  parent name part hname h := by
    have hne : name ++ [part] ≠ [lit "diagrams"] := by
      intro heq
      have hlength := congrArg List.length heq
      rw [List.length_append] at hlength
      exact hname (List.length_eq_zero_iff.mp (Nat.succ.inj hlength))
    rw [if_neg hne] at h
    cases h

/-- `from diagrams import Diagram`, or `import diagrams.aws as aws`. -/
def importing (label : Label) : Ast := .node (.other (lit "Module")) [.node label []]

def fromDiagrams : Label :=
  .importFrom (some [lit "diagrams"]) 0 ⟨[(lit "Diagram", none)], List.cons_ne_nil _ _⟩

def importAws : Label := .importNames [([lit "diagrams", lit "aws"], some (lit "aws"))]

theorem walk_importing (label : Label) :
    (importing label).walk = [importing label, .node label []] := by
  rw [Ast.walk, importing, Ast.walkQueue, List.nil_append, Ast.walkQueue, List.nil_append, Ast.walkQueue]

theorem validate_importing {label : Label} {source : PyStr} {encoded : List UInt8}
    (hencode : source.encode = some encoded) (hsize : ¬ (encoded = [] ∨ (100 : Int) < encoded.length))
    (h : checkNode packageAlone (fun _ => true) (.node label []) = .ok ()) :
    validateDiagramsSource packageAlone (fun _ => true) (fun _ => some (importing label)) source 100 =
      .ok (importing label) := by
  refine validate_of_checked hencode hsize rfl fun node hnode => ?_
  rw [walk_importing, List.mem_cons, List.mem_singleton] at hnode
  rcases hnode with rfl | rfl
  · rfl
  · exact h

theorem imports_agree_from : Agree packageAlone (importing fromDiagrams) ↔
    (∀ name asname, .plain name asname ∈ imports (importing fromDiagrams) →
      (packageAlone.module name).isSome = true) ∧ InOrder packageAlone :=
  imports_agree_iff packageAlone (fun _ => true) (fun _ => some (importing fromDiagrams))
    (lit "from diagrams import Diagram") 100 _
    (validate_importing (encode_of_scalar (lit_scalar _)) (by decide) (by decide))

/-- The static check admits a submodule that is not there. -/
theorem missing_admitted :
    validateDiagramsSource packageAlone (fun _ => true) (fun _ => some (importing importAws))
      (lit "import diagrams.aws as aws") 100 = .ok (importing importAws) ∧
    .plain [lit "diagrams", lit "aws"] (some (lit "aws")) ∈ imports (importing importAws) ∧
    importCall packageAlone (.plain [lit "diagrams", lit "aws"] (some (lit "aws"))) =
      .error (.moduleNotFound (lit "diagrams.aws")) := by
  refine ⟨validate_importing (encode_of_scalar (lit_scalar _)) (by decide) (by decide), ?_, by decide⟩
  rw [imports, walk_importing]
  exact List.mem_cons_self

end ControlPlane.Rendering
