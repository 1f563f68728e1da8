/-
  DISCLOSURE TIERS: `build_layers` of `theorem_ml/extract/layers.py`.

  The subtree of an element is found by a recursion over the children, so that `RecursionError` is one of
  the ways it ends: how many calls the interpreter still goes inside each other is a parameter.

  1. On a valid tree whose ids are not empty, the children of an element are those that name it as their
     parent (`child_eq`), and they make a forest (`children_forest`).
  2. So what the recursion lists is the subtree, and the tiers are of it (`discloses`); it gets through when
     no chain of parents is longer than the calls there are (`descendants_isSome`).
  3. Claims that are not verified change nothing (`buildLayers_verified`).

  A claim here is what is read of its dictionary, with `None` for what it lacks.
-/
import ControlPlane.Descent
import ControlPlane.Documents.Spans
import ControlPlane.PyDict
import ControlPlane.Readable
import ControlPlane.Sorting

namespace ControlPlane.Documents

open PyStr

/-- What ends `build_layers`. -/
inductive LayerFailure where
  | invalid (failure : Failure)
  | recursionError
  | attributeError
  | typeError
  deriving DecidableEq, Repr

/-- The dictionary of a claim; `verified` is whether it is truthy. -/
structure LayerClaim where
  id : PyStr
  text : PyStr
  elementId : PyStr
  verified : Bool
  score : PyValue := .none
  observedAt : PyValue := .none
  validFrom : PyValue := .none
  validTo : PyValue := .none

/-- The dictionary of an entity. -/
structure LayerEntity where
  elementId : Option PyStr
  entityId : Option PyStr
  text : PyStr

structure Pointer where
  elementIds : List PyStr
  entityIds : List PyStr
  claimIds : List PyStr

/-- A claim in a summary. -/
structure ClaimSummary where
  id : PyStr
  text : PyStr
  score : PyValue
  observedAt : PyValue
  validFrom : PyValue
  validTo : PyValue

/-- An entity in a summary. -/
structure EntitySummary where
  id : PyStr
  text : PyStr

structure Summary where
  elementId : PyStr
  kind : PyStr
  fields : List (PyStr × PyValue)
  claims : List ClaimSummary
  entities : List EntitySummary
  abstract : PyStr
  children : List PyStr
  /-- `rows` and `merged_cells`, of a `Table`. -/
  table : Option (Nat × Nat)

/-- The tiers of an element. -/
structure Layers where
  pointer : Pointer
  summary : Summary
  full : List (List (PyStr × PyValue))

/-! ## `build_layers` -/

variable (tree : DocElementTree)

/-- `by_id[key].order`. -/
def orderOf (key : PyStr) : Int := ((tree.get key).map DocElement.order).getD 0

/-- `children[key]`. -/
def childrenOf (key : PyStr) : List PyStr :=
  Sorting.sortedBy (orderOf tree)
    ((tree.elements.filter fun e => e.parent = some key ∧ key ≠ []).map DocElement.id)

/-- `descendants`, with so many calls inside each other. -/
def descendants (frames : Nat) (key : PyStr) : Except LayerFailure (List PyStr) :=
  match Descent.walk (childrenOf tree) frames key with
  | none => .error .recursionError
  | some ids => .ok ids

/-- `len`; `none` is a value without it. -/
def PyValue.len? : PyValue → Option Nat
  | .str text => some text.length
  | .list items => some items.length
  | .tuple items => some items.length
  | .dict fields => some fields.length
  | _ => Option.none

/-- The text up to a separator: `text.split(sep, 1)[0]`. -/
def beforeFirst (sep : PyStr) : PyStr → PyStr
  | [] => []
  | c :: rest => if sep.isPrefixOf (c :: rest) then [] else c :: beforeFirst sep rest

/-- The size of what stands under a key of the attributes, or of `[]`. -/
def attributeSize (failure : LayerFailure) (e : DocElement) (key : String) : Except LayerFailure Nat :=
  match e.attributes.lookup (lit key) with
  | none => .ok 0
  | some value =>
    match value.len? with
    | none => .error failure
    | some n => .ok n

/-- `summary['table']`. -/
def tableOf (e : DocElement) : Except LayerFailure (Option (Nat × Nat)) :=
  if e.kind = lit "Table" then do
    let rows ← attributeSize .attributeError e "rows"
    let mergedCells ← attributeSize .typeError e "merged_cells"
    .ok (some (rows, mergedCells))
  else .ok none

section Layer

variable (fields : List (PyStr × PyValue)) (claims : List LayerClaim) (entities : List LayerEntity)

/-- `selected_claims`. -/
def selectedClaims (memberIds : List PyStr) : List LayerClaim :=
  claims.filter fun c => c.elementId ∈ memberIds ∧ c.verified

/-- `selected_entities`, with their ids. -/
def selectedEntities (memberIds : List PyStr) : List EntitySummary :=
  entities.filterMap fun e =>
    match e.elementId, e.entityId with
    | some elementId, some entityId =>
        if elementId ∈ memberIds ∧ entityId ≠ [] then some ⟨entityId, e.text⟩ else none
    | _, _ => none

/-- `isinstance(value, dict) and value.get('element_id') in member_ids`. -/
def isScoped (memberIds : List PyStr) (value : PyValue) : Bool :=
  match value with
  | .dict entries => (((entries.lookup (lit "element_id")).bind PyValue.str?).any fun id => id ∈ memberIds)
  | _ => false

/-- The text of the first paragraph, up to the end of its first sentence. -/
def leadOf (members : List DocElement) : PyStr :=
  let first := ((members.find? fun m => m.kind = lit "Paragraph").map DocElement.text).getD []
  strip (beforeFirst (lit ". ") first)

/-- The tiers of one element. -/
def layersFor (frames : Nat) (e : DocElement) : Except LayerFailure Layers := do
  let memberIds ← descendants tree frames e.id
  let members := memberIds.filterMap tree.get
  let chosen := selectedClaims claims memberIds
  let named := selectedEntities entities memberIds
  let parts := PyDict.fromKeys (leadOf members :: chosen.map LayerClaim.text)
  let table ← tableOf e
  .ok {
    pointer := {
      elementIds := memberIds
      entityIds := Sorting.sortedSet id (named.map EntitySummary.id)
      claimIds := chosen.map LayerClaim.id }
    summary := {
      elementId := e.id
      kind := e.kind
      fields := fields.filter fun f => isScoped memberIds f.2
      claims := chosen.map fun c => ⟨c.id, c.text, c.score, c.observedAt, c.validFrom, c.validTo⟩
      entities := named
      abstract := Readable.join (lit " ") (parts.filter fun part => part ≠ [])
      children := childrenOf tree e.id
      table := table }
    full := members.map DocElement.toDict }

/-- `build_layers`: an entry for each element. -/
def buildLayers (frames : Nat) : Except LayerFailure (List (PyStr × Layers)) := do
  tree.validate.mapError .invalid
  tree.elements.mapM fun e => do
    let layers ← layersFor tree fields claims entities frames e
    .ok (e.id, layers)

end Layer

/-! ## The children -/

variable {tree} {e : DocElement} {a b : PyStr}

/-- The ids are not empty. -/
def Named (elements : List DocElement) : Prop := ∀ e ∈ elements, e.id ≠ []

theorem mem_childrenOf (hwell : WellFormed tree.elements) (hnamed : Named tree.elements) :
    a ∈ childrenOf tree b ↔ IsParent tree.elements a b := by
  rw [childrenOf, Sorting.mem_sortedBy, List.mem_map]
  constructor
  · rintro ⟨e, he, rfl⟩
    obtain ⟨he, hparent⟩ := List.mem_filter.mp he
    exact ⟨e, he, rfl, (of_decide_eq_true hparent).1⟩
  · rintro ⟨e, he, rfl, hparent⟩
    obtain ⟨p, hp, rfl⟩ := List.mem_map.mp (hwell.forest.listed e.id b ⟨e, he, rfl, hparent⟩)
    exact ⟨e, List.mem_filter.mpr ⟨he, decide_eq_true ⟨hparent, hnamed p hp⟩⟩, rfl⟩

/-- **Children are those that name their parent.** -/
theorem child_eq (hwell : WellFormed tree.elements) (hnamed : Named tree.elements) :
    Descent.Child (childrenOf tree) = IsParent tree.elements := by
  funext a b
  exact propext (mem_childrenOf hwell hnamed)

theorem children_forest (hwell : WellFormed tree.elements) (hnamed : Named tree.elements) :
    Descent.Forest (childrenOf tree) where
  acyclic := by
    rw [child_eq hwell hnamed]
    exact hwell.forest.acyclic
  unique := by
    rw [child_eq hwell hnamed]
    rintro a b c ⟨e, he, rfl, hb⟩ ⟨e', he', hid, hc⟩
    obtain rfl := List.inj_on_of_nodup_map hwell.distinct he' he hid
    exact Option.some.inj (hb.symm.trans hc)
  nodup a := by
    refine (Sorting.sortedBy_perm _ _).nodup_iff.mpr ?_
    exact hwell.distinct.sublist (List.filter_sublist.map DocElement.id)

theorem childrenOf_sorted : (childrenOf tree a).Pairwise fun x y => orderOf tree x ≤ orderOf tree y :=
  List.pairwise_insertionSort _ _

/-- No chain of parents is longer than the calls that there are. -/
def Nested (elements : List DocElement) (frames : Nat) : Prop :=
  ∀ chain : List PyStr, chain.IsChain (IsParent elements) →
    (∀ a ∈ chain, a ∈ elements.map DocElement.id) → chain.length ≤ frames

/-- A chain up to an element is of elements. -/
theorem chain_listed {chain : List PyStr} (hchain : chain.IsChain (IsParent tree.elements))
    (hlast : chain.getLast? = some e.id) (he : e ∈ tree.elements) :
    ∀ a ∈ chain, a ∈ tree.elements.map DocElement.id := by
  induction chain with
  | nil => exact fun a ha => absurd ha List.not_mem_nil
  | cons b chain ih =>
    cases chain with
    | nil =>
      obtain rfl : b = e.id := Option.some.inj hlast
      exact List.forall_mem_singleton.mpr (List.mem_map_of_mem he)
    | cons c chain =>
      obtain ⟨hparent, hrest⟩ := List.isChain_cons_cons.mp hchain
      obtain ⟨d, hd, rfl, -⟩ := hparent
      refine List.forall_mem_cons.mpr ⟨List.mem_map_of_mem hd, ih hrest ?_⟩
      rwa [List.getLast?_cons_cons] at hlast

/-- **The recursion gets through.** -/
theorem descendants_ok {frames : Nat} (hwell : WellFormed tree.elements) (hnamed : Named tree.elements)
    (hnested : Nested tree.elements frames) (he : e ∈ tree.elements) :
    ∃ ids, descendants tree frames e.id = .ok ids ∧
      Descent.walk (childrenOf tree) frames e.id = some ids := by
  have hsome : (Descent.walk (childrenOf tree) frames e.id).isSome = true := by
    refine Descent.walk_isSome fun chain hchain hlast => ?_
    rw [child_eq hwell hnamed] at hchain
    exact hnested chain hchain (chain_listed hchain hlast he)
  obtain ⟨ids, hids⟩ := Option.isSome_iff_exists.mp hsome
  exact ⟨ids, by rw [descendants, hids], hids⟩

/-! ## The tiers -/

/-- In the subtree. -/
def Below (tree : DocElementTree) (a b : PyStr) : Prop :=
  Relation.ReflTransGen (IsParent tree.elements) a b

/-- The tiers of an element are of its subtree. -/
structure Discloses (tree : DocElementTree) (claims : List LayerClaim) (entities : List LayerEntity)
    (e : DocElement) (layers : Layers) : Prop where
  subtree : ∀ a, a ∈ layers.pointer.elementIds ↔ Below tree a e.id
  once : layers.pointer.elementIds.Nodup
  parents : layers.pointer.elementIds.Pairwise fun a b =>
    ¬ Relation.TransGen (IsParent tree.elements) a b
  siblings : layers.pointer.elementIds.Pairwise fun a b => ∀ p, IsParent tree.elements a p →
    IsParent tree.elements b p → orderOf tree a ≤ orderOf tree b
  full : ∃ members : List DocElement, (∀ m ∈ members, m ∈ tree.elements) ∧
    members.map DocElement.id = layers.pointer.elementIds ∧ layers.full = members.map DocElement.toDict
  claimIds : ∀ id, id ∈ layers.pointer.claimIds ↔
    ∃ c ∈ claims, c.id = id ∧ c.verified = true ∧ Below tree c.elementId e.id
  claimSummaries : ∀ id, id ∈ layers.summary.claims.map ClaimSummary.id ↔
    ∃ c ∈ claims, c.id = id ∧ c.verified = true ∧ Below tree c.elementId e.id
  entityIds : ∀ id, id ∈ layers.pointer.entityIds ↔
    id ≠ [] ∧ ∃ m ∈ entities, m.entityId = some id ∧ ∃ a, m.elementId = some a ∧ Below tree a e.id
  entitySummaries : ∀ id, id ∈ layers.summary.entities.map EntitySummary.id ↔
    id ≠ [] ∧ ∃ m ∈ entities, m.entityId = some id ∧ ∃ a, m.elementId = some a ∧ Below tree a e.id

variable {fields : List (PyStr × PyValue)} {claims : List LayerClaim} {entities : List LayerEntity}
  {memberIds : List PyStr} {frames : Nat} {layers : Layers}

theorem mem_selectedEntities {id : PyStr} :
    id ∈ (selectedEntities entities memberIds).map EntitySummary.id ↔
      id ≠ [] ∧ ∃ m ∈ entities, m.entityId = some id ∧ ∃ a, m.elementId = some a ∧ a ∈ memberIds := by
  rw [List.mem_map]
  constructor
  · rintro ⟨named, hnamed, rfl⟩
    obtain ⟨m, hm, hchosen⟩ := List.mem_filterMap.mp hnamed
    split at hchosen
    · rename_i elementId entityId hell hent
      split at hchosen
      · rename_i hcond
        cases hchosen
        exact ⟨hcond.2, m, hm, hent, elementId, hell, hcond.1⟩
      · cases hchosen
    · cases hchosen
  · rintro ⟨hne, m, hm, hent, a, hell, ha⟩
    refine ⟨⟨id, m.text⟩, List.mem_filterMap.mpr ⟨m, hm, ?_⟩, rfl⟩
    rw [hell, hent]
    exact if_pos ⟨ha, hne⟩

theorem mem_selectedClaims {id : PyStr} :
    id ∈ (selectedClaims claims memberIds).map LayerClaim.id ↔
      ∃ c ∈ claims, c.id = id ∧ c.verified = true ∧ c.elementId ∈ memberIds := by
  rw [List.mem_map]
  constructor
  · rintro ⟨c, hc, rfl⟩
    obtain ⟨hc, hcond⟩ := List.mem_filter.mp hc
    exact ⟨c, hc, rfl, (of_decide_eq_true hcond).2, (of_decide_eq_true hcond).1⟩
  · rintro ⟨c, hc, rfl, hverified, hmem⟩
    exact ⟨c, List.mem_filter.mpr ⟨hc, decide_eq_true ⟨hmem, hverified⟩⟩, rfl⟩

/-- The elements of listed ids. -/
theorem members_ids {ids : List PyStr} (hwell : WellFormed tree.elements)
    (hids : ∀ a ∈ ids, a ∈ tree.elements.map DocElement.id) :
    (∀ m ∈ ids.filterMap tree.get, m ∈ tree.elements) ∧
      (ids.filterMap tree.get).map DocElement.id = ids := by
  constructor
  · intro m hm
    obtain ⟨a, -, hget⟩ := List.mem_filterMap.mp hm
    exact List.mem_of_find?_eq_some hget
  · induction ids with
    | nil => rfl
    | cons a ids ih =>
      rw [List.forall_mem_cons] at hids
      obtain ⟨m, hm, rfl⟩ := List.mem_map.mp hids.1
      rw [List.filterMap_cons_some (get_of_mem hwell hm), List.map_cons, ih hids.2]

theorem below_listed (he : e ∈ tree.elements) (h : Below tree a e.id) :
    a ∈ tree.elements.map DocElement.id := by
  rcases Relation.ReflTransGen.cases_head h with rfl | ⟨b, ⟨m, hm, rfl, -⟩, -⟩
  · exact List.mem_map_of_mem he
  · exact List.mem_map_of_mem hm

/-- **The tiers of an element.** -/
theorem layersFor_discloses (hwell : WellFormed tree.elements) (hnamed : Named tree.elements)
    (he : e ∈ tree.elements) (h : layersFor tree fields claims entities frames e = .ok layers) :
    Discloses tree claims entities e layers := by
  obtain ⟨memberIds, hmembers, h⟩ := Fallible.bind_ok.mp h
  obtain ⟨table, -, h⟩ := Fallible.bind_ok.mp h
  cases h
  have hwalk : Descent.walk (childrenOf tree) frames e.id = some memberIds := by
    rw [descendants] at hmembers
    split at hmembers
    · cases hmembers
    · rename_i ids hids
      cases hmembers
      exact hids
  have hforest := children_forest hwell hnamed
  have hsubtree : ∀ a, a ∈ memberIds ↔ Below tree a e.id := by
    intro a
    rw [Descent.mem_walk hwalk, child_eq hwell hnamed]
    rfl
  have hlisted : ∀ a ∈ memberIds, a ∈ tree.elements.map DocElement.id :=
    fun a ha => below_listed he ((hsubtree a).mp ha)
  have hclaims : ∀ id, id ∈ (selectedClaims claims memberIds).map LayerClaim.id ↔
      ∃ c ∈ claims, c.id = id ∧ c.verified = true ∧ Below tree c.elementId e.id := by
    intro id
    rw [mem_selectedClaims]
    simp only [hsubtree]
  have hentities : ∀ id, id ∈ (selectedEntities entities memberIds).map EntitySummary.id ↔
      id ≠ [] ∧ ∃ m ∈ entities, m.entityId = some id ∧ ∃ a, m.elementId = some a ∧ Below tree a e.id := by
    intro id
    rw [mem_selectedEntities]
    simp only [hsubtree]
  obtain ⟨hmem, hids⟩ := members_ids hwell hlisted
  have hparents := hforest.walk_parents hwalk
  have hsiblings := hforest.walk_siblings (fun _ => childrenOf_sorted) hwalk
  rw [child_eq hwell hnamed] at hparents hsiblings
  refine ⟨hsubtree, hforest.walk_nodup hwalk, hparents, hsiblings, ⟨_, hmem, hids, rfl⟩, hclaims, ?_, ?_,
    hentities⟩
  · intro id
    rw [← hclaims, List.map_map]
    rfl
  · intro id
    rw [← hentities]
    exact Sorting.mem_sortedSet

/-- The attributes of a table that are counted have a length. -/
def Sized (e : DocElement) : Prop :=
  e.kind = lit "Table" → ∀ key ∈ [lit "rows", lit "merged_cells"], ∀ value,
    e.attributes.lookup key = some value → (value.len?).isSome = true

theorem attributeSize_ok {failure : LayerFailure} {key : String}
    (h : ∀ value, e.attributes.lookup (lit key) = some value → (value.len?).isSome = true) :
    ∃ n, attributeSize failure e key = .ok n := by
  rw [attributeSize]
  split
  · exact ⟨0, rfl⟩
  · rename_i value hvalue
    obtain ⟨n, hn⟩ := Option.isSome_iff_exists.mp (h value hvalue)
    exact ⟨n, by rw [hn]⟩

theorem tableOf_ok (h : Sized e) : ∃ table, tableOf e = .ok table := by
  rw [tableOf]
  split
  · rename_i hkind
    obtain ⟨rows, hrows⟩ := @attributeSize_ok e .attributeError "rows"
      (h hkind _ List.mem_cons_self)
    obtain ⟨merged, hmerged⟩ := @attributeSize_ok e .typeError "merged_cells"
      (h hkind _ (List.mem_cons_of_mem _ List.mem_cons_self))
    rw [hrows, hmerged]
    exact ⟨_, rfl⟩
  · exact ⟨none, rfl⟩

/-- **Claims that are not verified change nothing.** -/
theorem buildLayers_verified {claims' : List LayerClaim}
    (h : (claims.filter fun c => c.verified) = claims'.filter fun c => c.verified) :
    buildLayers tree fields claims entities frames = buildLayers tree fields claims' entities frames := by
  have hselected : ∀ claims : List LayerClaim, ∀ memberIds, selectedClaims claims memberIds =
      (claims.filter fun c => c.verified).filter fun c => c.elementId ∈ memberIds := by
    intro claims memberIds
    rw [selectedClaims, List.filter_filter]
    refine List.filter_congr fun c _ => ?_
    rw [Bool.decide_and, Bool.decide_eq_true]
  have hlayers : ∀ e, layersFor tree fields claims entities frames e =
      layersFor tree fields claims' entities frames e := by
    intro e
    simp only [layersFor, hselected, h]
  simp only [buildLayers, hlayers]

/-- **DISCLOSURE TIERS AGREE WITH THE TREE.**  On a valid tree with ids that are not empty, tables that can
    be counted and chains of parents no longer than the calls that there are, every element has its tiers,
    they are of its subtree, and what is not verified has no part in them. -/
theorem layers_disclose (tree : DocElementTree) (fields : List (PyStr × PyValue))
    (claims : List LayerClaim) (entities : List LayerEntity) (frames : Nat)
    (hvalid : tree.validate = .ok ()) (hnamed : Named tree.elements)
    (hsized : ∀ e ∈ tree.elements, Sized e) (hnested : Nested tree.elements frames) :
    (∃ layers, buildLayers tree fields claims entities frames = .ok layers ∧
        List.Forall₂ (fun e entry => entry.1 = e.id ∧ Discloses tree claims entities e entry.2)
          tree.elements layers) ∧
      ∀ claims', (claims.filter fun c => c.verified) = (claims'.filter fun c => c.verified) →
        buildLayers tree fields claims' entities frames = buildLayers tree fields claims entities frames := by
  obtain ⟨-, -, hwell⟩ := validate_ok_iff.mp hvalid
  refine ⟨?_, fun claims' hsame => (buildLayers_verified hsame).symm⟩
  have hall : ∀ e ∈ tree.elements, ∃ entry, (do
      let layers ← layersFor tree fields claims entities frames e
      (.ok (e.id, layers) : Except LayerFailure (PyStr × Layers))) = .ok entry ∧
        entry.1 = e.id ∧ Discloses tree claims entities e entry.2 := by
    intro e he
    obtain ⟨ids, hids, -⟩ := descendants_ok hwell hnamed hnested he
    obtain ⟨table, htable⟩ := tableOf_ok (hsized e he)
    obtain ⟨layers, hlayers⟩ : ∃ layers, layersFor tree fields claims entities frames e = .ok layers := by
      rw [layersFor, hids, htable]
      exact ⟨_, rfl⟩
    refine ⟨(e.id, layers), ?_, rfl, layersFor_discloses hwell hnamed he hlayers⟩
    rw [hlayers]
    rfl
  obtain ⟨layers, hlayers, hdiscloses⟩ := Fallible.mapM_exists hall
  refine ⟨layers, ?_, hdiscloses⟩
  rw [buildLayers, hvalid]
  exact hlayers

/-- A section with a table in it. -/
def sectionWith (rows : PyValue) : DocElementTree :=
  { sourceId := lit "s"
    text := lit "A\nB"
    elements := [{ id := lit "h", kind := lit "SectionHeader", text := lit "A", byteStart := 0,
                   byteEnd := 1 },
                 { id := lit "t", kind := lit "Table", text := lit "B", byteStart := 2, byteEnd := 3,
                   parent := some (lit "h"), order := 1, attributes := [(lit "rows", rows)] }] }

theorem section_named (rows : PyValue) : Named (sectionWith rows).elements := by
  intro e he
  simp only [sectionWith, List.mem_cons, List.not_mem_nil, or_false] at he
  rcases he with rfl | rfl
  · exact (by decide : lit "h" ≠ [])
  · exact (by decide : lit "t" ≠ [])

theorem section_sized {rows : PyValue} (h : rows.len?.isSome = true) :
    ∀ e ∈ (sectionWith rows).elements, Sized e := by
  intro e he hkind key hkey value hlookup
  simp only [sectionWith, List.mem_cons, List.not_mem_nil, or_false] at he hkey
  rcases he with rfl | rfl
  · exact absurd hkind (by decide)
  · rcases hkey with rfl | rfl
    · obtain rfl := Option.some.inj hlookup
      exact h
    · cases hlookup

theorem section_nested (rows : PyValue) : Nested (sectionWith rows).elements 2 := by
  have hparent : ∀ a b, IsParent (sectionWith rows).elements a b → a = lit "t" ∧ b = lit "h" := by
    rintro a b ⟨e, he, rfl, hb⟩
    simp only [sectionWith, List.mem_cons, List.not_mem_nil, or_false] at he
    rcases he with rfl | rfl
    · cases hb
    · exact ⟨rfl, (Option.some.inj hb).symm⟩
  intro chain hchain _
  cases hchain with
  | nil => exact Nat.zero_le 2
  | singleton a => exact Nat.le_succ 1
  | cons_cons hab hrest =>
    cases hrest with
    | singleton b => exact Nat.le_refl 2
    | cons_cons hbc _ =>
      exact absurd ((hparent _ _ hab).2.symm.trans (hparent _ _ hbc).1) (by decide)

theorem layers_disclose_section : (∃ layers,
      buildLayers (sectionWith (.list [])) [] [⟨lit "c", lit "text", lit "t", true, .none, .none, .none, .none⟩]
        [] 2 = .ok layers ∧
      List.Forall₂ (fun e entry => entry.1 = e.id ∧ Discloses (sectionWith (.list []))
        [⟨lit "c", lit "text", lit "t", true, .none, .none, .none, .none⟩] [] e entry.2)
        (sectionWith (.list [])).elements layers) ∧
    ∀ claims', ([⟨lit "c", lit "text", lit "t", true, .none, .none, .none, .none⟩].filter
        fun c : LayerClaim => c.verified) = (claims'.filter fun c => c.verified) →
      buildLayers (sectionWith (.list [])) [] claims' [] 2 = buildLayers (sectionWith (.list [])) []
        [⟨lit "c", lit "text", lit "t", true, .none, .none, .none, .none⟩] [] 2 :=
  layers_disclose (sectionWith (.list [])) [] _ [] 2 (by decide +kernel) (section_named _)
    (section_sized rfl) (section_nested _)

/-- Rows that are `None` end it, an interpreter without another call ends it, and an id that a verified
    claim shares is listed for a claim that is not verified. -/
theorem layers_undisclosed :
    ((sectionWith .none).validate = .ok () ∧ Named (sectionWith .none).elements ∧
      (buildLayers (sectionWith .none) [] [] [] 1000).map (fun _ => ()) = .error .attributeError) ∧
    ((sectionWith (.list [])).validate = .ok () ∧ Named (sectionWith (.list [])).elements ∧
      (buildLayers (sectionWith (.list [])) [] [] [] 1).map (fun _ => ()) = .error .recursionError) ∧
    (buildLayers (sectionWith (.list [])) [] [{ id := lit "c", text := lit "x", elementId := lit "h", verified := true },
        { id := lit "c", text := lit "y", elementId := lit "t", verified := false }] [] 1000).toOption.map
      (fun layers => layers.map fun entry => (entry.1, entry.2.pointer.claimIds)) =
        some [(lit "h", [lit "c"]), (lit "t", [])] :=
  ⟨⟨by decide +kernel, section_named _, by decide +kernel⟩,
    ⟨by decide +kernel, section_named _, by decide +kernel⟩, by decide +kernel⟩

end ControlPlane.Documents
