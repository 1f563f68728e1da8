/-
  QUOTING ROUND-TRIPS: does Graphviz read every string of a request as it was sent?

  No.  `_quote` escapes for JSON, and of the escapes of JSON the lexer of DOT undoes one.  Every
  string is still one token, whatever is in it, so nothing can be injected; but a backslash is read
  twice, and a line break as a backslash with a letter.  The worker asks for a node by the id that
  was sent, and Graphviz knows it by the id that it read.

  1. `mem_dotLines` says once what lines there are; the nodes they name and the strings they quote
     follow from it.
  2. `workerMain_ok_iff`: the worker finds ALL nodes exactly when all ids are clean.  An id could be
     found by chance, because another denotes it; but what is denoted is never shorter, and the ids
     cannot all grow into one another.
  3. `quoting_roundtrips`.
-/
import ControlPlane.Layout.Dot
import ControlPlane.Layout.Order
import Mathlib.Algebra.Order.BigOperators.Group.List

namespace ControlPlane.Layout

open Graphviz Sorting

/-! ## The worker, `apps/layout/worker.py` -/

/-- What the worker fails with. -/
inductive WorkerError where
  /-- The text is no graph. -/
  | dot
  | keyError (id : PyStr)
  /-- "Graphviz omitted a position for …". -/
  | omitted (id : PyStr)
  | valueError (part : PyStr)

/-- The layout engines. -/
structure Engines where
  /-- The attribute `pos` that an engine gives to a node of the graph of a text. -/
  pos : PyStr → PyStr → PyStr → PyStr
  /-- `round(float(part), 6)`. -/
  coordinate : PyStr → Option PyFloat

/-- `raw.rstrip("!").split(",")`. -/
def parts (raw : PyStr) : List PyStr := ((raw.reverse.dropWhile (· = 0x21)).reverse).splitOn 0x2C

/-- The body of the loop, for a graph with the nodes `known`. -/
def findPosition (g : Engines) (known : List PyStr) (raw : PyStr → PyStr) (id : PyStr) :
    Except WorkerError (PyStr × Position) :=
  if id ∉ known then .error (.keyError id)
  else
    match parts (raw id) with
    | [x, y] => match g.coordinate x, g.coordinate y with
      | some x, some y => .ok (id, ⟨x, y⟩)
      | none, _ => .error (.valueError x)
      | some _, none => .error (.valueError y)
    | _ => .error (.omitted id)

/-- `main`, from the request to the positions; the ids of a request are distinct. -/
def workerMain (g : Engines) (dot engine : PyStr) (nodeIds : List PyStr) :
    Except WorkerError (List (PyStr × Position)) :=
  match lex dot with
  | none => .error .dot
  | some lexemes => nodeIds.mapM (findPosition g (nodes lexemes) (g.pos engine dot))

/-- Every node of a graph gets a position. -/
def Engines.Lays (g : Engines) : Prop :=
  ∀ engine dot lexemes, lex dot = some lexemes → ∀ id ∈ nodes lexemes,
    ∃ x y, parts (g.pos engine dot id) = [x, y] ∧ (g.coordinate x).isSome ∧ (g.coordinate y).isSome

theorem findPosition_ok {g : Engines} {known : List PyStr} {raw : PyStr → PyStr} {id : PyStr}
    {found : PyStr × Position} (h : findPosition g known raw id = .ok found) :
    id ∈ known ∧ found.1 = id := by
  unfold findPosition at h
  split at h
  · cases h
  rename_i hknown
  split at h
  · split at h
    · cases h
      exact ⟨not_not.mp hknown, rfl⟩
    · cases h
    · cases h
  · cases h

theorem findPosition_lays {g : Engines} (hlays : g.Lays) {engine dot : PyStr}
    {lexemes : List Lexeme} (hlex : lex dot = some lexemes) {id : PyStr} (hid : id ∈ nodes lexemes) :
    ∃ found, findPosition g (nodes lexemes) (g.pos engine dot) id = .ok found := by
  obtain ⟨x, y, hparts, hx, hy⟩ := hlays engine dot lexemes hlex id hid
  obtain ⟨px, hpx⟩ := Option.isSome_iff_exists.mp hx
  obtain ⟨py, hpy⟩ := Option.isSome_iff_exists.mp hy
  refine ⟨(id, ⟨px, py⟩), ?_⟩
  rw [findPosition, if_neg (not_not.mpr hid), hparts]
  simp only [hpx, hpy]

/-- Whether the loop goes through is a matter of the nodes that the graph has. -/
theorem mapM_findPosition {g : Engines} (hlays : g.Lays) {engine dot : PyStr}
    {lexemes : List Lexeme} (hlex : lex dot = some lexemes) (ids : List PyStr) :
    (∃ positions, ids.mapM (findPosition g (nodes lexemes) (g.pos engine dot)) = .ok positions ∧
      positions.map Prod.fst = ids) ↔ ∀ id ∈ ids, id ∈ nodes lexemes := by
  induction ids with
  | nil => exact iff_of_true ⟨[], rfl, rfl⟩ nofun
  | cons id ids ih =>
    rw [List.forall_mem_cons, ← ih, List.mapM_cons]
    constructor
    · rintro ⟨positions, hok, hids⟩
      cases hfound : findPosition g (nodes lexemes) (g.pos engine dot) id with
      | error e => rw [hfound] at hok; cases hok
      | ok found =>
        cases hrest : ids.mapM (findPosition g (nodes lexemes) (g.pos engine dot)) with
        | error e => rw [hfound, hrest] at hok; cases hok
        | ok rest =>
          rw [hfound, hrest] at hok
          cases hok
          exact ⟨(findPosition_ok hfound).1, rest, rfl, (List.cons.inj hids).2⟩
    · rintro ⟨hid, rest, hrest, hids⟩
      obtain ⟨found, hfound⟩ := @findPosition_lays _ hlays engine _ _ hlex _ hid
      refine ⟨found :: rest, ?_, ?_⟩
      · rw [hfound, hrest]
        rfl
      · rw [List.map_cons, hids, (findPosition_ok hfound).2]

/-! ## The lines -/

section Lines

variable {lower : PyStr → PyStr} {inches : PyFloat → Decimal} {nodes : List LayoutNode}
  {edges : List LayoutEdge} {policy : LayoutPolicy} {focusId : Option PyStr}

/-- What lines there are. -/
inductive DotLine (inches : PyFloat → Decimal) (nodes : List LayoutNode) (edges : List LayoutEdge)
    (policy : LayoutPolicy) (focusId : Option PyStr) : List Piece → Prop where
  | text (text : String) (h : Plain (PyStr.lit text)) :
      DotLine inches nodes edges policy focusId [.lit text]
  | graph : DotLine inches nodes edges policy focusId
      ([.lit "  graph ["] ++ renderAttributes (graphAttributes policy focusId) ++ [.lit "];"])
  | subgraph {node : LayoutNode} (hnode : node ∈ nodes) {cluster : PyStr}
      (hcluster : node.clustered = some cluster) (hpolicy : policy.clusterNodes = true) :
      DotLine inches nodes edges policy focusId
        [.lit "  subgraph ", .quoted (PyStr.lit "cluster_" ++ cluster), .lit " \x7b"]
  | node {node : LayoutNode} (hnode : node ∈ nodes) (indent : String)
      (hindent : Plain (PyStr.lit indent)) :
      DotLine inches nodes edges policy focusId (.lit indent :: nodeStatement inches node)
  | edge {edge : LayoutEdge} (hedge : edge ∈ edges) :
      DotLine inches nodes edges policy focusId (edgeLine policy edge)
  | rank {edge : LayoutEdge} (hedge : edge ∈ edges) {group : PyStr × PyStr}
      (hgroup : group = (edge.from_, edge.to_) ∨ group = (edge.to_, edge.from_)) :
      DotLine inches nodes edges policy focusId (rankLine group)

/-- The members of a cluster are nodes that name it. -/
def Sorted (nodes : List LayoutNode) (clusters : List (PyStr × List LayoutNode)) : Prop :=
  ∀ c ∈ clusters, c.2 ≠ [] ∧ ∀ node ∈ c.2, node ∈ nodes ∧ node.clustered = some c.1

theorem appendTo_sorted {clusters : List (PyStr × List LayoutNode)} (h : Sorted nodes clusters)
    {node : LayoutNode} (hnode : node ∈ nodes) {cluster : PyStr}
    (hcluster : node.clustered = some cluster) : Sorted nodes (appendTo clusters cluster node) := by
  unfold appendTo
  split
  · intro c hc
    obtain ⟨old, hold, rfl⟩ := List.mem_map.mp hc
    split
    · rename_i heq
      refine ⟨by simp, fun member hmember => ?_⟩
      rcases List.mem_append.mp hmember with hbefore | hnew
      · exact (h old hold).2 member hbefore
      · rw [List.mem_singleton.mp hnew, heq]
        exact ⟨hnode, hcluster⟩
    · exact h old hold
  · intro c hc
    rcases List.mem_append.mp hc with hold | hnew
    · exact h c hold
    · rw [List.mem_singleton.mp hnew]
      refine ⟨by simp, fun member hmember => ?_⟩
      rw [List.mem_singleton.mp hmember]
      exact ⟨hnode, hcluster⟩

/-- One node of the loop over the sorted nodes. -/
def addNode (clusters : List (PyStr × List LayoutNode)) (node : LayoutNode) :
    List (PyStr × List LayoutNode) :=
  match node.clustered with
  | some cluster => appendTo clusters cluster node
  | none => clusters

theorem clustersOf_eq (nodes : List LayoutNode) : clustersOf nodes = nodes.foldl addNode [] := rfl

theorem addNode_some {node : LayoutNode} {cluster : PyStr} (h : node.clustered = some cluster)
    (clusters : List (PyStr × List LayoutNode)) :
    addNode clusters node = appendTo clusters cluster node := by
  rw [addNode, h]

theorem addNode_none {node : LayoutNode} (h : node.clustered = none)
    (clusters : List (PyStr × List LayoutNode)) : addNode clusters node = clusters := by
  rw [addNode, h]

theorem foldl_addNode_sorted {rest : List LayoutNode} (hrest : ∀ node ∈ rest, node ∈ nodes)
    {clusters : List (PyStr × List LayoutNode)} (h : Sorted nodes clusters) :
    Sorted nodes (rest.foldl addNode clusters) := by
  induction rest generalizing clusters with
  | nil => exact h
  | cons node rest ih =>
    rw [List.forall_mem_cons] at hrest
    refine ih hrest.2 ?_
    cases hcluster : node.clustered with
    | none => rwa [addNode_none hcluster]
    | some cluster =>
      rw [addNode_some hcluster]
      exact appendTo_sorted h hrest.1 hcluster

theorem clustersOf_sorted (nodes : List LayoutNode) : Sorted nodes (clustersOf nodes) :=
  foldl_addNode_sorted (fun _ h => h) fun _ h => absurd h List.not_mem_nil

/-- A node stands in a cluster. -/
def Holds (clusters : List (PyStr × List LayoutNode)) (cluster : PyStr) (node : LayoutNode) : Prop :=
  ∃ c ∈ clusters, c.1 = cluster ∧ node ∈ c.2

theorem appendTo_holds {clusters : List (PyStr × List LayoutNode)} {cluster cluster' : PyStr}
    {node node' : LayoutNode}
    (h : Holds clusters cluster node ∨ (cluster = cluster' ∧ node = node')) :
    Holds (appendTo clusters cluster' node') cluster node := by
  unfold appendTo
  split
  · rename_i hcontains
    rcases h with ⟨c, hc, hname, hnode⟩ | ⟨rfl, rfl⟩
    · refine ⟨_, List.mem_map.mpr ⟨c, hc, rfl⟩, ?_⟩
      split
      · exact ⟨hname, List.mem_append_left _ hnode⟩
      · exact ⟨hname, hnode⟩
    · obtain ⟨c, hc, hname⟩ := List.mem_map.mp (List.contains_iff_mem.mp hcontains)
      refine ⟨_, List.mem_map.mpr ⟨c, hc, rfl⟩, ?_⟩
      rw [if_pos hname]
      exact ⟨hname, List.mem_append_right _ (List.mem_singleton_self _)⟩
  · rcases h with ⟨c, hc, hname, hnode⟩ | ⟨rfl, rfl⟩
    · exact ⟨c, List.mem_append_left _ hc, hname, hnode⟩
    · exact ⟨_, List.mem_append_right _ (List.mem_singleton_self _), rfl,
        List.mem_singleton_self _⟩

theorem foldl_addNode_holds {node : LayoutNode} {cluster : PyStr}
    (hcluster : node.clustered = some cluster) {rest : List LayoutNode}
    {clusters : List (PyStr × List LayoutNode)} (h : Holds clusters cluster node ∨ node ∈ rest) :
    Holds (rest.foldl addNode clusters) cluster node := by
  induction rest generalizing clusters with
  | nil => exact h.resolve_right List.not_mem_nil
  | cons first rest ih =>
    refine ih ?_
    rw [List.mem_cons] at h
    rcases h with hbefore | heq | hrest
    · left
      cases hfirst : first.clustered with
      | none => rwa [addNode_none hfirst]
      | some other =>
        rw [addNode_some hfirst]
        exact appendTo_holds (Or.inl hbefore)
    · left
      rw [← heq, addNode_some hcluster]
      exact appendTo_holds (Or.inr ⟨rfl, rfl⟩)
    · exact Or.inr hrest

/-- Every node that names a cluster stands in it. -/
theorem clustersOf_holds {node : LayoutNode} (hnode : node ∈ nodes) {cluster : PyStr}
    (hcluster : node.clustered = some cluster) : Holds (clustersOf nodes) cluster node :=
  foldl_addNode_holds hcluster (Or.inr hnode)

theorem mem_dotLines {line : List Piece}
    (h : line ∈ dotLines lower inches nodes edges policy focusId) :
    DotLine inches nodes edges policy focusId line := by
  simp only [dotLines, List.mem_append, List.mem_singleton] at h
  obtain ((((hhead | hgraph) | hnodes) | hedges) | hranks) | hlast := h
  · rw [hhead]
    exact .text _ (by decide)
  · unfold graphLines at hgraph
    split at hgraph
    · cases hgraph
    · rw [List.mem_singleton.mp hgraph]
      exact .graph
  · rw [nodeLines, List.mem_append] at hnodes
    rcases hnodes with hclusters | hothers
    · split at hclusters
      · rename_i hpolicy
        obtain ⟨⟨cluster, members⟩, hmem, hline⟩ := List.mem_flatMap.mp hclusters
        obtain ⟨hne, hmembers⟩ := clustersOf_sorted _ _ (mem_sortedBy.mp hmem)
        have hsorted : ∀ node ∈ members, node ∈ nodes ∧ node.clustered = some cluster :=
          fun node hnode => ⟨mem_sortedBy.mp (hmembers node hnode).1, (hmembers node hnode).2⟩
        simp only [clusterLines, List.mem_append, List.mem_singleton, List.mem_map] at hline
        obtain (hopen | ⟨node, hnode, hline⟩) | hclose := hline
        · obtain ⟨node, hnode⟩ := List.exists_mem_of_ne_nil members hne
          rw [hopen]
          exact .subgraph (hsorted node hnode).1 (hsorted node hnode).2 hpolicy
        · rw [← hline]
          exact .node (hsorted node hnode).1 _ (by decide)
        · rw [hclose]
          exact .text _ (by decide)
      · cases hclusters
    · obtain ⟨node, hnode, hline⟩ := List.mem_map.mp hothers
      rw [← hline]
      exact .node (mem_sortedBy.mp (List.mem_filter.mp hnode).1) _ (by decide)
  · obtain ⟨edge, hedge, hline⟩ := List.mem_map.mp hedges
    rw [← hline]
    exact .edge (mem_sortedBy.mp hedge)
  · split at hranks
    · obtain ⟨group, hgroup, hline⟩ := List.mem_map.mp hranks
      obtain ⟨edge, hedge, hends⟩ := List.mem_filterMap.mp (mem_sortedSet.mp hgroup)
      rw [← hline]
      refine .rank hedge ?_
      unfold rankGroup at hends
      split at hends
      · cases hends
      dsimp only at hends
      split at hends
      · exact Or.inl (Option.some.inj hends).symm
      split at hends
      · exact Or.inr (Option.some.inj hends).symm
      · cases hends
    · cases hranks
  · rw [hlast]
    exact .text _ (by decide)

/-- Every node has its statement. -/
theorem node_mem_dotLines {node : LayoutNode} (hnode : node ∈ nodes) :
    ∃ indent : String, .lit indent :: nodeStatement inches node ∈
      dotLines lower inches nodes edges policy focusId := by
  have hlines : ∀ {line}, line ∈ nodeLines inches policy (sortedBy LayoutNode.id nodes) →
      line ∈ dotLines lower inches nodes edges policy focusId := by
    intro line hline
    simp only [dotLines, List.mem_append]
    exact Or.inl (Or.inl (Or.inl (Or.inr hline)))
  have hsorted : node ∈ sortedBy LayoutNode.id nodes := mem_sortedBy.mpr hnode
  by_cases hclustered : policy.clusterNodes = true ∧ node.clustered.isSome = true
  · obtain ⟨hpolicy, hsome⟩ := hclustered
    obtain ⟨cluster, hcluster⟩ := Option.isSome_iff_exists.mp hsome
    obtain ⟨members, hmem, -, hmember⟩ := clustersOf_holds hsorted hcluster
    refine ⟨"    ", hlines (List.mem_append_left _ ?_)⟩
    rw [if_pos hpolicy]
    refine List.mem_flatMap.mpr ⟨members, mem_sortedBy.mpr hmem, ?_⟩
    simp only [clusterLines, List.mem_append, List.mem_map]
    exact Or.inl (Or.inr ⟨node, hmember, rfl⟩)
  · refine ⟨"  ", hlines (List.mem_append_right _ (List.mem_map.mpr ⟨node, ?_, rfl⟩))⟩
    refine List.mem_filter.mpr ⟨hsorted, ?_⟩
    rw [Bool.not_eq_true', ← Bool.not_eq_true, Bool.and_eq_true]
    exact hclustered

/-- A cluster that is drawn opens with its name. -/
theorem subgraph_mem_dotLines {node : LayoutNode} (hnode : node ∈ nodes) {cluster : PyStr}
    (hcluster : node.clustered = some cluster) (hpolicy : policy.clusterNodes = true) :
    [.lit "  subgraph ", .quoted (PyStr.lit "cluster_" ++ cluster), .lit " \x7b"] ∈
      dotLines lower inches nodes edges policy focusId := by
  obtain ⟨members, hmem, hname, -⟩ := clustersOf_holds
    ((@mem_sortedBy _ _ _ LayoutNode.id _ _).mpr hnode) hcluster
  simp only [dotLines, List.mem_append]
  refine Or.inl (Or.inl (Or.inl (Or.inr (List.mem_append_left _ ?_))))
  rw [if_pos hpolicy]
  refine List.mem_flatMap.mpr ⟨members, mem_sortedBy.mpr hmem, ?_⟩
  rw [clusterLines, hname]
  exact List.mem_append_left _ (List.mem_append_left _ (List.mem_singleton_self _))

theorem edge_mem_dotLines {edge : LayoutEdge} (hedge : edge ∈ edges) :
    edgeLine policy edge ∈ dotLines lower inches nodes edges policy focusId := by
  simp only [dotLines, List.mem_append]
  exact Or.inl (Or.inl (Or.inr (List.mem_map_of_mem (mem_sortedBy.mpr hedge))))

/-! ## The nodes -/

/-- What the lines name are the ids, as they are read. -/
theorem mem_nodes_iff (h : WellFormed nodes edges) {id : PyStr} :
    id ∈ Graphviz.nodes (lexemesOf (denoted (dotLines lower inches nodes edges policy focusId))) ↔
      ∃ node ∈ nodes, denote node.id = id := by
  have hend : ∀ {end_ : PyStr}, end_ ∈ nodes.map LayoutNode.id →
      ∃ node ∈ nodes, denote node.id = denote end_ := by
    intro end_ hmem
    obtain ⟨node, hnode, hid⟩ := List.mem_map.mp hmem
    exact ⟨node, hnode, by rw [hid]⟩
  rw [nodes_lexemesOf, List.mem_flatMap]
  constructor
  · rintro ⟨line, hline, hid⟩
    cases mem_dotLines hline with
    | text text hquote => simp [lineNodes_lit] at hid
    | graph => rw [lineNodes_graphLine] at hid; cases hid
    | subgraph hnode hcluster hpolicy => rw [lineNodes_subgraph] at hid; cases hid
    | node hnode indent hindent =>
      rw [lineNodes_nodeStatement] at hid
      exact ⟨_, hnode, (List.mem_singleton.mp hid).symm⟩
    | edge hedge =>
      rw [lineNodes_edgeLine, List.mem_cons, List.mem_singleton] at hid
      rcases hid with hfrom | hto
      · rw [hfrom]
        exact hend (h.from_ _ hedge)
      · rw [hto]
        exact hend (h.to_ _ hedge)
    | rank hedge hgroup =>
      rw [lineNodes_rankLine, List.mem_cons, List.mem_singleton] at hid
      rcases hgroup with heq | heq <;> rw [heq] at hid <;> rcases hid with hid | hid <;> rw [hid]
      · exact hend (h.from_ _ hedge)
      · exact hend (h.to_ _ hedge)
      · exact hend (h.to_ _ hedge)
      · exact hend (h.from_ _ hedge)
  · rintro ⟨node, hnode, hid⟩
    obtain ⟨indent, hline⟩ := @node_mem_dotLines lower inches
      _ edges policy focusId _ hnode
    refine ⟨_, hline, ?_⟩
    rw [lineNodes_nodeStatement, hid]
    exact List.mem_singleton_self _

/-! ## The strings -/

theorem mem_attributeList {attributes : List (PyStr × PyStr)} {piece : Piece}
    (h : piece ∈ attributeList attributes) :
    piece = .lit ", " ∨ ∃ a ∈ attributes, piece = .plain (a.1 ++ PyStr.lit "=") ∨
      piece = .quoted a.2 := by
  induction attributes using attributeList.induct with
  | case1 => cases h
  | case2 key value =>
    rw [attributeList, List.mem_cons, List.mem_singleton] at h
    exact Or.inr ⟨_, List.mem_singleton_self _, h⟩
  | case3 key value others hne ih =>
    rw [attributeList.eq_3 _ _ _ hne, List.mem_append, List.mem_cons, List.mem_cons,
      List.mem_singleton] at h
    rcases h with (hkey | hvalue | hcomma) | hrest
    · exact Or.inr ⟨_, List.mem_cons_self, Or.inl hkey⟩
    · exact Or.inr ⟨_, List.mem_cons_self, Or.inr hvalue⟩
    · exact Or.inl hcomma
    · rcases ih hrest with hcomma | ⟨a, ha, hpiece⟩
      · exact Or.inl hcomma
      · exact Or.inr ⟨a, List.mem_cons_of_mem _ ha, hpiece⟩

theorem value_mem_attributeList {attributes : List (PyStr × PyStr)} {a : PyStr × PyStr}
    (h : a ∈ attributes) : .quoted a.2 ∈ attributeList attributes := by
  induction attributes using attributeList.induct with
  | case1 => cases h
  | case2 key value =>
    rw [List.mem_singleton.mp h, attributeList]
    exact List.mem_cons_of_mem _ (List.mem_singleton_self _)
  | case3 key value others hne ih =>
    rw [attributeList.eq_3 _ _ _ hne]
    rcases List.mem_cons.mp h with heq | hrest
    · rw [heq]
      exact List.mem_append_left _ (List.mem_cons_of_mem _ List.mem_cons_self)
    · exact List.mem_append_right _ (ih hrest)

/-- The attributes of a policy are harmless. -/
theorem policies_clean (graphClass : GraphClass) :
    ∀ a ∈ (policies graphClass).graphAttrs, Plain a.1 ∧ Clean a.2 := by
  cases graphClass <;> decide +kernel

/-- Digits, a sign and a point. -/
theorem clean_number (d : Decimal) : Clean (number d) := by
  have hdigits : ∀ n : Nat, Clean (PyStr.lit (toString n)) := by
    intro n c hc
    obtain ⟨digit, hdigit, rfl⟩ := List.mem_map.mp hc
    have hmem : digit ∈ Nat.toDigits 10 n := by
      rw [← Nat.toList_repr]
      exact hdigit
    have hval := PyStr.digit_val (Nat.isDigit_of_mem_toDigits (by decide) (by decide) hmem)
    refine ⟨fun heq => ?_, by omega⟩
    rw [heq] at hval
    exact absurd hval.2 (by decide)
  have hzeros : ∀ n, Clean (List.replicate n 0x30) := by
    intro n c hc
    rw [List.eq_of_mem_replicate hc]
    decide
  have hsign : ∀ b : Bool, Clean (if b then PyStr.lit "-" else []) := by decide
  have hfixed : ∀ e : Decimal, Clean e.fixed := by
    intro e
    have hpart : ∀ n, Clean (List.replicate n 0x30 ++ PyStr.lit (toString e.coefficient)) :=
      fun n => clean_append.mpr ⟨hzeros n, hdigits _⟩
    unfold Decimal.fixed
    dsimp only
    split
    · exact clean_append.mpr ⟨clean_append.mpr ⟨hsign _, hdigits _⟩, hzeros _⟩
    · refine clean_append.mpr ⟨clean_append.mpr ⟨clean_append.mpr ⟨hsign _, ?_⟩, by decide⟩, ?_⟩
      · exact fun c hc => hpart _ c (List.mem_of_mem_take hc)
      · exact fun c hc => hpart _ c (List.mem_of_mem_drop hc)
  unfold number
  dsimp only
  split
  · decide
  · exact hfixed _

/-- What of a request is written into the text, and clean. -/
structure CleanGraph (policy : LayoutPolicy) (nodes : List LayoutNode) (edges : List LayoutEdge) :
    Prop where
  ids : ∀ node ∈ nodes, Clean node.id
  edgeIds : ∀ edge ∈ edges, Clean edge.id
  clusters : policy.clusterNodes = true → ∀ node ∈ nodes, ∀ cluster ∈ node.cluster, Clean cluster

theorem clustered_eq_some {node : LayoutNode} {cluster : PyStr} :
    node.clustered = some cluster ↔ node.cluster = some cluster ∧ cluster ≠ [] := by
  rw [LayoutNode.clustered, Option.filter_eq_some_iff]
  simp

/-- Every string that is written is `allowed`. -/
structure Allows (allowed : PyStr → Prop) (policy : LayoutPolicy) (focusId : Option PyStr)
    (nodes : List LayoutNode) (edges : List LayoutEdge) : Prop where
  ids : ∀ node ∈ nodes, allowed node.id
  ends : ∀ edge ∈ edges, allowed edge.from_ ∧ allowed edge.to_
  edgeIds : ∀ edge ∈ edges, allowed edge.id
  clusters : policy.clusterNodes = true → ∀ node ∈ nodes, ∀ cluster ∈ node.clustered,
    allowed (PyStr.lit "cluster_" ++ cluster)
  attributes : ∀ a ∈ graphAttributes policy focusId, Plain a.1 ∧ allowed a.2
  number : ∀ d, allowed (number d)
  label : allowed []
  constraint : allowed (PyStr.lit "false")

section Meets

variable {allowed : PyStr → Prop}

theorem meets_lit {text : String} (h : Plain (PyStr.lit text)) : (Piece.lit text).Meets allowed := h

theorem meets_attributes {attributes : List (PyStr × PyStr)}
    (h : ∀ a ∈ attributes, Plain a.1 ∧ allowed a.2) :
    ∀ p ∈ renderAttributes attributes, p.Meets allowed := by
  intro p hp
  rcases mem_attributeList hp with heq | ⟨a, ha, heq | heq⟩ <;> rw [heq]
  · exact meets_lit (by decide)
  · have hkey : ∀ c, c ∉ a.1 → c ∉ PyStr.lit "=" → c ∉ a.1 ++ PyStr.lit "=" := by
      intro c hname hsign
      rw [List.mem_append, not_or]
      exact ⟨hname, hsign⟩
    have hplain := (h a (mem_sortedBy.mp ha)).1
    exact ⟨hkey _ hplain.1 (by decide), hkey _ hplain.2 (by decide)⟩
  · exact (h a (mem_sortedBy.mp ha)).2

/-- What a line is made of. -/
theorem DotLine.meets {line : List Piece} (h : DotLine inches nodes edges policy focusId line)
    (hallows : Allows allowed policy focusId nodes edges) : ∀ p ∈ line, p.Meets allowed := by
  cases h with
  | text text hquote =>
    rw [List.forall_mem_singleton]
    exact meets_lit hquote
  | graph =>
    simp only [List.forall_mem_append, List.forall_mem_singleton]
    exact ⟨⟨meets_lit (by decide), meets_attributes hallows.attributes⟩, meets_lit (by decide)⟩
  | subgraph hnode hcluster hpolicy =>
    simp only [List.forall_mem_cons]
    exact ⟨meets_lit (by decide), hallows.clusters hpolicy _ hnode _ hcluster,
      meets_lit (by decide), fun _ hp => absurd hp List.not_mem_nil⟩
  | node hnode indent hindent =>
    simp only [nodeStatement, List.forall_mem_cons]
    exact ⟨meets_lit hindent, hallows.ids _ hnode, meets_lit (by decide), hallows.number _,
      meets_lit (by decide), hallows.label, meets_lit (by decide), hallows.number _,
      meets_lit (by decide), fun _ hp => absurd hp List.not_mem_nil⟩
  | @edge edge hedge =>
    have hattributes : ∀ a ∈ edgeAttributes policy edge, Plain a.1 ∧ allowed a.2 := by
      unfold edgeAttributes
      simp only [List.forall_mem_append, List.forall_mem_cons]
      refine ⟨⟨⟨by decide, hallows.edgeIds edge hedge⟩, ⟨by decide, hallows.label⟩,
        fun _ hp => absurd hp List.not_mem_nil⟩, ?_⟩
      split
      · rw [List.forall_mem_singleton]
        exact ⟨by decide, hallows.constraint⟩
      · exact fun _ hp => absurd hp List.not_mem_nil
    simp only [edgeLine, List.forall_mem_append, List.forall_mem_cons]
    exact ⟨⟨⟨meets_lit (by decide), (hallows.ends edge hedge).1, meets_lit (by decide),
      (hallows.ends edge hedge).2, meets_lit (by decide), fun _ hp => absurd hp List.not_mem_nil⟩,
      meets_attributes hattributes⟩, meets_lit (by decide),
      fun _ hp => absurd hp List.not_mem_nil⟩
  | @rank edge hedge group hgroup =>
    have hends : allowed group.1 ∧ allowed group.2 := by
      obtain ⟨hfrom, hto⟩ := hallows.ends edge hedge
      rcases hgroup with heq | heq <;> rw [heq]
      · exact ⟨hfrom, hto⟩
      · exact ⟨hto, hfrom⟩
    simp only [rankLine, List.forall_mem_cons]
    exact ⟨meets_lit (by decide), hends.1, meets_lit (by decide), hends.2, meets_lit (by decide),
      fun _ hp => absurd hp List.not_mem_nil⟩

end Meets

/-! ## The policy -/

theorem resolvePolicy_ok {graphClass : Option GraphClass} {params : LayoutParams}
    {selected : GraphClass}
    (h : resolvePolicy graphClass nodes edges params = .ok (selected, policy, focusId)) :
    policy = policies selected ∧ ∀ focus ∈ focusId, focus ∈ nodes.map LayoutNode.id := by
  unfold resolvePolicy at h
  dsimp only at h
  split at h
  · cases hfocus : focusOrLeast params.focusId nodes with
    | error e => rw [hfocus] at h; cases h
    | ok focus =>
      rw [hfocus] at h
      dsimp only at h
      split at h
      · rename_i hmem
        cases h
        refine ⟨rfl, fun other hother => ?_⟩
        rw [← Option.some.inj hother]
        exact List.contains_iff_mem.mp hmem
      · cases h
  · split at h
    · cases h
    · cases h
      exact ⟨rfl, fun focus hfocus => absurd hfocus (by simp)⟩

theorem graphAttributes_meet {allowed : PyStr → Prop} {selected : GraphClass}
    (hpolicy : ∀ a ∈ (policies selected).graphAttrs, allowed a.2)
    (hfocus : ∀ focus ∈ focusId, allowed focus) :
    ∀ a ∈ graphAttributes (policies selected) focusId, Plain a.1 ∧ allowed a.2 := by
  have hattrs : ∀ a ∈ (policies selected).graphAttrs, Plain a.1 ∧ allowed a.2 :=
    fun a ha => ⟨(policies_clean selected a ha).1, hpolicy a ha⟩
  unfold graphAttributes
  split
  · rename_i focus
    rw [List.forall_mem_append, List.forall_mem_singleton]
    exact ⟨hattrs, (by decide : Plain (PyStr.lit "root")), hfocus focus rfl⟩
  · exact hattrs

end Lines

/-! ## Reading a request back -/

section Request

variable {lower : PyStr → PyStr} {inches : PyFloat → Decimal} {nodes : List LayoutNode}
  {edges : List LayoutEdge} {policy : LayoutPolicy} {focusId : Option PyStr}
  {selected : GraphClass} (hvalid : WellFormed nodes edges) (hselected : policy = policies selected)

include hselected in
/-- What the module writes itself is plain. -/
theorem canonicalDot_meets :
    ∀ line ∈ dotLines lower inches nodes edges policy focusId, ∀ p ∈ line, p.Meets fun _ => True := by
  refine fun line hline => (mem_dotLines hline).meets ?_
  rw [hselected]
  exact ⟨fun _ _ => trivial, fun _ _ => ⟨trivial, trivial⟩, fun _ _ => trivial,
    fun _ _ _ _ _ => trivial, graphAttributes_meet (fun _ _ => trivial) fun _ _ => trivial,
    fun _ => trivial, trivial, trivial⟩

include hselected in
/-- The text is always lexed, string by string. -/
theorem lex_canonicalDot : lex (canonicalDot lower inches nodes edges policy focusId) =
    some (lexemesOf (denoted (dotLines lower inches nodes edges policy focusId))) :=
  lex_render (canonicalDot_meets hselected)

include hvalid hselected in
/-- The strings that are written are clean when those of the request are. -/
theorem written_clean_iff (hfocus : ∀ focus ∈ focusId, focus ∈ nodes.map LayoutNode.id) :
    (∀ s ∈ written (dotLines lower inches nodes edges policy focusId), Clean s) ↔
      CleanGraph policy nodes edges := by
  constructor
  · intro h
    have hquoted : ∀ {line text}, line ∈ dotLines lower inches nodes edges policy focusId →
        .quoted text ∈ line → Clean text :=
      fun hline htext => h _ (mem_written.mpr ⟨_, hline, htext⟩)
    refine ⟨fun node hnode => ?_, fun edge hedge => ?_, fun hpolicy node hnode cluster hcluster => ?_⟩
    · obtain ⟨indent, hline⟩ := @node_mem_dotLines lower inches
        _ edges policy focusId _ hnode
      exact hquoted hline (by simp [nodeStatement])
    · refine hquoted (edge_mem_dotLines hedge) (List.mem_append_left _ (List.mem_append_right _ ?_))
      refine value_mem_attributeList (a := (PyStr.lit "id", edge.id)) (mem_sortedBy.mpr ?_)
      exact List.mem_append_left _ List.mem_cons_self
    · by_cases hempty : cluster = []
      · rw [hempty]
        decide
      · have hclustered := clustered_eq_some.mpr ⟨hcluster, hempty⟩
        have hname := hquoted (subgraph_mem_dotLines hnode hclustered hpolicy)
          (List.mem_cons_of_mem _ List.mem_cons_self)
        exact (clean_append.mp hname).2
  · intro h s hs
    have hid : ∀ id ∈ nodes.map LayoutNode.id, Clean id := by
      intro id hmem
      obtain ⟨node, hnode, rfl⟩ := List.mem_map.mp hmem
      exact h.ids node hnode
    obtain ⟨line, hline, hpiece⟩ := mem_written.mp hs
    refine @DotLine.meets _ _ _ _ _ Clean _ (mem_dotLines hline) ?_ _ hpiece
    refine ⟨h.ids, fun edge hedge => ⟨hid _ (hvalid.from_ edge hedge), hid _ (hvalid.to_ edge hedge)⟩,
      h.edgeIds, fun hpolicy node hnode cluster hcluster => ?_, ?_, clean_number, by decide, by decide⟩
    · exact clean_append.mpr ⟨by decide,
        h.clusters hpolicy node hnode cluster (clustered_eq_some.mp hcluster).1⟩
    · rw [hselected]
      exact graphAttributes_meet (fun a ha => (policies_clean selected a ha).2)
        fun focus hmem => hid focus (hfocus focus hmem)

/-- Distinct ids among what they denote denote themselves. -/
theorem clean_of_subset {ids : List PyStr} (hnodup : ids.Nodup)
    (hsubset : ∀ id ∈ ids, id ∈ ids.map denote) : ∀ id ∈ ids, Clean id := by
  have hperm : ids.Perm (ids.map denote) :=
    (List.subperm_of_subset hnodup hsubset).perm_of_length_le (by rw [List.length_map])
  have hsum : (ids.map List.length).sum = (ids.map fun id => (denote id).length).sum := by
    have hlengths := (hperm.map List.length).sum_eq
    rwa [List.map_map] at hlengths
  intro id hid
  by_contra hclean
  have hlt := List.sum_lt_sum List.length (fun id => (denote id).length)
    (fun id _ => length_denote id) ⟨id, hid, length_denote_lt hclean⟩
  exact absurd hsum hlt.ne

include hvalid hselected in
/-- **The worker finds every node exactly when every id is clean.** -/
theorem workerMain_ok_iff {g : Engines} (hlays : g.Lays) (engine : PyStr) :
    (∃ positions, workerMain g (canonicalDot lower inches nodes edges policy focusId) engine
        (sortedBy id (nodes.map LayoutNode.id)) = .ok positions ∧
      positions.map Prod.fst = sortedBy id (nodes.map LayoutNode.id)) ↔
      ∀ node ∈ nodes, Clean node.id := by
  have hlex := @lex_canonicalDot lower inches nodes
    edges _ focusId _ hselected
  rw [workerMain, hlex]
  dsimp only
  rw [mapM_findPosition hlays hlex]
  simp only [mem_sortedBy, mem_nodes_iff hvalid]
  constructor
  · intro h
    have hsubset : ∀ id ∈ nodes.map LayoutNode.id,
        id ∈ (nodes.map LayoutNode.id).map denote := by
      intro id hid
      obtain ⟨node, hnode, hdenote⟩ := h id hid
      exact List.mem_map.mpr ⟨node.id, List.mem_map_of_mem hnode, hdenote⟩
    exact fun node hnode => clean_of_subset hvalid.nodup hsubset _ (List.mem_map_of_mem hnode)
  · intro h id hid
    obtain ⟨node, hnode, rfl⟩ := List.mem_map.mp hid
    exact ⟨node, hnode, denote_clean (h node hnode)⟩

end Request

/-- **Quoting round-trips exactly for clean strings.**  For a request that is laid out, the text is
    read as it was meant, every string of nodes, edges, clusters and the focus as one string that is
    the original, and the worker finds every node, if and only if no id and no cluster that is drawn
    has a backslash or a control character. -/
theorem quoting_roundtrips {body : LayoutRequest} {selected : GraphClass} {policy : LayoutPolicy}
    {focusId : Option PyStr} {g : Engines} (lower : PyStr → PyStr) (inches : PyFloat → Decimal)
    (hvalid : validateGraph body.nodes body.edges = .ok ())
    (hpolicy : resolvePolicy body.graphClass body.nodes body.edges body.params =
      .ok (selected, policy, focusId)) (hlays : g.Lays) :
    (lex (canonicalDot lower inches body.nodes body.edges policy focusId) =
        some (lexemesOf (dotLines lower inches body.nodes body.edges policy focusId)) ∧
      ∃ positions, workerMain g (canonicalDot lower inches body.nodes body.edges policy focusId)
          (policy.engineFor body.nodes.length) (sortedBy id (body.nodes.map LayoutNode.id)) =
            .ok positions ∧
        positions.map Prod.fst = sortedBy id (body.nodes.map LayoutNode.id)) ↔
      CleanGraph policy body.nodes body.edges := by
  have hgraph := (validateGraph_ok hvalid).toWellFormed
  obtain ⟨hselected, hfocus⟩ := resolvePolicy_ok hpolicy
  rw [lex_canonicalDot hselected, Option.some.injEq, lexemesOf_denoted,
    written_clean_iff hgraph hselected hfocus, workerMain_ok_iff hgraph hselected hlays]
  exact ⟨fun h => h.1, fun h => ⟨h, h.ids⟩⟩

/-- Every node lies at the origin. -/
def origin : Engines where
  pos := fun _ _ _ => PyStr.lit "0,0"
  coordinate := fun _ => some 0

theorem origin_lays : origin.Lays := fun _ _ _ _ _ _ =>
  ⟨PyStr.lit "0", PyStr.lit "0", (by decide +kernel : parts (PyStr.lit "0,0") = _), rfl, rfl⟩

/-- A request that names a file of another system. -/
def backslashRequest : LayoutRequest where
  nodes := [smallNode "src\\main" "node"]
  edges := []

/-- The schema accepts it, and the worker does not find its node. -/
theorem backslash_not_found :
    backslashRequest.modelValidate = some backslashRequest ∧
      ∃ p, prepare smallRuntime backslashRequest = .ok p ∧
        p.nodeIds = [PyStr.lit "src\\main"] ∧
        (lex p.dot).map nodes = some [PyStr.lit "src\\\\main"] ∧
        ∀ positions, workerMain origin p.dot p.engine p.nodeIds ≠ .ok positions := by
  have hprepared : (prepare smallRuntime backslashRequest).toOption.map (fun p =>
      (p.nodeIds, (lex p.dot).map nodes,
        (workerMain origin p.dot p.engine p.nodeIds).toOption.isSome)) =
      some ([PyStr.lit "src\\main"], some [PyStr.lit "src\\\\main"], false) := by
    decide +kernel
  refine ⟨by decide +kernel, ?_⟩
  cases hp : prepare smallRuntime backslashRequest with
  | error e => rw [hp] at hprepared; cases hprepared
  | ok p =>
    rw [hp] at hprepared
    simp only [Except.toOption, Option.map_some, Option.some.injEq, Prod.mk.injEq] at hprepared
    obtain ⟨hids, hnodes, hfound⟩ := hprepared
    refine ⟨p, rfl, hids, hnodes, fun positions hok => ?_⟩
    rw [hok] at hfound
    cases hfound

/-- A plan with quotes, brackets and an arrow in its ids. -/
theorem quoting_roundtrips_quotes :
    lex (canonicalDot id (fun _ => ⟨false, 1, 0⟩) [smallNode "a\" -> [b];" "node"]
        [smallEdge "e \"1\"" "a\" -> [b];" "a\" -> [b];" "edge"] (policies .neighborhood) none) =
      some (lexemesOf (dotLines id (fun _ => ⟨false, 1, 0⟩) [smallNode "a\" -> [b];" "node"]
        [smallEdge "e \"1\"" "a\" -> [b];" "a\" -> [b];" "edge"] (policies .neighborhood) none)) := by
  have hiff := @quoting_roundtrips ⟨none, [smallNode "a\" -> [b];" "node"],
    [smallEdge "e \"1\"" "a\" -> [b];" "a\" -> [b];" "edge"], {}⟩ .neighborhood
    (policies .neighborhood) none _ id (fun _ => ⟨false, 1, 0⟩) (by rfl)
    (by rfl) origin_lays
  refine (hiff.mpr ⟨?_, ?_, ?_⟩).1 <;> decide +kernel

end ControlPlane.Layout
