/-
  CANONICAL DOT, `apps/layout/canonical.py`: the text that Graphviz reads and the cache key hashes.

  A line is a list of PIECES: text that the module writes itself, and strings of the request, which
  are written between quotes by `json.dumps`.  `canonicalDot` is the text of the pieces; what the
  lines are stays visible to the modules that read the text back.
-/
import ControlPlane.JsonText
import ControlPlane.Layout.Policy

namespace ControlPlane.Layout

open Sorting (sortedBy sortedSet)

/-! ## Pieces -/

inductive Piece where
  | plain (text : PyStr)
  | quoted (text : PyStr)
  deriving DecidableEq

/-- `_quote`. -/
def quote (value : PyStr) : PyStr := Json.canonical.quote value

def Piece.text : Piece → PyStr
  | .plain text => text
  | .quoted text => quote text

def Piece.lit (text : String) : Piece := .plain (PyStr.lit text)

/-- `"\n".join(lines) + "\n"`. -/
def render (lines : List (List Piece)) : PyStr :=
  lines.flatMap fun line => line.flatMap Piece.text ++ [0x0A]

/-- `", ".join(f"{key}={_quote(value)}" for key, value in sorted(attributes.items()))`. -/
def attributeList : List (PyStr × PyStr) → List Piece
  | [] => []
  | [(key, value)] => [.plain (key ++ PyStr.lit "="), .quoted value]
  | (key, value) :: rest =>
      [.plain (key ++ PyStr.lit "="), .quoted value, .lit ", "] ++ attributeList rest

def renderAttributes (attributes : List (PyStr × PyStr)) : List Piece :=
  attributeList (sortedBy Prod.fst attributes)

/-! ## Numbers -/

/-- `decimal.Decimal`, finite. -/
structure Decimal where
  negative : Bool
  coefficient : Nat
  exponent : Int
  deriving DecidableEq

/-- Trailing zeros of the coefficient move to the exponent; `fuel` counts the digits. -/
def Decimal.stripZeros : Nat → Nat → Int → Nat × Int
  | 0, coefficient, exponent => (coefficient, exponent)
  | fuel + 1, coefficient, exponent =>
      if coefficient % 10 = 0 then stripZeros fuel (coefficient / 10) (exponent + 1)
      else (coefficient, exponent)

/-- `decimal.normalize()`: the digits of a `repr` are fewer than the context's precision. -/
def Decimal.normalize (d : Decimal) : Decimal :=
  if d.coefficient = 0 then { d with exponent := 0 }
  else
    let (coefficient, exponent) :=
      stripZeros (Nat.toDigits 10 d.coefficient).length d.coefficient d.exponent
    { d with coefficient := coefficient, exponent := exponent }

/-- `format(decimal, "f")`. -/
def Decimal.fixed (d : Decimal) : PyStr :=
  let digits := PyStr.lit (toString d.coefficient)
  let sign := if d.negative then PyStr.lit "-" else []
  if 0 ≤ d.exponent then sign ++ digits ++ List.replicate d.exponent.toNat 0x30
  else
    let behind := (-d.exponent).toNat
    let padded := List.replicate (behind + 1 - digits.length) 0x30 ++ digits
    sign ++ padded.take (padded.length - behind) ++ [0x2E] ++ padded.drop (padded.length - behind)

/-- `_number`, of the decimal that `Decimal(str(value))` is. -/
def number (d : Decimal) : PyStr :=
  let rendered := d.normalize.fixed
  if rendered = PyStr.lit "-0" ∨ rendered = [] then PyStr.lit "0" else rendered

example : number ⟨false, 6666666666666666, -16⟩ = PyStr.lit "0.6666666666666666" := by
  decide +kernel

/-! ## Lines -/

section Lines

-- `str.lower`, and `Decimal(str(px / 72.0))`
variable (lower : PyStr → PyStr) (inches : PyFloat → Decimal)

/-- `_node_statement`. -/
def nodeStatement (node : LayoutNode) : List Piece :=
  [.quoted node.id, .lit " [fixedsize=true, height=", .quoted (number (inches node.hPx)),
    .lit ", label=", .quoted [], .lit ", shape=box, width=", .quoted (number (inches node.wPx)),
    .lit "];"]

/-- `kinds[id]`. -/
def kindOf (nodes : List LayoutNode) (id : PyStr) : PyStr :=
  ((nodes.find? fun n => n.id == id).map fun n => lower n.kind).getD []

def workKinds : List PyStr := [PyStr.lit "work", PyStr.lit "implementation"]

def verifyKinds : List PyStr := [PyStr.lit "verify", PyStr.lit "verification"]

/-- The group that an edge adds, the work node first. -/
def rankGroup (nodes : List LayoutNode) (edge : LayoutEdge) : Option (PyStr × PyStr) :=
  if edge.kind ≠ PyStr.lit "verifies" then none
  else
    let left := kindOf lower nodes edge.from_
    let right := kindOf lower nodes edge.to_
    if workKinds.contains left && verifyKinds.contains right then some (edge.from_, edge.to_)
    else if workKinds.contains right && verifyKinds.contains left then some (edge.to_, edge.from_)
    else none

/-- A pair compares as a tuple. -/
def pairKey (p : PyStr × PyStr) : List PyStr := [p.1, p.2]

/-- `_verification_rank_groups`. -/
def verificationRankGroups (nodes : List LayoutNode) (edges : List LayoutEdge) :
    List (PyStr × PyStr) :=
  sortedSet pairKey (edges.filterMap (rankGroup lower nodes))

/-- `graph_attrs`, with the root. -/
def graphAttributes (policy : LayoutPolicy) (focusId : Option PyStr) : List (PyStr × PyStr) :=
  match focusId with
  | some focus => policy.graphAttrs ++ [(PyStr.lit "root", focus)]
  | none => policy.graphAttrs

def graphLines (policy : LayoutPolicy) (focusId : Option PyStr) : List (List Piece) :=
  if (graphAttributes policy focusId).isEmpty then []
  else [[.lit "  graph ["] ++ renderAttributes (graphAttributes policy focusId) ++ [.lit "];"]]

/-- `clusters[cluster].append(node)`. -/
def appendTo (clusters : List (PyStr × List LayoutNode)) (cluster : PyStr) (node : LayoutNode) :
    List (PyStr × List LayoutNode) :=
  if (clusters.map Prod.fst).contains cluster then
    clusters.map fun c => if c.1 = cluster then (c.1, c.2 ++ [node]) else c
  else clusters ++ [(cluster, [node])]

/-- The cluster that counts: `node.cluster` when it is true. -/
def LayoutNode.clustered (node : LayoutNode) : Option PyStr :=
  node.cluster.filter fun cluster => !cluster.isEmpty

/-- `clusters`, in the order of their first nodes. -/
def clustersOf (nodes : List LayoutNode) : List (PyStr × List LayoutNode) :=
  nodes.foldl (fun clusters node =>
    match node.clustered with
    | some cluster => appendTo clusters cluster node
    | none => clusters) []

def clusterLines (cluster : PyStr × List LayoutNode) : List (List Piece) :=
  [[.lit "  subgraph ", .quoted (PyStr.lit "cluster_" ++ cluster.1), .lit " \x7b"]] ++
    (cluster.2.map fun node => .lit "    " :: nodeStatement inches node) ++ [[.lit "  \x7d"]]

/-- The lines of the clusters, then those of the other nodes. -/
def nodeLines (policy : LayoutPolicy) (sortedNodes : List LayoutNode) : List (List Piece) :=
  (if policy.clusterNodes then
    (sortedBy Prod.fst (clustersOf sortedNodes)).flatMap (clusterLines inches)
  else []) ++
    ((sortedNodes.filter fun node => !(policy.clusterNodes && node.clustered.isSome)).map fun node =>
      .lit "  " :: nodeStatement inches node)

/-- `(item.from_, item.to, item.id)`. -/
def LayoutEdge.sortKey (edge : LayoutEdge) : List PyStr := [edge.from_, edge.to_, edge.id]

def edgeAttributes (policy : LayoutPolicy) (edge : LayoutEdge) : List (PyStr × PyStr) :=
  [(PyStr.lit "id", edge.id), (PyStr.lit "label", [])] ++
    if policy.nonconstrainingEdgeKinds.contains edge.kind then
      [(PyStr.lit "constraint", PyStr.lit "false")]
    else []

def edgeLine (policy : LayoutPolicy) (edge : LayoutEdge) : List Piece :=
  [.lit "  ", .quoted edge.from_, .lit " -> ", .quoted edge.to_, .lit " ["] ++
    renderAttributes (edgeAttributes policy edge) ++ [.lit "];"]

def rankLine (group : PyStr × PyStr) : List Piece :=
  [.lit "  \x7b rank=same; ", .quoted group.1, .lit "; ", .quoted group.2, .lit "; \x7d"]

/-- The lines of `canonical_dot`. -/
def dotLines (nodes : List LayoutNode) (edges : List LayoutEdge) (policy : LayoutPolicy)
    (focusId : Option PyStr) : List (List Piece) :=
  [[.lit "strict digraph theorem_layout \x7b"]] ++ graphLines policy focusId ++
    nodeLines inches policy (sortedBy LayoutNode.id nodes) ++
    ((sortedBy LayoutEdge.sortKey edges).map (edgeLine policy)) ++
    (if policy.verifySiblingRanks then (verificationRankGroups lower nodes edges).map rankLine
      else []) ++ [[.lit "\x7d"]]

/-- `canonical_dot`. -/
def canonicalDot (nodes : List LayoutNode) (edges : List LayoutEdge) (policy : LayoutPolicy)
    (focusId : Option PyStr) : PyStr :=
  render (dotLines lower inches nodes edges policy focusId)

end Lines

/-! ## Validation -/

def maxLayoutNodes : Nat := 512

def maxLayoutEdges : Nat := 4096

/-- A length between 1 and 10000 pixels. -/
def inRange (px : PyFloat) : Bool := px.isfinite && (PyFloat.le 1 px && px.le 10000)

/-- `validate_graph`. -/
def validateGraph (nodes : List LayoutNode) (edges : List LayoutEdge) : Except LayoutError Unit :=
  if ¬ (1 ≤ nodes.length ∧ nodes.length ≤ maxLayoutNodes) then
    .error (.valueError "nodes must contain between 1 and 512 entries")
  else if maxLayoutEdges < edges.length then
    .error (.valueError "edges must contain at most 4096 entries")
  else if ¬ (nodes.map LayoutNode.id).Nodup then .error (.valueError "node ids must be unique")
  else if ¬ (edges.map LayoutEdge.id).Nodup then .error (.valueError "edge ids must be unique")
  else if nodes.any fun n => !(inRange n.wPx && inRange n.hPx) then
    .error (.valueError "node dimensions must be finite and in [1, 10000] px")
  else if edges.any fun e => !((nodes.map LayoutNode.id).contains e.from_ &&
      (nodes.map LayoutNode.id).contains e.to_) then
    .error (.valueError "every edge endpoint must identify a request node")
  else .ok ()

/-- What a graph that was accepted satisfies. -/
structure Valid (nodes : List LayoutNode) (edges : List LayoutEdge) : Prop extends
    WellFormed nodes edges where
  nonempty : nodes ≠ []
  edgeIds : (edges.map LayoutEdge.id).Nodup

variable {nodes : List LayoutNode} {edges : List LayoutEdge}

theorem validateGraph_ok (h : validateGraph nodes edges = .ok ()) : Valid nodes edges := by
  unfold validateGraph at h
  split at h
  · cases h
  rename_i hcount
  split at h
  · cases h
  split at h
  · cases h
  rename_i hnodes
  split at h
  · cases h
  rename_i hedges
  split at h
  · cases h
  split at h
  · cases h
  rename_i hends
  have hknown : ∀ e ∈ edges, e.from_ ∈ nodes.map LayoutNode.id ∧ e.to_ ∈ nodes.map LayoutNode.id := by
    intro e he
    by_contra hunknown
    refine hends (List.any_eq_true.mpr ⟨e, he, ?_⟩)
    rw [Bool.not_eq_true', Bool.and_eq_false_iff]
    rcases not_and_or.mp hunknown with hfrom | hto
    · exact Or.inl (by simpa using hfrom)
    · exact Or.inr (by simpa using hto)
  refine ⟨⟨not_not.mp hnodes, fun e he => (hknown e he).1, fun e he => (hknown e he).2⟩, ?_,
    not_not.mp hedges⟩
  rintro rfl
  exact hcount fun hpos => absurd hpos.1 (by decide)

/-- **`_is_dag` decides acyclicity** of every graph that was accepted: no path of one edge or more
    leads from a node back to it.  Parallel edges and loops are edges like any others. -/
theorem isDag_iff_acyclic (h : validateGraph nodes edges = .ok ()) :
    isDag nodes edges = true ↔ ∀ v, ¬ Relation.TransGen (Leads edges) v v := by
  have hvalid : WellFormed nodes edges := (validateGraph_ok h).toWellFormed
  rw [isDag_iff hvalid]
  refine Kahn.acc_iff_acyclic fun u v huv => ?_
  obtain ⟨e, he, rfl, rfl⟩ := huv
  exact ⟨hvalid.from_ e he, hvalid.to_ e he⟩

/-- Two nodes. -/
def twoNodes : List LayoutNode :=
  [{ id := PyStr.lit "a", wPx := 72, hPx := 72 }, { id := PyStr.lit "b", wPx := 72, hPx := 72 }]

/-- Two parallel edges between them. -/
def twoEdges : List LayoutEdge :=
  [{ id := PyStr.lit "1", from_ := PyStr.lit "a", to_ := PyStr.lit "b" },
    { id := PyStr.lit "2", from_ := PyStr.lit "a", to_ := PyStr.lit "b" }]

theorem isDag_iff_acyclic_parallel : isDag twoNodes twoEdges = true ∧
    ∀ v, ¬ Relation.TransGen (Leads twoEdges) v v :=
  have hdag : isDag twoNodes twoEdges = true := by decide +kernel
  ⟨hdag, (isDag_iff_acyclic (by decide +kernel)).mp hdag⟩

end ControlPlane.Layout
