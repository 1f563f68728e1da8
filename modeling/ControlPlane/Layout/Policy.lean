/-
  LAYOUT REQUESTS, `apps/layout/contracts.py`, and the engine POLICY, `apps/layout/policy.py`.

  A request names nodes and edges.  Its graph class selects a policy, and where it names none,
  `classifyGraph` finds one from the structure of the graph.  Whether a graph is free of cycles is
  decided by Kahn's algorithm; on a graph whose ids are in order the answer depends on the sets of
  nodes and edges only (`isDag_iff`).

  The texts are code points, floats are exact, and `str.lower` is a parameter of the modules above.
-/
import ControlPlane.Kahn
import ControlPlane.PyFloat
import ControlPlane.PyStr
import ControlPlane.Sorting

namespace ControlPlane.Layout

open Sorting (sortedBy)

/-! ## Requests -/

/-- `GraphClass`. -/
inductive GraphClass where
  | planDag
  | derivation
  | queryPlan
  | codeMapSmall
  | codeMapLarge
  | neighborhood
  | egoRadial
  | cyclicRing
  | containment
  deriving DecidableEq, Repr

def GraphClass.name : GraphClass → PyStr
  | .planDag => PyStr.lit "plan_dag"
  | .derivation => PyStr.lit "derivation"
  | .queryPlan => PyStr.lit "query_plan"
  | .codeMapSmall => PyStr.lit "code_map_small"
  | .codeMapLarge => PyStr.lit "code_map_large"
  | .neighborhood => PyStr.lit "neighborhood"
  | .egoRadial => PyStr.lit "ego_radial"
  | .cyclicRing => PyStr.lit "cyclic_ring"
  | .containment => PyStr.lit "containment"

/-- `LayoutNode`. -/
structure LayoutNode where
  id : PyStr
  wPx : PyFloat
  hPx : PyFloat
  kind : PyStr := PyStr.lit "node"
  cluster : Option PyStr := none
  deriving DecidableEq

/-- `LayoutEdge`. -/
structure LayoutEdge where
  id : PyStr
  from_ : PyStr
  to_ : PyStr
  kind : PyStr := PyStr.lit "edge"
  deriving DecidableEq

/-- `LayoutParams`. -/
structure LayoutParams where
  focusId : Option PyStr := none
  deriving DecidableEq

/-- `LayoutRequest`. -/
structure LayoutRequest where
  graphClass : Option GraphClass := none
  nodes : List LayoutNode
  edges : List LayoutEdge
  params : LayoutParams := {}
  deriving DecidableEq

/-- `non_empty_identifier`; `none` is a validation error. -/
def nonEmptyIdentifier (value : PyStr) : Option PyStr :=
  if value.strip.isEmpty then none else some value.strip

def LayoutNode.modelValidate (node : LayoutNode) : Option LayoutNode := do
  let id ← nonEmptyIdentifier node.id
  let kind ← nonEmptyIdentifier node.kind
  pure { node with id := id, kind := kind }

def LayoutEdge.modelValidate (edge : LayoutEdge) : Option LayoutEdge := do
  let id ← nonEmptyIdentifier edge.id
  let from_ ← nonEmptyIdentifier edge.from_
  let to_ ← nonEmptyIdentifier edge.to_
  let kind ← nonEmptyIdentifier edge.kind
  pure { id := id, from_ := from_, to_ := to_, kind := kind }

/-- `LayoutRequest.model_validate`, of a body whose fields have their types. -/
def LayoutRequest.modelValidate (body : LayoutRequest) : Option LayoutRequest := do
  let nodes ← body.nodes.mapM LayoutNode.modelValidate
  let edges ← body.edges.mapM LayoutEdge.modelValidate
  pure { body with nodes := nodes, edges := edges }

/-- What a layout is refused with. -/
inductive LayoutError where
  | valueError (message : String)
  | unicodeEncodeError
  /-- `LayoutExecutionError`. -/
  | execution (detail : PyStr)
  /-- `LayoutExecutionTimeout`. -/
  | timeout (detail : String)
  /-- `LayoutResponseTooLarge`. -/
  | tooLarge
  deriving DecidableEq

/-! ## Policies -/

/-- `LayoutPolicy`. -/
structure LayoutPolicy where
  engine : PyStr
  graphAttrs : List (PyStr × PyStr) := []
  largeEngine : Option PyStr := none
  largeNodeThreshold : Option Nat := none
  verifySiblingRanks : Bool := false
  clusterNodes : Bool := false
  focusRoot : Bool := false
  nonconstrainingEdgeKinds : List PyStr := []
  deriving DecidableEq

/-- `engine_for`. -/
def LayoutPolicy.engineFor (policy : LayoutPolicy) (nodeCount : Nat) : PyStr :=
  match policy.largeEngine, policy.largeNodeThreshold with
  | some engine, some threshold => if threshold ≤ nodeCount then engine else policy.engine
  | _, _ => policy.engine

def attrs (values : List (String × String)) : List (PyStr × PyStr) :=
  values.map fun v => (PyStr.lit v.1, PyStr.lit v.2)

/-- `POLICIES`. -/
def policies : GraphClass → LayoutPolicy
  | .planDag =>
      { engine := PyStr.lit "dot"
        graphAttrs := attrs [("rankdir", "LR"), ("ranksep", "0.75"), ("nodesep", "0.35")]
        verifySiblingRanks := true
        nonconstrainingEdgeKinds := [PyStr.lit "verifies"] }
  | .derivation => { engine := PyStr.lit "dot", graphAttrs := attrs [("rankdir", "LR")] }
  | .queryPlan => { engine := PyStr.lit "dot", graphAttrs := attrs [("rankdir", "LR")] }
  | .codeMapSmall => { engine := PyStr.lit "dot", graphAttrs := attrs [("rankdir", "TB")] }
  | .codeMapLarge => { engine := PyStr.lit "sfdp", graphAttrs := attrs [("overlap", "prism")] }
  | .neighborhood =>
      { engine := PyStr.lit "neato"
        graphAttrs := attrs [("overlap", "false")]
        largeEngine := some (PyStr.lit "sfdp")
        largeNodeThreshold := some 200 }
  | .egoRadial => { engine := PyStr.lit "twopi", focusRoot := true }
  | .cyclicRing => { engine := PyStr.lit "circo" }
  | .containment => { engine := PyStr.lit "osage", clusterNodes := true }

def denseNodeThreshold : Nat := 200

def denseEdgeFactor : Nat := 2

/-- `CONTAINMENT_EDGE_KINDS`. -/
def containmentEdgeKinds : List PyStr := [PyStr.lit "contains", PyStr.lit "containment"]

/-! ## Classification -/

/-- The targets of the edges out of a node, in the order of the edges. -/
def outgoing (edges : List LayoutEdge) (id : PyStr) : List PyStr :=
  (edges.filter fun e => e.from_ == id).map LayoutEdge.to_

/-- How many edges come into a node. -/
def indegree (edges : List LayoutEdge) (id : PyStr) : Int := edges.countP fun e => e.to_ == id

/-- `_is_dag`. -/
def isDag (nodes : List LayoutNode) (edges : List LayoutEdge) : Bool :=
  if edges.any fun e => e.from_ == e.to_ then false
  else
    let ids := nodes.map LayoutNode.id
    let queue := sortedBy id (ids.filter fun v => indegree edges v = 0)
    Kahn.drain (fun v => sortedBy id (outgoing edges v)) ids.length (indegree edges) queue 0 ==
      nodes.length

/-- `classify_graph`. -/
def classifyGraph (nodes : List LayoutNode) (edges : List LayoutEdge) : GraphClass :=
  if !edges.isEmpty && edges.all fun e => containmentEdgeKinds.contains e.kind then .containment
  else if isDag nodes edges then .derivation
  else if denseNodeThreshold ≤ nodes.length ∧ denseEdgeFactor * nodes.length ≤ edges.length then
    .codeMapLarge
  else .neighborhood

/-! ## Acyclic graphs -/

/-- The ids of the nodes are distinct and every edge joins two of them. -/
structure WellFormed (nodes : List LayoutNode) (edges : List LayoutEdge) : Prop where
  nodup : (nodes.map LayoutNode.id).Nodup
  from_ : ∀ e ∈ edges, e.from_ ∈ nodes.map LayoutNode.id
  to_ : ∀ e ∈ edges, e.to_ ∈ nodes.map LayoutNode.id

/-- Some edge leads from `u` to `v`. -/
def Leads (edges : List LayoutEdge) (u v : PyStr) : Prop :=
  ∃ e ∈ edges, e.from_ = u ∧ e.to_ = v

variable {nodes : List LayoutNode} {edges : List LayoutEdge}

theorem mem_outgoing {u v : PyStr} : v ∈ outgoing edges u ↔ Leads edges u v := by
  simp [outgoing, Leads, and_assoc]

theorem count_outgoing_cons (e : LayoutEdge) (edges : List LayoutEdge) (u v : PyStr) :
    ((outgoing (e :: edges) u).countP fun w => decide (w = v)) =
      ((outgoing edges u).countP fun w => decide (w = v)) +
        if e.from_ = u ∧ e.to_ = v then 1 else 0 := by
  rw [outgoing, outgoing, List.filter_cons]
  by_cases hu : e.from_ = u
  · by_cases hv : e.to_ = v <;> simp [hu, hv]
  · simp [hu]

theorem sum_indicator {ids : List PyStr} {u : PyStr} (hids : ids.Nodup) (hu : u ∈ ids) (p : Prop)
    [Decidable p] : (ids.map fun w => if u = w ∧ p then 1 else 0).sum = if p then 1 else 0 := by
  by_cases hp : p
  · have hcount : (ids.map fun w => if u = w ∧ p then 1 else 0).sum = ids.count u := by
      clear hids hu
      induction ids with
      | nil => rfl
      | cons w ids ih =>
        rw [List.map_cons, List.sum_cons, ih, List.count_cons]
        rcases eq_or_ne w u with rfl | hne
        · simp [hp, add_comm]
        · simp [hne, hne.symm]
    rw [hcount, if_pos hp, List.count_eq_one_of_mem hids hu]
  · simp [hp]

/-- Edge by edge, the edges into a node are the edges out of all nodes that lead to it. -/
theorem indegree_eq_left {ids : List PyStr} (hids : ids.Nodup)
    (hfrom : ∀ e ∈ edges, e.from_ ∈ ids) (v : PyStr) :
    indegree edges v = Kahn.left ids (fun u => sortedBy id (outgoing edges u)) [] v := by
  have hcount : ∀ u, ((sortedBy id (outgoing edges u)).countP fun w => decide (w = v)) =
      (outgoing edges u).countP fun w => decide (w = v) :=
    fun u => (Sorting.sortedBy_perm id _).countP_eq _
  rw [Kahn.left_nil]
  simp only [hcount]
  clear hcount
  induction edges with
  | nil => simp [indegree, outgoing]
  | cons e edges ih =>
    rw [List.forall_mem_cons] at hfrom
    simp only [count_outgoing_cons, List.sum_map_add, sum_indicator hids hfrom.1]
    rw [Nat.cast_add, ← ih hfrom.2, indegree, indegree, List.countP_cons]
    by_cases hv : e.to_ = v <;> simp [hv]

/-- **On a well-formed graph `_is_dag` finds the cycles**: it accepts exactly when no node lies
    behind one. -/
theorem isDag_iff (h : WellFormed nodes edges) :
    isDag nodes edges = true ↔ ∀ v ∈ nodes.map LayoutNode.id, Acc (Leads edges) v := by
  unfold isDag
  split
  · rename_i hloop
    obtain ⟨e, he, heq⟩ := List.any_eq_true.mp hloop
    have hself : e.from_ = e.to_ := beq_iff_eq.mp heq
    refine iff_of_false (nomatch ·) fun hacc => ?_
    exact Kahn.not_acc_of_loop ⟨e, he, rfl, hself.symm⟩ (hacc e.from_ (h.from_ e he))
  · have hedge : Kahn.Edge (fun u => sortedBy id (outgoing edges u)) = Leads edges := by
      funext u v
      rw [Kahn.Edge, Sorting.mem_sortedBy, mem_outgoing]
    have hout : ∀ u v, v ∈ sortedBy id (outgoing edges u) →
        u ∈ nodes.map LayoutNode.id ∧ v ∈ nodes.map LayoutNode.id := by
      intro u v hv
      obtain ⟨e, he, rfl, rfl⟩ := mem_outgoing.mp (Sorting.mem_sortedBy.mp hv)
      exact ⟨h.from_ e he, h.to_ e he⟩
    have hdrain := Kahn.drain_all_iff h.nodup hout (indegree_eq_left h.nodup h.from_)
      (Sorting.sortedBy_perm id _)
    rw [hedge] at hdrain
    rw [← hdrain, beq_iff_eq, List.length_map]

/-! ## The policy -/

/-- `focus_id or min(node.id for node in nodes)`. -/
def focusOrLeast (focusId : Option PyStr) (nodes : List LayoutNode) : Except LayoutError PyStr :=
  match focusId with
  | some (c :: focus) => .ok (c :: focus)
  | _ => match (nodes.map LayoutNode.id).min? with
    | some least => .ok least
    | none => .error (.valueError "min() iterable argument is empty")

/-- `resolve_policy`. -/
def resolvePolicy (graphClass : Option GraphClass) (nodes : List LayoutNode)
    (edges : List LayoutEdge) (params : LayoutParams) :
    Except LayoutError (GraphClass × LayoutPolicy × Option PyStr) :=
  let selected := graphClass.getD (classifyGraph nodes edges)
  let policy := policies selected
  if policy.focusRoot then
    match focusOrLeast params.focusId nodes with
    | .error e => .error e
    | .ok focus =>
        if (nodes.map LayoutNode.id).contains focus then .ok (selected, policy, some focus)
        else .error (.valueError "params.focus_id must identify a request node")
  else if params.focusId.isSome then
    .error (.valueError "params.focus_id is only valid for ego_radial")
  else .ok (selected, policy, none)

end ControlPlane.Layout
