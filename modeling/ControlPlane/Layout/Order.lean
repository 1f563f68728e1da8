/-
  ORDER INDEPENDENCE: does a layout depend on the order of the nodes and edges of its request?

  No.  Whatever reads the lists reads their lengths, the sets of their members, or the lists sorted
  by keys that are distinct on a valid graph: node ids, and edges by their ends and ids.
  Classification looks for cycles, and whether there are any is a matter of the edges as a set
  (`isDag_iff`).  Hence everything that `compute_layout` prepares is the same
  (`order_independent`), and so is the response.
-/
import ControlPlane.Layout.Service

namespace ControlPlane.Layout

open Sorting (sortedBy sortedSet)

variable {nodes nodes' : List LayoutNode} {edges edges' : List LayoutEdge}
  (hnodes : nodes.Perm nodes') (hedges : edges.Perm edges')

include hnodes in
theorem ids_perm : (nodes.map LayoutNode.id).Perm (nodes'.map LayoutNode.id) := hnodes.map _

include hnodes in
theorem contains_ids (id : PyStr) :
    (nodes.map LayoutNode.id).contains id = (nodes'.map LayoutNode.id).contains id := by
  rw [Bool.eq_iff_iff, List.contains_iff_mem, List.contains_iff_mem]
  exact (ids_perm hnodes).mem_iff

include hnodes hedges

/-- The same graph is refused with the same message. -/
theorem validateGraph_perm : validateGraph nodes edges = validateGraph nodes' edges' := by
  unfold validateGraph
  simp only [contains_ids hnodes, hnodes.length_eq, hedges.length_eq, (hnodes.map _).nodup_iff,
    (hedges.map _).nodup_iff, hnodes.any_eq, hedges.any_eq]

theorem wellFormed_perm (h : WellFormed nodes edges) : WellFormed nodes' edges' :=
  ⟨(ids_perm hnodes).nodup_iff.mp h.nodup,
    fun e he => (ids_perm hnodes).mem_iff.mp (h.from_ e (hedges.mem_iff.mpr he)),
    fun e he => (ids_perm hnodes).mem_iff.mp (h.to_ e (hedges.mem_iff.mpr he))⟩

theorem isDag_perm (h : WellFormed nodes edges) : isDag nodes edges = isDag nodes' edges' := by
  have hleads : Leads edges = Leads edges' := by
    funext u v
    simp only [Leads, hedges.mem_iff]
  rw [Bool.eq_iff_iff, isDag_iff h, isDag_iff (wellFormed_perm hnodes hedges h), hleads]
  simp only [(ids_perm hnodes).mem_iff]

theorem classifyGraph_perm (h : WellFormed nodes edges) :
    classifyGraph nodes edges = classifyGraph nodes' edges' := by
  have hempty : edges.isEmpty = edges'.isEmpty := by
    rw [Bool.eq_iff_iff, List.isEmpty_iff_length_eq_zero, List.isEmpty_iff_length_eq_zero,
      hedges.length_eq]
  unfold classifyGraph
  rw [hempty, hedges.all_eq, isDag_perm hnodes hedges h, hnodes.length_eq, hedges.length_eq]

omit hedges in
theorem focusOrLeast_perm (focusId : Option PyStr) :
    focusOrLeast focusId nodes = focusOrLeast focusId nodes' := by
  have hleast : (nodes.map LayoutNode.id).min? = (nodes'.map LayoutNode.id).min? := by
    ext least
    rw [List.min?_eq_some_iff, List.min?_eq_some_iff]
    simp only [(ids_perm hnodes).mem_iff]
  unfold focusOrLeast
  rw [hleast]

theorem resolvePolicy_perm (h : WellFormed nodes edges) (graphClass : Option GraphClass)
    (params : LayoutParams) :
    resolvePolicy graphClass nodes edges params = resolvePolicy graphClass nodes' edges' params := by
  unfold resolvePolicy
  simp only [classifyGraph_perm hnodes hedges h, focusOrLeast_perm hnodes, contains_ids hnodes]

/-! ## The DOT text -/

omit hnodes hedges in
/-- Among distinct ids an id finds its node. -/
theorem find?_id (h : (nodes.map LayoutNode.id).Nodup) {id : PyStr} {node : LayoutNode} :
    (nodes.find? fun n => n.id == id) = some node ↔ node ∈ nodes ∧ node.id = id := by
  constructor
  · intro hfind
    exact ⟨List.mem_of_find?_eq_some hfind, by simpa using List.find?_some hfind⟩
  · rintro ⟨hmem, rfl⟩
    cases hfind : nodes.find? fun n => n.id == node.id with
    | none => exact absurd (beq_self_eq_true _) (List.find?_eq_none.mp hfind node hmem)
    | some found =>
      have hid : found.id = node.id := by simpa using List.find?_some hfind
      rw [List.inj_on_of_nodup_map h (List.mem_of_find?_eq_some hfind) hmem hid]

omit hedges in
theorem kindOf_perm (lower : PyStr → PyStr) (h : (nodes.map LayoutNode.id).Nodup) (id : PyStr) :
    kindOf lower nodes id = kindOf lower nodes' id := by
  have hfind : (nodes.find? fun n => n.id == id) = nodes'.find? fun n => n.id == id := by
    ext node
    rw [find?_id h, find?_id ((ids_perm hnodes).nodup_iff.mp h), hnodes.mem_iff]
  rw [kindOf, hfind, kindOf]

omit hnodes hedges in
theorem pairKey_injective : Function.Injective pairKey := by
  rintro ⟨a, b⟩ ⟨c, d⟩ h
  simpa [pairKey] using h

theorem verificationRankGroups_perm (lower : PyStr → PyStr)
    (h : (nodes.map LayoutNode.id).Nodup) :
    verificationRankGroups lower nodes edges = verificationRankGroups lower nodes' edges' := by
  have hgroup : rankGroup lower nodes = rankGroup lower nodes' := by
    funext edge
    simp only [rankGroup, kindOf_perm hnodes lower h]
  rw [verificationRankGroups, hgroup, verificationRankGroups]
  exact Sorting.sortedSet_eq_of_mem pairKey_injective fun _ => (hedges.filterMap _).mem_iff

omit hnodes hedges in
/-- Edges with distinct ids have distinct sort keys. -/
theorem sortKey_nodup (h : (edges.map LayoutEdge.id).Nodup) :
    (edges.map LayoutEdge.sortKey).Nodup := by
  have hid : edges.map LayoutEdge.id = (edges.map LayoutEdge.sortKey).map fun k => k.getD 2 [] := by
    rw [List.map_map]
    rfl
  rw [hid] at h
  exact h.of_map _

theorem canonicalDot_perm (lower : PyStr → PyStr) (inches : PyFloat → Decimal)
    (h : Valid nodes edges) (policy : LayoutPolicy) (focusId : Option PyStr) :
    canonicalDot lower inches nodes edges policy focusId =
      canonicalDot lower inches nodes' edges' policy focusId := by
  rw [canonicalDot, canonicalDot, dotLines, dotLines,
    Sorting.sortedBy_eq_of_perm hnodes h.nodup,
    Sorting.sortedBy_eq_of_perm hedges (sortKey_nodup h.edgeIds),
    verificationRankGroups_perm hnodes hedges lower h.nodup]

omit hedges in
theorem sortedIds_perm (h : (nodes.map LayoutNode.id).Nodup) :
    sortedBy id (nodes.map LayoutNode.id) = sortedBy id (nodes'.map LayoutNode.id) :=
  Sorting.sortedBy_eq_of_perm (ids_perm hnodes) (by rwa [List.map_id])

/-! ## The response -/

/-- **Order independence.**  Requests that differ in the order of their nodes and of their edges are
    refused with the same error, or are prepared to the same policy, focus, engine, DOT text and
    digest; and the layouts computed for them are the same bytes. -/
theorem order_independent (r : Runtime) (graphClass : Option GraphClass) (params : LayoutParams) :
    prepare r ⟨graphClass, nodes, edges, params⟩ = prepare r ⟨graphClass, nodes', edges', params⟩ ∧
      uncached r ⟨graphClass, nodes, edges, params⟩ =
        uncached r ⟨graphClass, nodes', edges', params⟩ := by
  have hprepare : prepare r ⟨graphClass, nodes, edges, params⟩ =
      prepare r ⟨graphClass, nodes', edges', params⟩ := by
    cases hvalid : validateGraph nodes edges with
    | error e =>
      have hvalid' := hvalid
      rw [validateGraph_perm hnodes hedges] at hvalid'
      simp only [prepare, hvalid, hvalid']
      rfl
    | ok accepted =>
      have hgraph := validateGraph_ok hvalid
      have hvalid' := hvalid
      rw [validateGraph_perm hnodes hedges] at hvalid'
      simp only [prepare, hvalid, hvalid', resolvePolicy_perm hnodes hedges hgraph.toWellFormed,
        canonicalDot_perm hnodes hedges r.lower r.inches hgraph, hnodes.length_eq,
        sortedIds_perm hnodes hgraph.nodup]
  exact ⟨hprepare, by rw [uncached, uncached, hprepare]⟩

omit hnodes hedges in
/-- A plan of two nodes, and its reversal. -/
theorem order_independent_reversed :
    ∃ encoded, uncached smallRuntime ⟨some .planDag, [smallNode "W01" "work",
        smallNode "V01" "verify"], [smallEdge "e01" "V01" "W01" "verifies",
        smallEdge "e02" "W01" "V01" "dependency"], {}⟩ = .ok encoded ∧
      uncached smallRuntime ⟨some .planDag, [smallNode "V01" "verify", smallNode "W01" "work"],
        [smallEdge "e02" "W01" "V01" "dependency", smallEdge "e01" "V01" "W01" "verifies"], {}⟩ =
          .ok encoded := by
  have hsome : (uncached smallRuntime ⟨some .planDag, [smallNode "W01" "work",
      smallNode "V01" "verify"], [smallEdge "e01" "V01" "W01" "verifies",
      smallEdge "e02" "W01" "V01" "dependency"], {}⟩).toOption.isSome = true := by
    decide +kernel
  have hsame := (order_independent (.swap (smallNode "V01" "verify") (smallNode "W01" "work") [])
    (.swap (smallEdge "e02" "W01" "V01" "dependency") (smallEdge "e01" "V01" "W01" "verifies") [])
    smallRuntime (some .planDag) {}).2
  rw [← hsame]
  cases hlayout : uncached smallRuntime ⟨some .planDag, [smallNode "W01" "work",
      smallNode "V01" "verify"], [smallEdge "e01" "V01" "W01" "verifies",
      smallEdge "e02" "W01" "V01" "dependency"], {}⟩ with
  | error e => rw [hlayout] at hsome; cases hsome
  | ok encoded => exact ⟨encoded, rfl, rfl⟩

end ControlPlane.Layout
