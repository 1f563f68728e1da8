/-
  ONE LAYOUT, `apps/layout/service.py`, without its cache and its clock.

  `prepare` is what `compute_layout` does before it looks into the cache: the request is validated,
  its policy resolved, the DOT text written and hashed.  `respond` is what it does on a miss.  The
  isolated Graphviz worker is a parameter, a function of its input.
-/
import ControlPlane.JsonWrite
import ControlPlane.Layout.Canonical

namespace ControlPlane.Layout

open Sorting (sortedBy)

/-- `{"x": …, "y": …}`. -/
structure Position where
  x : PyFloat
  y : PyFloat

/-- What the service runs on. -/
structure Runtime where
  /-- `str.lower`. -/
  lower : PyStr → PyStr
  /-- `Decimal(str(px / 72.0))`. -/
  inches : PyFloat → Decimal
  /-- `float.__repr__`. -/
  repr : PyFloat → PyStr
  /-- `graphviz_version()`. -/
  version : PyStr
  /-- `hashlib.sha256(payload).hexdigest()`. -/
  hexdigest : List UInt8 → PyStr
  /-- The worker process, from the DOT text, the engine and the node ids to its positions. -/
  graphviz : PyStr → PyStr → List PyStr → Except LayoutError (List (PyStr × Position))

variable (r : Runtime)

/-! ## The digest -/

/-- `policy_params`. -/
def policyParams (graphClass : GraphClass) (policy : LayoutPolicy) (focusId : Option PyStr) : Json :=
  .obj [(PyStr.lit "graph_class", .str graphClass.name),
    (PyStr.lit "graph_attrs", .obj (policy.graphAttrs.map fun a => (a.1, .str a.2))),
    (PyStr.lit "focus_id", (focusId.map Json.str).getD .null)]

/-- What is hashed: `"\0".join((dot, engine, canonical_params, version))`. -/
def digestText (dot engine : PyStr) (params : Json) (version : PyStr) : PyStr :=
  Readable.join [0x00] [dot, engine, Json.dumps r.repr params, version]

/-- `_digest_input`. -/
def digestInput (dot engine : PyStr) (params : Json) (version : PyStr) : Except LayoutError PyStr :=
  match (digestText r dot engine params version).encode with
  | none => .error .unicodeEncodeError
  | some payload => .ok (r.hexdigest payload)

/-! ## A layout -/

/-- What `compute_layout` knows when it looks into the cache. -/
structure Prepared where
  graphClass : GraphClass
  policy : LayoutPolicy
  focusId : Option PyStr
  engine : PyStr
  dot : PyStr
  digestHex : PyStr
  /-- `sorted(node.id for node in body.nodes)`. -/
  nodeIds : List PyStr

/-- `compute_layout` up to the cache. -/
def prepare (body : LayoutRequest) : Except LayoutError Prepared := do
  validateGraph body.nodes body.edges
  let (graphClass, policy, focusId) ←
    resolvePolicy body.graphClass body.nodes body.edges body.params
  let engine := policy.engineFor body.nodes.length
  let dot := canonicalDot r.lower r.inches body.nodes body.edges policy focusId
  let digestHex ← digestInput r dot engine (policyParams graphClass policy focusId) r.version
  return {
    graphClass := graphClass
    policy := policy
    focusId := focusId
    engine := engine
    dot := dot
    digestHex := digestHex
    nodeIds := sortedBy id (body.nodes.map LayoutNode.id) }

/-- `_execute_worker`, when the process ends in time. -/
def executeWorker (dot engine : PyStr) (nodeIds : List PyStr) :
    Except LayoutError (List (PyStr × Position)) := do
  let positions ← r.graphviz dot engine nodeIds
  if sortedBy id (positions.map Prod.fst) = sortedBy id nodeIds then return positions
  else throw (.execution (PyStr.lit "Graphviz worker returned an incomplete position set"))

def positionJson (p : PyStr × Position) : Json :=
  .obj [(PyStr.lit "id", .str p.1), (PyStr.lit "x_px", .float p.2.x),
    (PyStr.lit "y_px", .float p.2.y)]

/-- `LayoutResponse`. -/
def response (p : Prepared) (positions : List (PyStr × Position)) : Json :=
  .obj [(PyStr.lit "contract", .str (PyStr.lit "theorem.layout.v1")),
    (PyStr.lit "positions", .arr ((sortedBy Prod.fst positions).map positionJson)),
    (PyStr.lit "engine", .str p.engine),
    (PyStr.lit "graphviz_version", .str r.version),
    (PyStr.lit "policy_id", .str p.graphClass.name),
    (PyStr.lit "input_digest", .str (PyStr.lit "sha256:" ++ p.digestHex))]

def maxLayoutResponseBytes : Nat := 2 * 1024 * 1024

/-- `_enforce_response_budget`. -/
def enforceResponseBudget (encoded : List UInt8) : Except LayoutError (List UInt8) :=
  if maxLayoutResponseBytes < encoded.length then .error .tooLarge else .ok encoded

/-- `compute_layout` behind a miss. -/
def respond (p : Prepared) : Except LayoutError (List UInt8) := do
  let positions ← executeWorker r p.dot p.engine p.nodeIds
  match Json.canonicalJson r.repr (response r p positions) with
  | none => .error .unicodeEncodeError
  | some encoded => enforceResponseBudget encoded

/-- The layout of a request, computed anew. -/
def uncached (body : LayoutRequest) : Except LayoutError (List UInt8) := do
  let p ← prepare r body
  respond r p

/-! ## A small deployment -/

/-- Two hexadecimal digits for every byte. -/
def hexOf (payload : List UInt8) : PyStr :=
  payload.flatMap fun b => [Json.hexDigit (b.toNat / 16), Json.hexDigit (b.toNat % 16)]

/-- Every node lies at the origin, and the digest is the payload itself. -/
def smallRuntime : Runtime where
  lower := id
  inches := fun _ => ⟨false, 1, 0⟩
  repr := fun _ => PyStr.lit "0.0"
  version := PyStr.lit "13.1.0"
  hexdigest := hexOf
  graphviz := fun _ _ nodeIds => .ok (nodeIds.map fun id => (id, ⟨0, 0⟩))

def smallNode (id kind : String) : LayoutNode where
  id := PyStr.lit id
  wPx := 72
  hPx := 72
  kind := PyStr.lit kind

def smallEdge (id from_ to_ kind : String) : LayoutEdge where
  id := PyStr.lit id
  from_ := PyStr.lit from_
  to_ := PyStr.lit to_
  kind := PyStr.lit kind

end ControlPlane.Layout
