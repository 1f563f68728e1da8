/-
  DOCUMENT ADMISSION: the eight stages of `AdmissionPipeline` in
  `apps/extraction/services/capture_admission.py`.

  A stage is a list of STEPS, and a step is what happens between two points at which something outside
  can fail: an external call, or a save.  Every external call is a function of its arguments (`Calls`),
  so a step that needs the result of an earlier call asks again.  A step that raises by itself is
  `none`.  A document is stored as its dictionary, which is read back as the tree it was made from
  (`fromDict_toDict`); the receipts of `observe_execution` are named after their executors.
-/
import ControlPlane.Documents.Decompose
import ControlPlane.Documents.Runs

namespace ControlPlane.Documents

open PyStr

/-! ## What the stages pass on -/

/-- A field of a type's schema, with `field_type.kind`. -/
structure Field where
  key : PyStr
  fieldKind : Option PyStr

/-- `effective_fields`. -/
structure Schema where
  fields : List Field
  deriveClaims : Bool

/-- What `extract_fields` tried: the field, and the byte at which its span starts. -/
structure FieldAttempt where
  field : PyStr
  byteStart : Option Int

/-- What `extract_fields` returns. -/
structure Record where
  attempts : List FieldAttempt
  properties : List (PyStr × PyValue)

/-- A claim in the state: `to_dict`, and what later stages add. -/
structure StoredClaim where
  claim : Claim
  temporal : Option Temporal := none
  tenantId : Option PyStr := none
  exclusivePredicate : Option Bool := none

/-- The `state` of a run, which is its `output`; a key that was not assigned is `none`. -/
structure Output where
  schema : Option (List (PyStr × Schema)) := none
  observedAt : Option PyStr := none
  document : Option DocElementTree := none
  spans : Option (List ExtractedSpan) := none
  classifications : Option PyValue := none
  records : Option (List (PyStr × Record)) := none
  claims : Option (List StoredClaim) := none
  entities : Option (List Entity) := none
  score : Option PyValue := none
  pendingRelations : Option (List PyValue) := none
  publication : Option PyValue := none
  executorRuns : List PyStr := []

/-- What a parser returns. -/
structure Parsed where
  tree : DocElementTree
  receipt : PyValue
  sourceSha256 : PyStr
  metadata : List (PyStr × PyValue)

/-- The keys that `score_document` reads. -/
structure ScoreView where
  observedAt : Option PyStr
  schema : Option (List (PyStr × Schema))
  records : Option (List (PyStr × Record))
  claims : Option (List StoredClaim)

/-- The arguments of `publish`. -/
structure Publication where
  document : DocElementTree
  claims : List StoredClaim
  entities : List Entity
  pendingRelations : List PyValue
  layers : PyValue
  observedAt : PyStr

/-- A field that `_distill` places: the element that it was found in, and its value. -/
structure PlacedField where
  name : PyStr
  elementId : PyStr
  value : PyValue

/-- The artifact of a run, its declared types, and everything that the stages call; `decomposer` is the
    one that the pipeline was built with, if any. -/
structure Calls where
  slug : PyStr
  isActive : Bool
  sourceSha256 : PyStr
  objectTypes : List PyStr
  effectiveFields : PyStr → Option Schema
  sourceTime : List (PyStr × PyValue) → Option PyStr
  parse : Option Parsed
  extract : DocElementTree → Option (List ExtractedSpan × PyValue)
  extractFields : PyStr → DocElementTree → List GlobalSpan → PyStr → Option Record
  decomposer : Option (DocElementTree → List Entity → List PyStr → Option Decomposition)
  language : Language
  linkOrPend : ExtractedSpan → Option Link
  score : ScoreView → Option PyValue
  temporalProperties : PyStr → Option Temporal
  cutoff : Option PyFloat
  miniCheck : List PyStr → List PyStr → Except Failure (List PyFloat)
  buildLayers : DocElementTree → List PlacedField → List StoredClaim → List Entity → Option PyValue
  publish : Publication → Option PyValue

/-- `self.decomposer.decompose`, with the one that was given or made. -/
def Calls.decompose (x : Calls) (tree : DocElementTree) (entities : List Entity)
    (declaredPredicates : List PyStr) : Option Decomposition :=
  match x.decomposer with
  | some decompose => decompose tree entities declaredPredicates
  | none => some (x.language.decompose tree entities declaredPredicates)

/-- A delivery at work: the state, the columns of the run that only a checkpoint saves, the layers of
    the artifact, and whether the pipeline has made a `Decomposer`. -/
structure Work where
  output : Output := {}
  ambiguity : List PyValue := []
  parserReceipt : Option PyValue := none
  layers : Option PyValue := none
  decomposer : Bool := false

abbrev Step : Type := Work → Option Work

/-- An assignment to the state. -/
def Work.assign (w : Work) (output : Output) : Work := { w with output := output }

/-- `_observe`: a receipt for the executor. -/
def observe (name : String) : Step := fun w =>
  some (w.assign { w.output with executorRuns := w.output.executorRuns ++ [lit name] })

/-- A save: it changes nothing that is read here. -/
def save : Step := some

section Stages

variable (x : Calls)

/-- `any(s.get('derive_claims') for s in state['schema'].values())`. -/
def derives (schema : List (PyStr × Schema)) : Bool := schema.any fun s => s.2.deriveClaims

/-! ## The stages -/

def admission : List Step :=
  [fun w => do
    if !x.isActive then none
    let schema ← x.objectTypes.mapM fun name => (x.effectiveFields name).map (name, ·)
    some (w.assign { w.output with schema := some schema }),
   fun w => do
    let observedAt ← x.sourceTime []
    some (w.assign { w.output with observedAt := some observedAt })]

/-- What the parser returned, if its receipt is of what was captured. -/
def parsed : Option Parsed := do
  let p ← x.parse
  if p.sourceSha256 ≠ x.sourceSha256 then none else some p

/-- The first pass of the decomposition. -/
def firstPass : Step := fun w => do
  let p ← parsed x
  let schema ← w.output.schema
  if derives schema then
    let result ← x.decompose p.tree [] []
    some { w with
      output := { w.output with claims := some (result.claims.map fun c => { claim := c }) }
      ambiguity := result.ambiguous
      decomposer := true }
  else some (w.assign { w.output with claims := some [] })

def lift : List Step :=
  [observe "parse",
   fun w => do
    let p ← parsed x
    let observedAt ← x.sourceTime p.metadata
    some (w.assign { w.output with observedAt := some observedAt }),
   fun w => do
    let p ← parsed x
    some { w with parserReceipt := some p.receipt },
   save,
   fun w => do
    let p ← parsed x
    some (w.assign { w.output with document := some p.tree }),
   observe "spans.gliner2",
   fun w => do
    let p ← parsed x
    let found ← x.extract p.tree
    some (w.assign { w.output with spans := some found.1, classifications := some found.2 }),
   fun w => do
    let p ← parsed x
    let found ← x.extract p.tree
    let observedAt ← w.output.observedAt
    let spans ← found.1.mapM fun s => s.globalSpan p.tree
    let records ← x.objectTypes.mapM fun name =>
      (x.extractFields name p.tree spans observedAt).map (name, ·)
    some (w.assign { w.output with records := some records }),
   firstPass x]

/-- `[s for s in state['spans'] if s.get('target_object_type_id')]`. -/
def mentions (spans : List ExtractedSpan) : List ExtractedSpan :=
  spans.filter fun s => s.targetObjectTypeId.any fun id => !id.isEmpty

/-- `resolve_mentions`. -/
def resolveMentions (spans : List ExtractedSpan) : Option (List Entity) :=
  (mentions spans).mapM fun s => (x.linkOrPend s).map fun link => { span := s, link := link }

/-- The keys of all declared fields. -/
def declaredPredicates (schema : List (PyStr × Schema)) : List PyStr :=
  schema.flatMap fun s => s.2.fields.map Field.key

/-- Whether there is a decomposer, or claims to make one for. -/
def Work.decomposes (w : Work) : Option Bool :=
  if x.decomposer.isSome || w.decomposer then some true
  else w.output.claims.map fun claims => !claims.isEmpty

/-- The second pass of the decomposition. -/
def secondPass : Step := fun w => do
  let schema ← w.output.schema
  if !derives schema then some (w.assign { w.output with claims := some [] })
  else
    let again ← w.decomposes x
    if again then
      let document ← w.output.document
      let entities ← w.output.entities
      let result ← x.decompose document entities (declaredPredicates schema)
      some { w with
        output := { w.output with claims := some (result.claims.map fun c => { claim := c }) }
        ambiguity := result.ambiguous
        decomposer := true }
    else some w

def deduplicate : List Step :=
  [fun w => do
    let spans ← w.output.spans
    if (mentions spans).isEmpty then some w else observe "resolve.link" w,
   fun w => do
    let spans ← w.output.spans
    let entities ← resolveMentions x spans
    some (w.assign { w.output with entities := some entities }),
   secondPass x]

def score : List Step :=
  [fun w => do
    let score ← x.score ⟨w.output.observedAt, w.output.schema, w.output.records, w.output.claims⟩
    some (w.assign { w.output with score := some score })]

/-- `{**e, **temporal}`. -/
def Entity.connected (t : Temporal) (e : Entity) : Entity := { e with temporal := some t }

/-- `{**c, **temporal, 'tenant_id': …}`. -/
def StoredClaim.connected (t : Temporal) (c : StoredClaim) : StoredClaim :=
  { c with temporal := some t, tenantId := some x.slug }

/-- `e['pending_relation']` of those without an entity. -/
def pendingRelations (entities : List Entity) : List PyValue :=
  entities.filterMap fun e => match e.link with
    | .linked _ => none
    | .pending relation => some relation

def connect : List Step :=
  [fun w => do
    let observedAt ← w.output.observedAt
    let t ← x.temporalProperties observedAt
    let entities ← w.output.entities
    some (w.assign { w.output with entities := some (entities.map (Entity.connected t)) }),
   fun w => do
    let observedAt ← w.output.observedAt
    let t ← x.temporalProperties observedAt
    let claims ← w.output.claims
    some (w.assign { w.output with claims := some (claims.map (StoredClaim.connected x t)) }),
   fun w => do
    let entities ← w.output.entities
    some (w.assign { w.output with pendingRelations := some (pendingRelations entities) })]

/-- The keys of the fields that are neither relations nor multi-valued. -/
def exclusive (schema : List (PyStr × Schema)) : List PyStr :=
  schema.flatMap fun s => (s.2.fields.filter fun f =>
    f.fieldKind ≠ some (lit "relation") ∧ f.fieldKind ≠ some (lit "enum_many")).map Field.key

/-- `claim['exclusive_predicate'] = claim.get('predicate') in exclusive`. -/
def StoredClaim.challenged (schema : List (PyStr × Schema)) (c : StoredClaim) : StoredClaim :=
  { c with exclusivePredicate := some (c.claim.predicate.any fun p => (exclusive schema).contains p) }

def challenge : List Step :=
  [fun w => do
    let schema ← w.output.schema
    let claims ← w.output.claims
    some (w.assign { w.output with claims := some (claims.map (StoredClaim.challenged schema)) })]

/-- The claims with what `verify` makes of them. -/
def validated (document : DocElementTree) (claims : List StoredClaim) : Option (List StoredClaim) := do
  let cutoff ← x.cutoff
  let verified ← (verify x.miniCheck cutoff document (claims.map StoredClaim.claim)).toOption
  some (claims.zipWith (fun old new => { old with claim := new }) verified)

def validate : List Step :=
  [fun w => do
    let claims ← w.output.claims
    if claims.isEmpty then some w else observe "claims.verify.minicheck" w,
   fun w => do
    let claims ← w.output.claims
    if claims.isEmpty then some w
    else
      let document ← w.output.document
      let claims ← validated x document claims
      some (w.assign { w.output with claims := some claims })]

/-- The fields whose spans start inside an element. -/
def placedFields (document : DocElementTree) (records : List (PyStr × Record)) : List PlacedField :=
  records.flatMap fun r => r.2.attempts.filterMap fun a => do
    let start ← a.byteStart
    let owner ← document.elements.find? fun e => e.byteStart ≤ start ∧ start < e.byteEnd
    let value ← r.2.properties.lookup a.field
    some ⟨r.1 ++ lit "." ++ a.field, owner.id, value⟩

/-- The layers that `_distill` builds. -/
def layersOf (o : Output) : Option PyValue := do
  let document ← o.document
  let records ← o.records
  let claims ← o.claims
  let entities ← o.entities
  x.buildLayers document (placedFields document records) claims entities

def distill : List Step :=
  [fun w => do
    let layers ← layersOf x w.output
    let document ← w.output.document
    let claims ← w.output.claims
    let entities ← w.output.entities
    let pending ← w.output.pendingRelations
    let observedAt ← w.output.observedAt
    let publication ← x.publish ⟨document, claims, entities, pending, layers, observedAt⟩
    some (w.assign { w.output with publication := some publication }),
   fun w => do
    let layers ← layersOf x w.output
    some { w with layers := some layers }]

/-- `getattr(self, '_' + stage.lower())`. -/
def body : Stage → List Step
  | .admission => admission x
  | .lift => lift x
  | .deduplicate => deduplicate x
  | .score => score x
  | .connect => connect x
  | .challenge => challenge
  | .validate => validate x
  | .distill => distill x

end Stages

end ControlPlane.Documents
