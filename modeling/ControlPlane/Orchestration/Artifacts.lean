/-
  ARROW ARTIFACTS: `get_bytes`, `read_arrow` and `write_table` of `apps/orchestration/artifacts.py`.

  The object store is whatever it answers: `fetch` gives the response to a `get_object`, or the error
  that `get_bytes` makes of the store's refusal.  Of an Arrow table nobody here looks at more than the
  JSON of its schema and its number of rows, so `decode` of the Arrow library gives these two.  What a
  worker claims of an artifact is its text, so schema and digest are compared as text.
-/
import ControlPlane.Competence.Jobs
import ControlPlane.PyError
import ControlPlane.PyStr

namespace ControlPlane.Orchestration

open ControlPlane.Competence (ArtifactError validateKey tenantPrefix)

/-- The exception an artifact operation raises. -/
def raised : ArtifactError → PyError
  | .configuration detail => ⟨.artifactConfiguration, PyStr.lit detail⟩
  | .storage detail => ⟨.artifactStorage, PyStr.lit detail⟩
  | .validation detail => ⟨.artifactValidation, PyStr.lit detail⟩

/-! ## The libraries -/

/-- `get_object`: the announced length and the body. -/
structure Response where
  contentLength : Nat
  body : List UInt8
  deriving DecidableEq, Repr

/-- What `ArtifactStore` is built from: its limit, SHA-256 in hexadecimal digits, and pyarrow, which
    reads a table's `arrow_schema_json` and `num_rows` from an IPC stream. -/
structure StoreSettings where
  maxBytes : Nat
  hexdigest : List UInt8 → String
  decode : List UInt8 → Option (PyStr × Nat)

/-- `StoredArrowArtifact`. -/
structure StoredArrowArtifact where
  artifactKey : String
  payloadDigest : PyStr
  schemaJson : PyStr
  rows : Nat
  deriving DecidableEq, Repr

/-- What a descriptor says of an artifact; a blank text or no row count says nothing. -/
structure Expected where
  digest : PyStr := []
  schemaJson : PyStr := []
  rows : Option Int := none
  deriving DecidableEq, Repr

namespace StoreSettings

variable (cfg : StoreSettings)

/-- `sha256_digest`. -/
def sha256Digest (payload : List UInt8) : PyStr := PyStr.lit ("sha256:" ++ cfg.hexdigest payload)

/-- `get_bytes`. -/
def getBytes (fetch : String → Except ArtifactError Response) (tenantId artifactKey : String) :
    Except ArtifactError (List UInt8) := do
  validateKey tenantId artifactKey
  let response ← fetch artifactKey
  if cfg.maxBytes < response.contentLength ∨ cfg.maxBytes < response.body.length then
    .error (.validation "artifact exceeds ARTIFACT_MAX_BYTES")
  else .ok response.body

/-- `read_arrow`, behind the `get_bytes`. -/
def checkArrow (artifactKey : String) (expected : Expected) (payload : List UInt8) :
    Except ArtifactError StoredArrowArtifact :=
  if expected.digest ≠ [] ∧ cfg.sha256Digest payload ≠ expected.digest then
    .error (.validation "artifact payload digest does not match the descriptor")
  else match cfg.decode payload with
    | none => .error (.validation "artifact is not a valid Arrow IPC stream")
    | some (schemaJson, rows) =>
        if expected.schemaJson ≠ [] ∧ schemaJson ≠ expected.schemaJson then
          .error (.validation "artifact schema does not match the descriptor")
        else if expected.rows ≠ none ∧ expected.rows ≠ some (rows : Int) then
          .error (.validation "artifact row count does not match the descriptor")
        else .ok ⟨artifactKey, cfg.sha256Digest payload, schemaJson, rows⟩

/-- `read_arrow`. -/
def readArrow (fetch : String → Except ArtifactError Response) (tenantId artifactKey : String)
    (expected : Expected) : Except ArtifactError StoredArrowArtifact := do
  let payload ← cfg.getBytes fetch tenantId artifactKey
  cfg.checkArrow artifactKey expected payload

/-! ## What a read proves -/

/-- The artifact describes these bytes. -/
def Describes (artifact : StoredArrowArtifact) (payload : List UInt8) : Prop :=
  artifact.payloadDigest = cfg.sha256Digest payload ∧
    cfg.decode payload = some (artifact.schemaJson, artifact.rows)

/-- The artifact is as the descriptor says, where it says something. -/
def Expected.Met (expected : Expected) (artifact : StoredArrowArtifact) : Prop :=
  (expected.digest ≠ [] → artifact.payloadDigest = expected.digest) ∧
  (expected.schemaJson ≠ [] → artifact.schemaJson = expected.schemaJson) ∧
  (∀ rows, expected.rows = some rows → (artifact.rows : Int) = rows)

theorem checkArrow_ok {cfg : StoreSettings} {artifactKey : String} {expected : Expected}
    {payload : List UInt8} {artifact : StoredArrowArtifact}
    (h : cfg.checkArrow artifactKey expected payload = .ok artifact) :
    artifact.artifactKey = artifactKey ∧ cfg.Describes artifact payload ∧
      Expected.Met expected artifact := by
  unfold checkArrow at h
  split at h
  · cases h
  · rename_i hdigest
    split at h
    · cases h
    · rename_i schemaJson rows hdecode
      split at h
      · cases h
      · rename_i hschema
        split at h
        · cases h
        · rename_i hrows
          cases h
          refine ⟨rfl, ⟨rfl, hdecode⟩, fun hne => ?_, fun hne => ?_, fun n hn => ?_⟩
          · exact not_not.mp fun hdiff => hdigest ⟨hne, hdiff⟩
          · exact not_not.mp fun hdiff => hschema ⟨hne, hdiff⟩
          · have hsome : expected.rows = some (rows : Int) :=
              not_not.mp fun hdiff => hrows ⟨by simp [hn], hdiff⟩
            exact (Option.some.inj (hn.symm.trans hsome)).symm

theorem getBytes_ok {cfg : StoreSettings} {fetch : String → Except ArtifactError Response}
    {tenantId artifactKey : String} {payload : List UInt8}
    (h : cfg.getBytes fetch tenantId artifactKey = .ok payload) :
    ∃ response, fetch artifactKey = .ok response ∧ response.body = payload ∧
      payload.length ≤ cfg.maxBytes := by
  unfold getBytes at h
  cases hkey : validateKey tenantId artifactKey with
  | error e => rw [hkey] at h; cases h
  | ok _ =>
    rw [hkey] at h
    cases hfetch : fetch artifactKey with
    | error e =>
      rw [hfetch] at h
      cases h
    | ok response =>
      rw [hfetch] at h
      simp only [bind, Except.bind] at h
      split at h
      · cases h
      · rename_i hsize
        cases h
        exact ⟨response, rfl, rfl, by omega⟩

/-- **A verified artifact.**  What `read_arrow` returns describes the bytes that are stored under the
    key, and agrees with the descriptor. -/
theorem readArrow_ok {cfg : StoreSettings} {fetch : String → Except ArtifactError Response}
    {tenantId artifactKey : String} {expected : Expected} {artifact : StoredArrowArtifact}
    (h : cfg.readArrow fetch tenantId artifactKey expected = .ok artifact) :
    artifact.artifactKey = artifactKey ∧ Expected.Met expected artifact ∧
      ∃ response, fetch artifactKey = .ok response ∧ cfg.Describes artifact response.body := by
  unfold readArrow at h
  cases hbytes : cfg.getBytes fetch tenantId artifactKey with
  | error e => rw [hbytes] at h; cases h
  | ok payload =>
    rw [hbytes] at h
    obtain ⟨hkey, hdescribes, hmet⟩ := checkArrow_ok h
    obtain ⟨response, hfetch, rfl, -⟩ := getBytes_ok hbytes
    exact ⟨hkey, hmet, response, hfetch, hdescribes⟩

end StoreSettings

end ControlPlane.Orchestration
