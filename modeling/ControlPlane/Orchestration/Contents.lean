/-
  CONTENT-ADDRESSED OBJECTS: the writers and readers of `apps/orchestration/artifacts.py`, over one bucket
  that everybody writes to.

  `write_web_content`, `write_rl_content`, `write_render_artifact` and `write_competence_artifact` PUT a
  payload under a key that ends in its digest, and read it back.  Beside them run `write_table`, whose
  keys say nothing of the bytes, uploads of clients and workers through presigned URLs, and deletions.
  A request may fail, and a PUT that failed may have been carried out.

  1. `address` reads off a key the digest that its object must have.
  2. Only writers put something under a key with an address (`address_table`, `address_upload`), and
     nobody deletes web content, renders and artifacts of runs (`not_kept_discard`, `not_kept_cleanup`).
  3. So in every interleaving each object has the digest that its key names (`content_addressed`), and
     web content that was written is read back by its tenant, and by nobody else (`web_roundtrip`).
-/
import ControlPlane.Interleave
import ControlPlane.Journal
import ControlPlane.Orchestration.Isolation

namespace ControlPlane.Contents

open Keys PyStr

/-! ## The writers -/

/-- A call of a writer. -/
inductive Content where
  | web (tenantId : Uuid) (snapshotId : PyStr) (payload : List UInt8) (mediaType kind : PyStr)
  | rl (tenantId runId : Uuid) (artifactName : PyStr) (payload : List UInt8) (mediaType : PyStr)
  | render (tenantId : Uuid) (payload : List UInt8) (mediaType : PyStr)
  | competence (tenantId projectId : Uuid) (candidateId artifactKind : PyStr) (payload : List UInt8)
      (mediaType : PyStr)
  deriving DecidableEq

/-- `allowed_types` of `write_rl_content`. -/
def rlMediaTypes : List PyStr :=
  [lit "application/json", lit "application/jsonl", lit "text/csv", lit "text/plain",
    lit "application/pdf",
    lit "application/vnd.openxmlformats-officedocument.wordprocessingml.document",
    lit "application/vnd.openxmlformats-officedocument.presentationml.presentation",
    lit "application/vnd.openxmlformats-officedocument.spreadsheetml.sheet",
    lit "text/html", lit "message/rfc822", lit "image/png", lit "image/jpeg", lit "image/tiff",
    lit "image/webp", lit "application/toml"]

/-- `extensions.get(media_type)` of `write_render_artifact`. -/
def renderExtension (mediaType : PyStr) : Option PyStr :=
  if mediaType = lit "image/png" then some (lit "png")
  else if mediaType = lit "image/svg+xml" then some (lit "svg")
  else none

/-- `expected_media_types.get(artifact_kind)` of `write_competence_artifact`. -/
def competenceMediaType (artifactKind : PyStr) : Option PyStr :=
  if artifactKind = lit "scorer_model" then
    some (lit "application/vnd.theorem.competence-scorer+json")
  else if artifactKind = lit "prior_pack" then some (lit "application/vnd.theorem.prior-pack+json")
  else none

namespace Content

variable (store : Store)

def tenantId : Content → Uuid
  | web t _ _ _ _ | rl t _ _ _ _ | render t _ _ | competence t _ _ _ _ _ => t

def payload : Content → List UInt8
  | web _ _ payload _ _ | rl _ _ _ payload _ | render _ payload _ | competence _ _ _ _ payload _ =>
      payload

/-- A writer up to the key it puts the payload under. -/
def key : Content → Except PyError PyStr
  | web tenantId snapshotId payload mediaType kind =>
      store.webKey tenantId snapshotId payload mediaType kind
  | rl tenantId runId artifactName payload mediaType =>
      if mediaType ∉ rlMediaTypes then refuse "RL artifact media type is not allowed"
      else if payload = [] ∨ store.maxBytes < payload.length then
        refuse "RL artifact must be non-empty and within ARTIFACT_MAX_BYTES"
      else Store.rlArtifactKey tenantId runId artifactName (store.sha256Digest payload)
  | render tenantId payload mediaType =>
      match renderExtension mediaType with
      | none => refuse "render media type is not allowed"
      | some extension =>
          if payload = [] ∨ store.maxBytes < payload.length then
            refuse "render artifact must be non-empty and within ARTIFACT_MAX_BYTES"
          else Store.renderArtifactKey tenantId (store.sha256Digest payload) extension
  | competence tenantId projectId candidateId artifactKind payload mediaType =>
      if competenceMediaType artifactKind ≠ some mediaType then
        refuse "competence artifact kind and media type do not match"
      else if payload = [] ∨ store.maxBytes < payload.length then
        refuse "competence artifact must be non-empty and within ARTIFACT_MAX_BYTES"
      else store.competenceArtifactKey tenantId projectId candidateId artifactKind
        (store.sha256Digest payload)

/-- The action that `_storage_call` names. -/
def action : Content → PyStr
  | web .. => lit "write web content"
  | rl .. => lit "write RL artifact"
  | render .. => lit "write render artifact"
  | competence .. => lit "write competence artifact"

/-- What a writer finds wrong with the bytes it reads back: two of them compare the digests, two the
    bytes. -/
def mismatch (recovered : List UInt8) : Content → Option PyStr
  | web _ _ payload _ _ =>
      if store.sha256Digest recovered ≠ store.sha256Digest payload then
        some (lit "web content readback digest mismatch")
      else none
  | rl _ _ _ payload _ =>
      if store.sha256Digest recovered ≠ store.sha256Digest payload then
        some (lit "RL artifact readback does not match published digest")
      else none
  | render _ payload _ =>
      if recovered ≠ payload then
        some (lit "render artifact readback does not match published bytes")
      else none
  | competence _ _ _ _ payload _ =>
      if recovered ≠ payload then
        some (lit "competence artifact readback does not match published bytes")
      else none

end Content

/-- `WebObjectDescriptor`; the scope is a dict. -/
structure WebObjectDescriptor where
  digest : PyStr
  objectKey : PyStr
  mediaType : PyStr
  byteLength : Nat
  snapshotId : PyStr
  scope : List (PyStr × PyStr)
  encoding : Option PyStr := none
  deriving DecidableEq

/-- `StoredContentArtifact`. -/
structure StoredContentArtifact where
  artifactKey : PyStr
  payloadDigest : PyStr
  mediaType : PyStr
  byteLength : Nat
  deriving DecidableEq

/-- What a writer returns. -/
inductive Written where
  | web (descriptor : WebObjectDescriptor)
  | stored (artifact : StoredContentArtifact)
  deriving DecidableEq

/-- The scope of a tenant's web content. -/
def tenantScope (tenantId : Uuid) : List (PyStr × PyStr) :=
  [(lit "visibility", lit "tenant"), (lit "tenant_id", tenantId.str)]

def webDescriptor (store : Store) (tenantId : Uuid) (snapshotId : PyStr) (payload : List UInt8)
    (mediaType key : PyStr) : WebObjectDescriptor where
  digest := store.sha256Digest payload
  objectKey := key
  mediaType := mediaType
  byteLength := payload.length
  snapshotId := snapshotId
  scope := tenantScope tenantId

def storedArtifact (store : Store) (payload : List UInt8) (mediaType key : PyStr) :
    StoredContentArtifact where
  artifactKey := key
  payloadDigest := store.sha256Digest payload
  mediaType := mediaType
  byteLength := payload.length

def Content.written (store : Store) (key : PyStr) : Content → Written
  | .web tenantId snapshotId payload mediaType _ =>
      .web (webDescriptor store tenantId snapshotId payload mediaType key)
  | .rl _ _ _ payload mediaType | .render _ payload mediaType | .competence _ _ _ _ payload mediaType =>
      .stored (storedArtifact store payload mediaType key)

/-! ## The bucket and its readers -/

/-- What put an object: a writer, `write_table`, or a client that had a presigned URL. -/
inductive Put where
  | content (c : Content)
  | table (c : Construction) (body : List UInt8)
  | upload (c : Construction) (body : List UInt8)
  deriving DecidableEq

def Put.body : Put → List UInt8
  | content c => c.payload
  | table _ body | upload _ body => body

abbrev Bucket := Journal.Entries PyStr Put

/-- What the store raises; a missing object has a class of its own, `ArtifactNotFoundError`. -/
inductive Raised where
  | error (e : PyError)
  | notFound
  deriving DecidableEq

def invalid {α : Type} (detail : String) : Except Raised α :=
  .error (.error ⟨.artifactValidation, lit detail⟩)

/-- `get_bytes`; the service answers, or it is `down`. -/
def getBytes (store : Store) (bucket : Bucket) (down : Bool) (tenantId : Uuid) (artifactKey : PyStr) :
    Except Raised (List UInt8) := do
  let key ← (validateKey tenantId artifactKey).mapError .error
  if down then .error (.error ⟨.artifactStorage, lit "artifact storage read failed"⟩)
  else match Journal.get bucket key with
    | none => .error .notFound
    | some put =>
        if store.maxBytes < put.body.length then invalid "artifact exceeds ARTIFACT_MAX_BYTES"
        else .ok put.body

/-- `==` of two dicts. -/
def sameDict (d d' : List (PyStr × PyStr)) : Bool :=
  d.length == d'.length && d.all fun entry => d'.lookup entry.1 == some entry.2

/-- The keys of web content with this digest. -/
def webKeys (tenantId : Uuid) (digest : PyStr) : List PyStr :=
  [lit "raw", lit "text", lit "captures"].map fun kind =>
    tenantPrefix tenantId ++ lit "web/" ++ kind ++ lit "/" ++ digest

/-- `read_web_content`. -/
def readWebContent (store : Store) (bucket : Bucket) (down : Bool) (tenantId : Uuid)
    (descriptor : WebObjectDescriptor) : Except Raised (List UInt8) := do
  if sameDict descriptor.scope (tenantScope tenantId) = false then
    invalid "web content tenant scope mismatch"
  else
    let digest ← (Store.contentDigest descriptor.digest).mapError .error
    if descriptor.objectKey ∉ webKeys tenantId digest ∨ descriptor.encoding ≠ none then
      invalid "web content descriptor is invalid"
    else
      let payload ← getBytes store bucket down tenantId descriptor.objectKey
      if payload.length ≠ descriptor.byteLength ∨ store.sha256Digest payload ≠ descriptor.digest then
        invalid "web content digest or length mismatch"
      else .ok payload

/-- `validate_competence_key`. -/
def validateCompetenceKey (store : Store) (tenantId projectId : Uuid) (candidateId artifactKey : PyStr) :
    Except PyError PyStr := do
  let key ← validateKey tenantId artifactKey
  let candidateHash ← store.textHash candidateId
  if ¬ tenantPrefix tenantId ++ lit "projects/" ++ projectId.str ++ lit "/competence/" ++
      candidateHash ++ lit "/" <+: key then
    refuse "artifact_key is outside the admitted competence project/candidate scope"
  else .ok key

/-! ## The system -/

/-- A writer between its requests. -/
inductive Writer where
  | put (c : Content)
  | readBack (c : Content) (key : PyStr)
  | returned (c : Content) (answer : Written)
  | raised (c : Content) (e : Raised)
  deriving DecidableEq

/-- How a request goes: it is answered, or it fails, and a PUT that failed may have been carried out. -/
inductive Reply where
  | answered
  | failed (carriedOut : Bool)

def Reply.down : Reply → Bool
  | answered => false
  | failed _ => true

/-- One request of a writer. -/
def Writer.act (store : Store) (bucket : Bucket) : Writer → Reply → Option (Bucket × Writer)
  | put c, reply => match c.key store with
      | .error e => some (bucket, raised c (.error e))
      | .ok key => match reply with
          | .answered => some ((key, some (.content c)) :: bucket, readBack c key)
          | .failed carriedOut =>
              some (if carriedOut then (key, some (.content c)) :: bucket else bucket,
                raised c (.error ⟨.artifactStorage,
                  lit "artifact storage " ++ c.action ++ lit " failed"⟩))
  | readBack c key, reply => match getBytes store bucket reply.down c.tenantId key with
      | .error e => some (bucket, raised c e)
      | .ok recovered => match c.mismatch store recovered with
          | some detail => some (bucket, raised c (.error ⟨.artifactValidation, detail⟩))
          | none => some (bucket, returned c (c.written store key))
  | returned .., _ | raised .., _ => none

def Writer.starts : Writer → Bool
  | put _ => true
  | _ => false

/-- What else is done to the bucket. -/
inductive Request where
  /-- `write_table`. -/
  | table (c : Construction) (body : List UInt8)
  /-- A PUT to a URL of `presign_put` or `presign_put_content`. -/
  | upload (c : Construction) (body : List UInt8)
  /-- `delete_artifact`. -/
  | discard (c : Construction)
  /-- `delete_competence_artifact`. -/
  | cleanup (tenantId projectId : Uuid) (candidateId artifactKey : PyStr)

/-- The name of the Arrow shard of a run, whose key has the digest of its SOURCE. -/
def shardName : PyStr := lit "trajectories.arrow"

/-- The callers of `write_table`: `_write_plan`, the stub and the R task, `ingest_trajectories`. -/
def isTable : Construction → Bool
  | .shardInput .. | .output .. => true
  | .rlContent _ _ artifactName _ => artifactName = shardName
  | _ => false

/-- What URLs are presigned for: `begin_artifact_upload`, `_runpod_input`, `_training_payload`. -/
def isUpload : Construction → Bool
  | .input .. | .output .. => true
  | .rlIncoming _ _ name => name ∈ Construction.incomingNames
  | _ => false

/-- The callers of `delete_artifact`: `discard_plans` and the training task. -/
def isDiscarded : Construction → Bool
  | .shardInput .. => true
  | .rlIncoming _ _ name => name ∈ Construction.incomingNames
  | _ => false

/-- The key, where it can be built and is accepted for its tenant. -/
def acceptedKey (store : Store) (c : Construction) : Option PyStr :=
  match c.key store with
  | .error _ => none
  | .ok key => if validateKey c.tenantId key = .ok key then some key else none

def Request.carryOut (store : Store) (bucket : Bucket) : Request → Option Bucket
  | table c body =>
      if isTable c ∧ body.length ≤ store.maxBytes then
        (acceptedKey store c).map fun key => (key, some (.table c body)) :: bucket
      else none
  | upload c body =>
      if isUpload c then (acceptedKey store c).map fun key => (key, some (.upload c body)) :: bucket
      else none
  | discard c =>
      if isDiscarded c then (acceptedKey store c).map fun key => (key, none) :: bucket else none
  | cleanup tenantId projectId candidateId artifactKey =>
      match validateCompetenceKey store tenantId projectId candidateId artifactKey with
      | .error _ => none
      | .ok key => some ((key, none) :: bucket)

/-- Any number of writers, and whatever else is done to the bucket. -/
def system (store : Store) : Interleave.Program Bucket Writer Reply Request where
  start := Writer.starts
  act bucket w reply := w.act store bucket reply
  env bucket request := request.carryOut store bucket

/-- An empty bucket, and nobody at work. -/
def fresh : Interleave.Config Bucket Writer := ⟨[], []⟩

/-! ## What a key says of its content -/

/-- The digits of the digest that a key names. -/
def address (key : PyStr) : Option PyStr :=
  match key.splitOn slash with
  | [_, _, area, name] => if area = lit "renders" then some (name.take 64) else none
  | [_, _, area, _, digest] => if area = lit "web" then some digest else none
  | [_, _, area, _, name, digest] =>
      if area = lit "rl" ∧ name ≠ lit "incoming" ∧ name ≠ shardName then some digest else none
  | [_, _, area, _, _, _, _, digest] => if area = lit "projects" then some digest else none
  | _ => none

/-- Its object is web content, a render or an artifact of a training run, which nobody deletes. -/
def IsKept (key : PyStr) : Prop :=
  let segments := key.splitOn slash
  segments[2]? = some (lit "web") ∨ segments[2]? = some (lit "renders") ∨
    segments[2]? = some (lit "rl") ∧ segments[4]? ≠ some (lit "incoming")

variable {store : Store} {con : Construction} {c : Content} {key : PyStr}

/-- The construction of a writer's key. -/
def Content.construction (store : Store) : Content → Construction
  | .web t snapshotId payload mediaType kind => .web t snapshotId payload mediaType kind
  | .rl t runId artifactName payload _ => .rlContent t runId artifactName (store.sha256Digest payload)
  | .render t payload mediaType =>
      .render t (store.sha256Digest payload) ((renderExtension mediaType).getD [])
  | .competence t projectId candidateId artifactKind payload _ =>
      .competence t projectId candidateId artifactKind (store.sha256Digest payload)

theorem construction_key (h : c.key store = .ok key) : (c.construction store).key store = .ok key := by
  cases c with
  | web t snapshotId payload mediaType kind => exact h
  | rl t runId artifactName payload mediaType =>
    obtain ⟨-, h⟩ | ⟨-, h⟩ := Fallible.ite_ok h
    · cases h
    obtain ⟨-, h⟩ | ⟨-, h⟩ := Fallible.ite_ok h
    · cases h
    exact h
  | render t payload mediaType =>
    simp only [Content.key] at h
    split at h
    · cases h
    · rename_i extension hextension
      obtain ⟨-, h⟩ | ⟨-, h⟩ := Fallible.ite_ok h
      · cases h
      rw [Content.construction, hextension]
      exact h
  | competence t projectId candidateId artifactKind payload mediaType =>
    obtain ⟨-, h⟩ | ⟨-, h⟩ := Fallible.ite_ok h
    · cases h
    obtain ⟨-, h⟩ | ⟨-, h⟩ := Fallible.ite_ok h
    · cases h
    exact h

/-- A name without a slash stays in one piece. -/
theorem split_key (h : con.key store = .ok key) (hlast : slash ∉ con.last store) :
    key.splitOn slash = con.front store ++ [con.last store] := by
  obtain ⟨hadmitted, rfl⟩ := Construction.key_path h
  rw [Construction.splitOn_key hadmitted, List.splitOn_eq_singleton hlast]

theorem own_last (h : con.key store = .ok key) (hcon : ¬ con.Foreign) : slash ∉ con.last store :=
  (not_mem_of_name (Construction.last_name (Construction.key_path h).1 hcon)).1

theorem incoming_last (store : Store) (t r : Uuid) {name : PyStr} (hname : name ∈ Construction.incomingNames) :
    slash ∉ (Construction.rlIncoming t r name).last store := by
  have hnames : ∀ name ∈ Construction.incomingNames, slash ∉ name := by decide
  exact hnames name hname

theorem area_of_key (h : con.key store = .ok key) (hlast : slash ∉ con.last store) :
    (key.splitOn slash)[2]? = some con.area.text := by
  rw [split_key h hlast]
  rfl

theorem digest_drop (payload : List UInt8) :
    (store.sha256Digest payload).drop 7 = store.hexdigest payload :=
  List.drop_left' (by decide)

/-- **The address of content is its digest.** -/
theorem address_content (h : c.key store = .ok key) {digest : PyStr}
    (haddress : address key = some digest) : store.hexdigest c.payload = digest := by
  have hcon := construction_key h
  cases c with
  | web t snapshotId payload mediaType kind =>
    rw [address, split_key hcon (own_last hcon id)] at haddress
    exact Option.some.inj haddress
  | rl t runId artifactName payload mediaType =>
    rw [address, split_key hcon (own_last hcon id)] at haddress
    obtain ⟨-, haddress⟩ := (Option.ite_none_right_eq_some).mp haddress
    rw [← Option.some.inj haddress]
    exact (digest_drop payload).symm
  | render t payload mediaType =>
    rw [address, split_key hcon (own_last hcon id)] at haddress
    obtain ⟨-, haddress⟩ := (Option.ite_none_right_eq_some).mp haddress
    rw [← Option.some.inj haddress]
    have hlast : (Content.construction store (.render t payload mediaType)).last store =
        store.hexdigest payload ++ (lit "." ++ (renderExtension mediaType).getD []) :=
      congrArg (· ++ _) (digest_drop payload)
    exact ((congrArg (List.take 64) hlast).trans (List.take_left' (store.hex64 payload).1)).symm
  | competence t projectId candidateId artifactKind payload mediaType =>
    rw [address, split_key hcon (own_last hcon id)] at haddress
    exact (digest_drop payload).symm.trans (Option.some.inj haddress)

/-- The keys of tables, of uploads and of what is discarded have no address. -/
theorem address_table (h : con.key store = .ok key) (hcon : isTable con = true) : address key = none := by
  cases con with
  | output t operationId => rw [address, split_key h (own_last h id)]; rfl
  | shardInput t jobId planningId index => rw [address, split_key h (own_last h id)]; rfl
  | rlContent t runId artifactName payloadDigest =>
    rw [address, split_key h (own_last h id)]
    exact if_neg fun hrl => hrl.2.2 (of_decide_eq_true hcon)
  | _ => cases hcon

theorem address_upload (h : con.key store = .ok key) (hcon : isUpload con = true) :
    address key = none := by
  cases con with
  | input t uuid4 => rw [address, split_key h (own_last h id)]; rfl
  | output t operationId => rw [address, split_key h (own_last h id)]; rfl
  | rlIncoming t runId name =>
    rw [address, split_key h (incoming_last store t runId (of_decide_eq_true hcon))]
    exact if_neg fun hrl => hrl.2.1 rfl
  | _ => cases hcon

/-! ## What is kept -/

theorem not_kept {area : PyStr} (h : (key.splitOn slash)[2]? = some area)
    (harea : area ∉ [lit "web", lit "renders", lit "rl"]) : ¬ IsKept key := by
  rw [IsKept, h]
  simp only [Option.some.injEq]
  rintro (rfl | rfl | ⟨rfl, -⟩)
  · exact harea (List.mem_cons_self)
  · exact harea (List.mem_cons_of_mem _ List.mem_cons_self)
  · exact harea (List.mem_cons_of_mem _ (List.mem_cons_of_mem _ List.mem_cons_self))

theorem not_kept_discard (h : con.key store = .ok key) (hcon : isDiscarded con = true) :
    ¬ IsKept key := by
  cases con with
  | shardInput t jobId planningId index =>
    have harea : lit "extraction" ∉ [lit "web", lit "renders", lit "rl"] := by decide
    exact not_kept (area_of_key h (own_last h id)) harea
  | rlIncoming t runId name =>
    have hlast := incoming_last store t runId (of_decide_eq_true hcon)
    have hareas : lit "rl" ≠ lit "web" ∧ lit "rl" ≠ lit "renders" := by decide
    have hincoming : (key.splitOn slash)[4]? = some (lit "incoming") := by
      rw [split_key h hlast]
      rfl
    rw [IsKept, area_of_key h hlast, hincoming]
    simp only [Option.some.injEq]
    rintro (hweb | hrenders | ⟨-, hother⟩)
    · exact hareas.1 hweb
    · exact hareas.2 hrenders
    · exact hother rfl
  | _ => cases hcon

/-- What a cleanup deletes lies in a project. -/
theorem not_kept_cleanup {t p : Uuid} {candidateId artifactKey : PyStr}
    (h : validateCompetenceKey store t p candidateId artifactKey = .ok key) : ¬ IsKept key := by
  obtain ⟨key', -, h⟩ := Fallible.bind_ok.mp h
  obtain ⟨candidateHash, hhash, h⟩ := Fallible.bind_ok.mp h
  obtain ⟨-, h⟩ | ⟨hinside, h⟩ := Fallible.ite_ok h
  · cases h
  cases h
  obtain ⟨rest, rfl⟩ := Decidable.not_not.mp hinside
  obtain ⟨-, rfl⟩ := Construction.textHash_ok hhash
  let front := [lit "tenants", t.str, lit "projects", p.str, lit "competence",
    store.hexdigest (encoded candidateId)]
  have hpath : tenantPrefix t ++ lit "projects/" ++ p.str ++ lit "/competence/" ++
      store.hexdigest (encoded candidateId) ++ lit "/" ++ rest = path front rest := by
    simp only [tenantPrefix, List.append_assoc]
    rfl
  have hfront : ∀ s ∈ front, slash ∉ s := by
    simp only [front, List.forall_mem_cons]
    exact ⟨by decide, (not_mem_of_name t.str_name).1, by decide, (not_mem_of_name p.str_name).1,
      by decide, (not_mem_of_name (name_of_hex (store.hex64 _).2)).1, List.forall_mem_nil _⟩
  have harea : lit "projects" ∉ [lit "web", lit "renders", lit "rl"] := by decide
  refine not_kept ?_ harea
  rw [hpath, splitOn_path hfront]
  rfl

/-! ## Every interleaving -/

/-- An object whose key has an address was put by a writer. -/
def FitsKey (store : Store) (key : PyStr) (put : Put) : Prop :=
  address key ≠ none → ∃ c, put = .content c ∧ c.key store = .ok key

theorem FitsKey.digest {put : Put} {digest : PyStr} (h : FitsKey store key put)
    (haddress : address key = some digest) : store.hexdigest put.body = digest := by
  obtain ⟨c, rfl, hkey⟩ := h (by rw [haddress]; exact Option.some_ne_none _)
  exact address_content hkey haddress

/-- What a writer has done so far. -/
def Writer.Done (store : Store) (bucket : Bucket) : Writer → Prop
  | readBack c key => c.key store = .ok key ∧ (key, some (.content c)) ∈ bucket
  | returned c answer =>
      ∃ key, c.key store = .ok key ∧ (key, some (.content c)) ∈ bucket ∧ answer = c.written store key
  | _ => True

/-- The bucket before is what the bucket after began with. -/
def Grows (bucket bucket' : Bucket) : Prop := bucket <:+ bucket'

theorem Grows.one (entry : PyStr × Option Put) (bucket : Bucket) : Grows bucket (entry :: bucket) :=
  List.suffix_cons entry bucket

theorem Writer.Done.later {bucket bucket' : Bucket} {w : Writer} (hgrows : Grows bucket bucket')
    (h : w.Done store bucket) : w.Done store bucket' := by
  cases w with
  | put c => trivial
  | readBack c key => exact ⟨h.1, hgrows.mem h.2⟩
  | returned c answer =>
    obtain ⟨key, hkey, hput, hanswer⟩ := h
    exact ⟨key, hkey, hgrows.mem hput, hanswer⟩
  | raised c e => trivial

/-- What a step of a writer can be. -/
theorem Writer.act_cases {bucket bucket' : Bucket} {w w' : Writer} {reply : Reply}
    (h : w.act store bucket reply = some (bucket', w')) :
    (bucket' = bucket ∧ ((∃ c e, w' = raised c e) ∨
      ∃ c key, w = readBack c key ∧ w' = returned c (c.written store key))) ∨
    ∃ c key, c.key store = .ok key ∧ bucket' = (key, some (.content c)) :: bucket ∧
      ((∃ e, w' = raised c e) ∨ w' = readBack c key) := by
  cases w with
  | put c =>
    simp only [act] at h
    split at h
    · cases h
      exact Or.inl ⟨rfl, Or.inl ⟨_, _, rfl⟩⟩
    · rename_i key hkey
      cases reply with
      | answered =>
        cases h
        exact Or.inr ⟨c, key, hkey, rfl, Or.inr rfl⟩
      | failed carriedOut =>
        cases carriedOut <;> cases h
        · exact Or.inl ⟨rfl, Or.inl ⟨_, _, rfl⟩⟩
        · exact Or.inr ⟨c, key, hkey, rfl, Or.inl ⟨_, rfl⟩⟩
  | readBack c key =>
    simp only [act] at h
    split at h
    · cases h
      exact Or.inl ⟨rfl, Or.inl ⟨_, _, rfl⟩⟩
    · split at h
      · cases h
        exact Or.inl ⟨rfl, Or.inl ⟨_, _, rfl⟩⟩
      · cases h
        exact Or.inl ⟨rfl, Or.inr ⟨c, key, rfl, rfl⟩⟩
  | returned c answer => cases h
  | raised c e => cases h

/-- What another request can do: it puts something without an address, or it takes away something
    that is not kept. -/
theorem Request.carryOut_cases {bucket bucket' : Bucket} {request : Request}
    (h : request.carryOut store bucket = some bucket') :
    (∃ key put, address key = none ∧ bucket' = (key, some put) :: bucket) ∨
      ∃ key, ¬ IsKept key ∧ bucket' = (key, none) :: bucket := by
  have haccepted {con : Construction} {key : PyStr} (hkey : acceptedKey store con = some key) :
      con.key store = .ok key := by
    unfold acceptedKey at hkey
    split at hkey
    · cases hkey
    · rename_i key' hkey'
      obtain ⟨-, hsame⟩ := Option.ite_none_right_eq_some.mp hkey
      rwa [← Option.some.inj hsame]
  cases request with
  | table con body =>
    obtain ⟨hcon, h⟩ := Option.ite_none_right_eq_some.mp h
    obtain ⟨key, hkey, rfl⟩ := Option.map_eq_some_iff.mp h
    exact Or.inl ⟨key, _, address_table (haccepted hkey) hcon.1, rfl⟩
  | upload con body =>
    obtain ⟨hcon, h⟩ := Option.ite_none_right_eq_some.mp h
    obtain ⟨key, hkey, rfl⟩ := Option.map_eq_some_iff.mp h
    exact Or.inl ⟨key, _, address_upload (haccepted hkey) hcon, rfl⟩
  | discard con =>
    obtain ⟨hcon, h⟩ := Option.ite_none_right_eq_some.mp h
    obtain ⟨key, hkey, rfl⟩ := Option.map_eq_some_iff.mp h
    exact Or.inr ⟨key, not_kept_discard (haccepted hkey) hcon, rfl⟩
  | cleanup t p candidateId artifactKey =>
    simp only [carryOut] at h
    split at h
    · cases h
    · rename_i key hkey
      exact Or.inr ⟨key, not_kept_cleanup hkey, (Option.some.inj h).symm⟩

/-- **Every step keeps it**: objects fit their keys, kept objects stay, and a writer has done what it
    says. -/
def outline (store : Store) : Interleave.Outline (system store) Interleave.Program.Any where
  inv bucket := Journal.Fits (FitsKey store) bucket ∧ Journal.Keeps IsKept bucket
  asserts bucket w := w.Done store bucket
  grows := Grows
  stable hgrows h := h.later hgrows
  start := by
    intro bucket w _ hstart
    cases w with
    | put c => trivial
    | _ => cases hstart
  act := by
    intro s i reply w bucket' w' hinv hdone _ _ hact
    obtain ⟨rfl, hw⟩ | ⟨c, key, hkey, rfl, hw⟩ := Writer.act_cases hact
    · refine ⟨hinv, List.suffix_rfl, ?_⟩
      obtain ⟨c, e, rfl⟩ | ⟨c, key, rfl, rfl⟩ := hw
      · trivial
      · exact ⟨key, hdone.1, hdone.2, rfl⟩
    · have hfits : FitsKey store key (.content c) := fun _ => ⟨c, rfl, hkey⟩
      refine ⟨⟨hinv.1.put hfits, hinv.2.put⟩, Grows.one _ _, ?_⟩
      obtain ⟨e, rfl⟩ | rfl := hw
      · trivial
      · exact ⟨hkey, List.mem_cons_self⟩
  env := by
    intro s request bucket' hinv _ henv
    obtain ⟨key, put, hnone, rfl⟩ | ⟨key, hfree, rfl⟩ := Request.carryOut_cases henv
    · have hfits : FitsKey store key put := fun h => absurd hnone h
      exact ⟨⟨hinv.1.put hfits, hinv.2.put⟩, Grows.one _ _⟩
    · exact ⟨⟨hinv.1.drop, hinv.2.drop hfree⟩, Grows.one _ _⟩

theorem outline_holds {s : Interleave.Config Bucket Writer}
    (h : (system store).Reach Interleave.Program.Any fresh s) : (outline store).Holds s :=
  (outline store).reach h ⟨⟨Journal.Fits.nil, Journal.Keeps.nil⟩, fun _ hw => absurd hw List.not_mem_nil⟩

/-! ## Reading -/

theorem getBytes_ok {bucket : Bucket} {down : Bool} {t : Uuid} {body : List UInt8}
    (h : getBytes store bucket down t key = .ok body) :
    ∃ put, Journal.get bucket key = some put ∧ put.body = body := by
  obtain ⟨key', hkey, hrest⟩ := Fallible.bind_ok.mp h
  obtain rfl := Construction.validateKey_ok (Fallible.mapError_ok.mp hkey)
  obtain ⟨-, hrest⟩ | ⟨-, hrest⟩ := Fallible.ite_ok hrest
  · cases hrest
  split at hrest
  · cases hrest
  · rename_i put hget
    obtain ⟨-, hrest⟩ | ⟨-, hrest⟩ := Fallible.ite_ok hrest
    · cases hrest
    cases hrest
    exact ⟨put, hget, rfl⟩

theorem getBytes_of_get {bucket : Bucket} {t : Uuid} {put : Put} (hkey : validateKey t key = .ok key)
    (hget : Journal.get bucket key = some put) (hsize : put.body.length ≤ store.maxBytes) :
    getBytes store bucket false t key = .ok put.body := by
  rw [getBytes, hkey]
  simp only [Except.mapError, bind, Except.bind, Bool.false_eq_true, if_false, hget,
    if_neg (Nat.not_lt.mpr hsize)]

/-- **OBJECTS ARE WHAT THEIR KEYS SAY.**  Whatever writers, uploads and deletions have done to the bucket,
    and however their requests went: what is read under a key with an address has the digest that the
    key names, and was put there by a writer. -/
theorem content_addressed {s : Interleave.Config Bucket Writer}
    (h : (system store).Reach Interleave.Program.Any fresh s) {t : Uuid} {down : Bool} {digest : PyStr}
    {body : List UInt8} (haddress : address key = some digest)
    (hread : getBytes store s.store down t key = .ok body) :
    store.hexdigest body = digest ∧
      ∃ c : Content, c.key store = .ok key ∧ c.payload = body ∧ (key, some (.content c)) ∈ s.store := by
  obtain ⟨put, hget, rfl⟩ := getBytes_ok hread
  have hfits := (outline_holds h).1.1.get hget
  obtain ⟨c, rfl, hkey⟩ := hfits (by rw [haddress]; exact Option.some_ne_none _)
  exact ⟨address_content hkey haddress, c, hkey, rfl, Journal.mem_of_get hget⟩

/-! ## Web content -/

section Web

variable {t t' : Uuid} {snapshotId mediaType kind : PyStr} {payload : List UInt8}

/-- What `write_web_content` checks, and the key it writes. -/
theorem webKey_ok (h : (Content.web t snapshotId payload mediaType kind).key store = .ok key) :
    payload.length ≤ store.maxBytes ∧ validateKey t key = .ok key ∧
      key ∈ webKeys t (store.hexdigest payload) := by
  obtain ⟨-, h⟩ | ⟨hkind, h⟩ := Fallible.ite_ok h
  · cases h
  obtain ⟨-, h⟩ | ⟨hsize, h⟩ := Fallible.ite_ok h
  · cases h
  obtain ⟨digest, hdigest, h⟩ := Fallible.bind_ok.mp h
  obtain ⟨-, rfl⟩ := Construction.contentDigest_ok hdigest
  obtain rfl := Construction.validateKey_ok h
  refine ⟨Nat.not_lt.mp (not_or.mp hsize).2, h, ?_⟩
  rw [webKeys, ← digest_drop]
  exact List.mem_map.mpr ⟨kind, Decidable.not_not.mp (not_or.mp hkind).1, rfl⟩

theorem sha256Digest_digest (store : Store) (payload : List UInt8) :
    (store.sha256Digest payload).isSha256Digest = true := by
  obtain ⟨hlen, hhex⟩ := store.hex64 payload
  have hprefix : (lit "sha256:").isPrefixOf (store.sha256Digest payload) = true :=
    List.isPrefixOf_iff_prefix.mpr (List.prefix_append _ _)
  rw [isSha256Digest, hprefix, digest_drop, hlen, hhex]
  rfl

theorem sameDict_two {k k' v v' : PyStr} {d : List (PyStr × PyStr)} :
    sameDict [(k, v), (k', v')] d = (2 == d.length && (d.lookup k == some v && d.lookup k' == some v')) := by
  simp only [sameDict, List.all_cons, List.all_nil, Bool.and_true, List.length_cons, List.length_nil]

theorem lookup_scope (t : Uuid) : (tenantScope t).lookup (lit "visibility") = some (lit "tenant") ∧
    (tenantScope t).lookup (lit "tenant_id") = some t.str := ⟨rfl, rfl⟩

/-- A scope is the scope of one tenant. -/
theorem sameDict_scope_iff : sameDict (tenantScope t) (tenantScope t') = true ↔ t = t' := by
  obtain ⟨hvisibility, htenant⟩ := lookup_scope t'
  have hlength : (2 == (tenantScope t').length) = true := rfl
  rw [tenantScope, sameDict_two, hlength, hvisibility, htenant, Bool.true_and, Bool.and_eq_true,
    beq_iff_eq, beq_iff_eq]
  constructor
  · rintro ⟨-, h⟩
    exact (Uuid.str_inj (Option.some.inj h)).symm
  · rintro rfl
    exact ⟨rfl, rfl⟩

theorem address_web (h : (Content.web t snapshotId payload mediaType kind).key store = .ok key) :
    address key = some (store.hexdigest payload) ∧ IsKept key := by
  have hcon := construction_key h
  have hlast := own_last hcon id
  refine ⟨?_, Or.inl (area_of_key hcon hlast)⟩
  rw [address, split_key hcon hlast]
  rfl

/-- The checks of `read_web_content` on a descriptor that `write_web_content` returned. -/
theorem readWebContent_of_get {bucket : Bucket} {put : Put}
    (h : (Content.web t snapshotId payload mediaType kind).key store = .ok key)
    (hget : Journal.get bucket key = some put) (hbody : put.body = payload) :
    readWebContent store bucket false t (webDescriptor store t snapshotId payload mediaType key) =
      .ok payload := by
  obtain ⟨hsize, hvalid, hmem⟩ := webKey_ok h
  have hscope : sameDict (tenantScope t) (tenantScope t) = true := sameDict_scope_iff.mpr rfl
  have hdigest : Store.contentDigest (store.sha256Digest payload) = .ok (store.hexdigest payload) := by
    rw [Store.contentDigest, if_pos (sha256Digest_digest store payload), digest_drop]
  have hread : getBytes store bucket false t key = .ok payload := by
    rw [getBytes_of_get hvalid hget (hbody ▸ hsize), hbody]
  have hallowed : ¬ (key ∉ webKeys t (store.hexdigest payload) ∨ (none : Option PyStr) ≠ none) :=
    not_or.mpr ⟨not_not.mpr hmem, not_not.mpr rfl⟩
  have hagrees : ¬ (payload.length ≠ payload.length ∨
      store.sha256Digest payload ≠ store.sha256Digest payload) :=
    not_or.mpr ⟨not_not.mpr rfl, not_not.mpr rfl⟩
  simp only [readWebContent, webDescriptor, hscope, hdigest, hread, Except.mapError, bind, Except.bind,
    if_neg hallowed, Bool.true_eq_false, if_false]
  exact if_neg hagrees

/-- Another tenant is refused, whatever the bucket holds. -/
theorem readWebContent_foreign {bucket : Bucket} {down : Bool} (hne : t' ≠ t) :
    readWebContent store bucket down t' (webDescriptor store t snapshotId payload mediaType key) =
      .error (.error ⟨.artifactValidation, lit "web content tenant scope mismatch"⟩) := by
  have hscope : sameDict (tenantScope t) (tenantScope t') = false :=
    Bool.eq_false_iff.mpr fun h => hne (sameDict_scope_iff.mp h).symm
  rw [readWebContent]
  exact if_pos hscope

/-- **WEB CONTENT ROUND-TRIPS.**  Once `write_web_content` has returned a descriptor, its tenant reads the
    payload back with it, in every later state, unless SHA-256 collides on the two; and no other tenant
    gets past the scope. -/
theorem web_roundtrip {s : Interleave.Config Bucket Writer} {d : WebObjectDescriptor}
    (h : (system store).Reach Interleave.Program.Any fresh s)
    (hreturned : Writer.returned (.web t snapshotId payload mediaType kind) (.web d) ∈ s.procs)
    (hfree : ∀ put, Journal.get s.store d.objectKey = some put →
      store.hexdigest put.body = store.hexdigest payload → put.body = payload) :
    readWebContent store s.store false t d = .ok payload ∧
      ∀ t' down, t' ≠ t → readWebContent store s.store down t' d =
        .error (.error ⟨.artifactValidation, lit "web content tenant scope mismatch"⟩) := by
  obtain ⟨⟨hfits, hkeeps⟩, hdone⟩ := outline_holds h
  obtain ⟨key, hkey, hput, hanswer⟩ := hdone _ hreturned
  obtain rfl : d = webDescriptor store t snapshotId payload mediaType key := Written.web.inj hanswer
  obtain ⟨haddress, hkept⟩ := address_web hkey
  obtain ⟨newer, hget⟩ := Journal.exists_get hput (hkeeps key hkept)
  have hbody : newer.body = payload := hfree newer hget ((hfits.get hget).digest haddress)
  exact ⟨readWebContent_of_get hkey hget hbody, fun t' down hne => readWebContent_foreign hne⟩

end Web

/-! ## One capture -/

/-- A writer alone has written its content and read it back. -/
def writtenState (store : Store) (c : Content) (key : PyStr) : Interleave.Config Bucket Writer where
  store := [(key, some (.content c))]
  procs := [.returned c (c.written store key)]

theorem writtenState_reach (hkey : c.key store = .ok key) (hvalid : validateKey c.tenantId key = .ok key)
    (hsize : c.payload.length ≤ store.maxBytes) (hmatch : c.mismatch store c.payload = none) :
    (system store).Reach Interleave.Program.Any fresh (writtenState store c key) := by
  have hread : getBytes store [(key, some (.content c))] false c.tenantId key = .ok c.payload :=
    getBytes_of_get hvalid Journal.get_put hsize
  refine Interleave.Program.run_reach (system store)
    [.spawn (.put c), .act 0 .answered, .act 0 .answered] ?_
  simp [Interleave.Program.run, Interleave.Program.step, system, fresh, Writer.starts, Writer.act, hkey,
    Reply.down, hread, hmatch, writtenState]

def sampleContent : Content :=
  .web Construction.sampleTenant (lit "capture:a") (encoded (lit "content")) (lit "text/plain")
    (lit "text")

def sampleKey : PyStr :=
  tenantPrefix Construction.sampleTenant ++ lit "web/" ++ lit "text" ++ lit "/" ++
    lit "ed7002b439e9ac845f22357d822bac1444730fbdb6016d3ec9432297b9ec9f73"

theorem sampleContent_key : sampleContent.key Construction.sampleStore = .ok sampleKey := rfl

theorem sampleState_reach : (system Construction.sampleStore).Reach Interleave.Program.Any fresh
    (writtenState Construction.sampleStore sampleContent sampleKey) :=
  writtenState_reach sampleContent_key (webKey_ok sampleContent_key).2.1 (by decide) rfl

theorem content_addressed_capture :
    Construction.sampleStore.hexdigest (encoded (lit "content")) =
        lit "ed7002b439e9ac845f22357d822bac1444730fbdb6016d3ec9432297b9ec9f73" ∧
      ∃ c : Content, c.key Construction.sampleStore = .ok sampleKey ∧
        c.payload = encoded (lit "content") ∧
        (sampleKey, some (.content c)) ∈ [(sampleKey, some (Put.content sampleContent))] := by
  have hget : Journal.get [(sampleKey, some (Put.content sampleContent))] sampleKey =
      some (.content sampleContent) := Journal.get_put
  have hsize : sampleContent.payload.length ≤ Construction.sampleStore.maxBytes := by decide
  have hread := getBytes_of_get (webKey_ok sampleContent_key).2.1 hget hsize
  exact content_addressed sampleState_reach (address_web sampleContent_key).1 hread

theorem web_roundtrip_capture :
    ∃ d, readWebContent Construction.sampleStore [(sampleKey, some (.content sampleContent))] false
      Construction.sampleTenant d = .ok (encoded (lit "content")) := by
  refine ⟨_, (web_roundtrip sampleState_reach List.mem_cons_self fun put hget _ => ?_).1⟩
  obtain rfl : Put.content sampleContent = put := Option.some.inj hget
  rfl

end ControlPlane.Contents
