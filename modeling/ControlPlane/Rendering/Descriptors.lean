/-
  RENDER DESCRIPTORS: `_render_and_store` and `refresh_render_descriptor` of `apps/rendering/api.py`, over the
  bucket of all writers.

  A render is answered with a download URL that expires.  Its descriptor is kept elsewhere, and the route
  takes it back for a new URL: it builds the key again from the tenant and the digest, reads the object
  and hashes it.

  1. An object under such a key was put by a render of the tenant, and its bytes have the digest
     (`rendered_of_get`), so after its first two checks the route can only miss the object.
  2. `refresh_exact`: which descriptors are refreshed, and how the others are refused.
  3. `render_refreshes`: the descriptor of every answered render is one of these for good, and for no
     other tenant.

  The clock that `expires_at_ms` is taken from is left out.
-/
import ControlPlane.Orchestration.Contents

namespace ControlPlane.Rendering

open Keys PyStr Contents

/-! ## Requests and answers -/

inductive Renderer where
  | plantuml | diagrams
  deriving DecidableEq, Repr

/-- The content types of a descriptor. -/
inductive RenderType where
  | svg | png
  deriving DecidableEq, Repr

def RenderType.text : RenderType → PyStr
  | svg => lit "image/svg+xml"
  | png => lit "image/png"

def RenderType.extension : RenderType → PyStr
  | svg => lit "svg"
  | png => lit "png"

/-- One of `"\n"`, `"\r"`, `"\0"`. -/
def isBreak (c : CodePoint) : Bool := c.val == 10 || c.val == 13 || c.val == 0

/-- `identity_is_bounded`. -/
def identityIsBounded (value : PyStr) : Bool :=
  !value.blank && decide (value.length ≤ 512) && !value.any isBreak

/-- `RenderDescriptorRequest`, with what its validators check. -/
structure RenderDescriptorRequest where
  renderer : Renderer
  artifactId : PyStr
  artifactKey : PyStr
  payloadDigest : PyStr
  contentType : RenderType
  bounded : identityIsBounded artifactId = true ∧ identityIsBounded artifactKey = true ∧
    identityIsBounded payloadDigest = true
  agree : renderer = .plantuml → contentType = .svg

/-- `RenderArtifact`. -/
structure RenderArtifact where
  artifactId : PyStr
  artifactKey : PyStr
  payloadDigest : PyStr
  contentType : PyStr
  byteLength : Nat
  downloadUrl : PyStr
  deriving DecidableEq

/-- `RefreshedRenderArtifact`, but for `expires_at_ms`. -/
structure RefreshedRenderArtifact where
  artifactId : PyStr
  artifactKey : PyStr
  payloadDigest : PyStr
  contentType : RenderType
  byteLength : Nat
  downloadUrl : PyStr
  deriving DecidableEq

/-- An answer, an `HttpError`, or an exception that leaves the route. -/
inductive Answer (α : Type) where
  | ok (a : α)
  | httpError (status : Nat) (detail : PyStr)
  | uncaught (e : PyError)
  deriving DecidableEq

/-! ## The routes -/

/-- What answers a call: the settings, the bucket's service, and the signing of URLs. -/
structure Service where
  configured : Bool
  down : Bool
  sign : PyStr → Option PyStr

/-- `ArtifactStore.from_settings()`. -/
def Service.fromSettings (service : Service) : Except Raised Unit :=
  if service.configured then .ok () else .error (.error { cls := .artifactConfiguration })

/-- `presign_get`. -/
def Service.presignGet (service : Service) (tenantId : Uuid) (artifactKey : PyStr) :
    Except Raised PyStr := do
  let key ← (validateKey tenantId artifactKey).mapError .error
  match service.sign key with
  | none => .error (.error ⟨.artifactStorage, lit "artifact storage presign GET failed"⟩)
  | some url => .ok url

/-- `_render_and_store` behind `write_render_artifact`, which has returned `stored`. -/
def renderArtifact (service : Service) (tenantId : Uuid) (stored : StoredContentArtifact) :
    Except Raised RenderArtifact := do
  let downloadUrl ← service.presignGet tenantId stored.artifactKey
  .ok
    { artifactId := stored.payloadDigest
      artifactKey := stored.artifactKey
      payloadDigest := stored.payloadDigest
      contentType := stored.mediaType
      byteLength := stored.byteLength
      downloadUrl := downloadUrl }

/-- The `try` block of `refresh_render_descriptor`, and the artifact it answers with. -/
def refreshedArtifact (store : Store) (bucket : Bucket) (service : Service) (tenantId : Uuid)
    (body : RenderDescriptorRequest) : Except Raised RefreshedRenderArtifact := do
  if body.artifactId ≠ body.payloadDigest ∨ body.payloadDigest.isSha256Digest = false then
    invalid "render artifact digest is malformed"
  else
    service.fromSettings
    let expectedKey ← (Store.renderArtifactKey tenantId body.payloadDigest
      body.contentType.extension).mapError .error
    if body.artifactKey ≠ expectedKey then
      invalid "artifact_key is outside the admitted tenant render scope"
    else
      let payload ← getBytes store bucket service.down tenantId body.artifactKey
      if store.sha256Digest payload ≠ body.payloadDigest then
        invalid "render artifact bytes do not match the durable payload digest"
      else
        let downloadUrl ← service.presignGet tenantId body.artifactKey
        .ok
          { artifactId := body.artifactId
            artifactKey := body.artifactKey
            payloadDigest := body.payloadDigest
            contentType := body.contentType
            byteLength := payload.length
            downloadUrl := downloadUrl }

/-- `refresh_render_descriptor`, for the tenant of the machine key. -/
def refreshRenderDescriptor (store : Store) (bucket : Bucket) (service : Service) (tenantId : Uuid)
    (body : RenderDescriptorRequest) : Answer (Renderer × RefreshedRenderArtifact) :=
  match refreshedArtifact store bucket service tenantId body with
  | .ok artifact => .ok (body.renderer, artifact)
  | .error .notFound => .httpError 404 (lit "render artifact missing")
  | .error (.error e) =>
      if e.caughtBy [.valueError, .artifactValidation] then .httpError 422 e.message
      else if e.caughtBy [.artifactConfiguration, .artifactStorage, .osError] then
        .httpError 503 (lit "render artifact unavailable")
      else .uncaught e

/-! ## What a descriptor names -/

section Named

variable {store : Store} {bucket : Bucket} {service : Service} {t t' : Uuid}
  {body : RenderDescriptorRequest} {key : PyStr}

/-- The key of a render. -/
def renderKey (tenantId : Uuid) (payloadDigest : PyStr) (contentType : RenderType) : PyStr :=
  tenantPrefix tenantId ++ lit "renders/" ++ payloadDigest.drop 7 ++ lit "." ++ contentType.extension

/-- The descriptor is one of this tenant: its id is its digest, and its key is the key of the two. -/
def Names (tenantId : Uuid) (body : RenderDescriptorRequest) : Prop :=
  body.artifactId = body.payloadDigest ∧ body.payloadDigest.isSha256Digest = true ∧
    body.artifactKey = renderKey tenantId body.payloadDigest body.contentType

/-- A render of the tenant has put an object under the key. -/
def Rendered (bucket : Bucket) (tenantId : Uuid) (key : PyStr) : Prop :=
  ∃ payload mediaType, (key, some (.content (.render tenantId payload mediaType))) ∈ bucket

theorem renderArtifactKey_eq {digest : PyStr} (contentType : RenderType)
    (hdigest : digest.isSha256Digest = true) :
    Store.renderArtifactKey t digest contentType.extension = .ok (renderKey t digest contentType) := by
  have hallowed : ¬ contentType.extension ∉ [lit "png", lit "svg"] := by
    cases contentType <;> decide
  simp only [Store.renderArtifactKey, if_neg hallowed, Store.contentDigest, if_pos hdigest]
  rfl

/-- The construction of the key. -/
def named (tenantId : Uuid) (body : RenderDescriptorRequest) : Construction :=
  .render tenantId body.payloadDigest body.contentType.extension

theorem named_key (store : Store) (h : Names t body) : (named t body).key store = .ok body.artifactKey := by
  rw [h.2.2]
  exact renderArtifactKey_eq body.contentType h.2.1

/-- The address of the key is the digest of the descriptor, and nobody deletes the object. -/
theorem address_named (h : Names t body) :
    address body.artifactKey = some (body.payloadDigest.drop 7) ∧ IsKept body.artifactKey := by
  have hkey := named_key Construction.sampleStore h
  have hlast := own_last hkey id
  refine ⟨?_, Or.inr (Or.inl (area_of_key hkey hlast))⟩
  rw [address, split_key hkey hlast]
  exact congrArg some (List.take_left' (digest_hex h.2.1).1)

/-- A writer of the key was a render of the tenant. -/
theorem render_of_key {c : Content} (h : Names t body) (hc : c.key store = .ok body.artifactKey) :
    ∃ payload mediaType, c = .render t payload mediaType := by
  obtain ⟨hnamed, hpath⟩ := Construction.key_path (named_key store h)
  obtain ⟨hadmitted, hpath'⟩ := Construction.key_path (construction_key hc)
  obtain ⟨htenant, harea, -⟩ := Construction.same_key hadmitted hnamed (hpath'.symm.trans hpath)
  cases c with
  | render t' payload mediaType =>
    obtain rfl : t' = t := htenant
    exact ⟨payload, mediaType, rfl⟩
  | _ => cases harea

/-- The digits of a digest and its prefix. -/
theorem sha256Digest_eq {digest : PyStr} {payload : List UInt8} (hdigest : digest.isSha256Digest = true)
    (h : store.hexdigest payload = digest.drop 7) : store.sha256Digest payload = digest :=
  digest_inj (sha256Digest_digest store payload) hdigest ((digest_drop payload).trans h)

/-- **What is there was rendered**, and its bytes have the digest. -/
theorem rendered_of_get {put : Put} (hfits : Journal.Fits (FitsKey store) bucket) (h : Names t body)
    (hget : Journal.get bucket body.artifactKey = some put) :
    Rendered bucket t body.artifactKey ∧ put.body.length ≤ store.maxBytes ∧
      store.sha256Digest put.body = body.payloadDigest := by
  obtain ⟨haddress, -⟩ := address_named h
  obtain ⟨c, rfl, hkey⟩ := hfits.get hget (by rw [haddress]; exact Option.some_ne_none _)
  obtain ⟨payload, mediaType, rfl⟩ := render_of_key h hkey
  refine ⟨⟨payload, mediaType, Journal.mem_of_get hget⟩, ?_,
    sha256Digest_eq h.2.1 (address_content hkey haddress)⟩
  simp only [Content.key] at hkey
  split at hkey
  · cases hkey
  · obtain ⟨-, hkey⟩ | ⟨hsize, -⟩ := Fallible.ite_ok hkey
    · cases hkey
    exact Nat.not_lt.mp (not_or.mp hsize).2

/-! ## Refreshing -/

/-- The service answers, and signs. -/
def Service.Works (service : Service) : Prop :=
  service.configured = true ∧ service.down = false ∧ ∀ key, ∃ url, service.sign key = some url

theorem presignGet_of_sign {url : PyStr} (hkey : validateKey t key = .ok key)
    (hsign : service.sign key = some url) : service.presignGet t key = .ok url := by
  rw [Service.presignGet, hkey]
  simp only [Except.mapError, bind, Except.bind, hsign]

theorem valid_named (h : Names t body) : validateKey t body.artifactKey = .ok body.artifactKey :=
  (Construction.accepted_iff (named_key Construction.sampleStore h)).mpr trivial

/-- What got through the `try` block. -/
theorem refreshedArtifact_ok {artifact : RefreshedRenderArtifact}
    (h : refreshedArtifact store bucket service t body = .ok artifact) :
    Names t body ∧ ∃ put, Journal.get bucket body.artifactKey = some put := by
  obtain ⟨-, h⟩ | ⟨hdigest, h⟩ := Fallible.ite_ok h
  · cases h
  rw [not_or, Decidable.not_not, Bool.not_eq_false] at hdigest
  obtain ⟨-, -, h⟩ := Fallible.bind_ok.mp h
  obtain ⟨expectedKey, hexpected, h⟩ := Fallible.bind_ok.mp h
  rw [renderArtifactKey_eq body.contentType hdigest.2] at hexpected
  obtain rfl := Except.ok.inj hexpected
  obtain ⟨-, h⟩ | ⟨hkey, h⟩ := Fallible.ite_ok h
  · cases h
  obtain ⟨payload, hread, -⟩ := Fallible.bind_ok.mp h
  obtain ⟨put, hget, -⟩ := getBytes_ok hread
  exact ⟨⟨hdigest.1, hdigest.2, Decidable.not_not.mp hkey⟩, put, hget⟩

/-- A descriptor of the tenant gets to the object, and only that can be missing. -/
theorem refreshedArtifact_named (hworks : service.Works) (h : Names t body) :
    refreshedArtifact store bucket service t body =
      (do
        let payload ← getBytes store bucket false t body.artifactKey
        if store.sha256Digest payload ≠ body.payloadDigest then
          invalid "render artifact bytes do not match the durable payload digest"
        else
          let downloadUrl ← service.presignGet t body.artifactKey
          .ok ⟨body.artifactId, body.artifactKey, body.payloadDigest, body.contentType, payload.length,
            downloadUrl⟩) := by
  obtain ⟨hconfigured, hup, -⟩ := hworks
  have hdigest : ¬ (body.artifactId ≠ body.payloadDigest ∨ body.payloadDigest.isSha256Digest = false) :=
    not_or.mpr ⟨not_not.mpr h.1, Bool.not_eq_false _ ▸ h.2.1⟩
  have hkey : ¬ body.artifactKey ≠ renderKey t body.payloadDigest body.contentType :=
    not_not.mpr h.2.2
  rw [refreshedArtifact, if_neg hdigest, Service.fromSettings, if_pos hconfigured,
    renderArtifactKey_eq body.contentType h.2.1, hup]
  simp only [Except.mapError, bind, Except.bind, if_neg hkey]

theorem refreshed_of_get {put : Put} {url : PyStr} (hfits : Journal.Fits (FitsKey store) bucket)
    (hworks : service.Works) (h : Names t body)
    (hget : Journal.get bucket body.artifactKey = some put)
    (hsign : service.sign body.artifactKey = some url) :
    refreshRenderDescriptor store bucket service t body = .ok (body.renderer,
      ⟨body.artifactId, body.artifactKey, body.payloadDigest, body.contentType, put.body.length, url⟩) := by
  obtain ⟨-, hsize, hdigest⟩ := rendered_of_get hfits h hget
  have hvalid := valid_named h
  rw [refreshRenderDescriptor, refreshedArtifact_named hworks h, getBytes_of_get hvalid hget hsize]
  simp only [bind, Except.bind, presignGet_of_sign hvalid hsign, hdigest, ne_eq, not_true, if_false]

theorem missing_of_get (hworks : service.Works) (h : Names t body)
    (hget : Journal.get bucket body.artifactKey = none) :
    refreshRenderDescriptor store bucket service t body =
      .httpError 404 (lit "render artifact missing") := by
  have hread : getBytes store bucket false t body.artifactKey = .error .notFound := by
    rw [getBytes, valid_named h]
    simp only [Except.mapError, bind, Except.bind, hget, Bool.false_eq_true, if_false]
  rw [refreshRenderDescriptor, refreshedArtifact_named hworks h, hread]
  rfl

/-- How a descriptor is refused that is none of this tenant. -/
theorem refused_of_not_names (hconfigured : service.configured = true) (h : ¬ Names t body) :
    refreshRenderDescriptor store bucket service t body = .httpError 422
      (if body.artifactId = body.payloadDigest ∧ body.payloadDigest.isSha256Digest = true then
        lit "artifact_key is outside the admitted tenant render scope"
      else lit "render artifact digest is malformed") := by
  by_cases hdigest : body.artifactId = body.payloadDigest ∧ body.payloadDigest.isSha256Digest = true
  · have hformed : ¬ (body.artifactId ≠ body.payloadDigest ∨
        body.payloadDigest.isSha256Digest = false) :=
      not_or.mpr ⟨not_not.mpr hdigest.1, Bool.not_eq_false _ ▸ hdigest.2⟩
    have hkey : body.artifactKey ≠ renderKey t body.payloadDigest body.contentType :=
      fun hkey => h ⟨hdigest.1, hdigest.2, hkey⟩
    rw [if_pos hdigest, refreshRenderDescriptor, refreshedArtifact, if_neg hformed,
      Service.fromSettings, if_pos hconfigured, renderArtifactKey_eq body.contentType hdigest.2]
    simp only [Except.mapError, bind, Except.bind, if_pos hkey]
    rfl
  · have hmalformed : body.artifactId ≠ body.payloadDigest ∨
        body.payloadDigest.isSha256Digest = false := by
      rwa [not_and_or, Bool.not_eq_true] at hdigest
    rw [if_neg hdigest, refreshRenderDescriptor, refreshedArtifact, if_pos hmalformed]
    rfl

/-- What a tenant has rendered is there. -/
theorem get_of_rendered (hkeeps : Journal.Keeps IsKept bucket) (h : Names t body)
    (hrendered : Rendered bucket t body.artifactKey) :
    ∃ put, Journal.get bucket body.artifactKey = some put := by
  obtain ⟨payload, mediaType, hput⟩ := hrendered
  exact Journal.exists_get hput (hkeeps _ (address_named h).2)

/-- **EXACTLY THE TENANT'S OWN RENDERS ARE REFRESHED.**  In every reachable state, whatever else is done to the
    bucket: an answer, of any service, is of an object that a render of the tenant has put.  When the
    service works, each of these is answered with the length of its object, a descriptor of the tenant
    that nothing was rendered for is missing, and every other descriptor is refused. -/
theorem refresh_exact {s : Interleave.Config Bucket Writer}
    (h : (system store).Reach Interleave.Program.Any fresh s) (t : Uuid)
    (body : RenderDescriptorRequest) :
    (∀ service answer, refreshRenderDescriptor store s.store service t body = .ok answer →
      Names t body ∧ Rendered s.store t body.artifactKey) ∧
    ∀ service : Service, service.Works →
      (Names t body → Rendered s.store t body.artifactKey →
        ∃ put url, Journal.get s.store body.artifactKey = some put ∧
          refreshRenderDescriptor store s.store service t body = .ok (body.renderer,
            ⟨body.artifactId, body.artifactKey, body.payloadDigest, body.contentType, put.body.length,
              url⟩)) ∧
      (Names t body → ¬ Rendered s.store t body.artifactKey →
        refreshRenderDescriptor store s.store service t body =
          .httpError 404 (lit "render artifact missing")) ∧
      (¬ Names t body → ∃ detail,
        refreshRenderDescriptor store s.store service t body = .httpError 422 detail) := by
  obtain ⟨⟨hfits, hkeeps⟩, -⟩ := outline_holds h
  constructor
  · intro service answer hanswer
    unfold refreshRenderDescriptor at hanswer
    split at hanswer
    · rename_i artifact hartifact
      obtain ⟨hnames, put, hget⟩ := refreshedArtifact_ok hartifact
      exact ⟨hnames, (rendered_of_get hfits hnames hget).1⟩
    · cases hanswer
    · split at hanswer
      · cases hanswer
      · split at hanswer <;> cases hanswer
  · intro service hworks
    refine ⟨fun hnames hrendered => ?_, fun hnames hnot => ?_, fun hnot => ?_⟩
    · obtain ⟨put, hget⟩ := get_of_rendered hkeeps hnames hrendered
      obtain ⟨url, hsign⟩ := hworks.2.2 body.artifactKey
      exact ⟨put, url, hget, refreshed_of_get hfits hworks hnames hget hsign⟩
    · cases hget : Journal.get s.store body.artifactKey with
      | none => exact missing_of_get hworks hnames hget
      | some put => exact absurd (rendered_of_get hfits hnames hget).1 hnot
    · exact ⟨_, refused_of_not_names hworks.1 hnot⟩

/-! ## The descriptor of a render -/

theorem bounded_of_plain {value : PyStr} (hne : value ≠ []) (hlen : value.length ≤ 512)
    (hplain : ∀ c ∈ value, 33 ≤ c.val ∧ c.val ≤ 126) : identityIsBounded value = true := by
  have hblank : value.blank = false := by
    obtain ⟨c, hc⟩ := List.exists_mem_of_ne_nil value hne
    refine List.all_eq_false.mpr ⟨c, hc, ?_⟩
    have hcplain := hplain c hc
    simp only [isSpace, Bool.or_eq_true, Bool.and_eq_true, decide_eq_true_eq, beq_iff_eq]
    omega
  have hbreak : value.any isBreak = false := by
    refine List.any_eq_false.mpr fun c hc => ?_
    have hcplain := hplain c hc
    simp only [isBreak, Bool.or_eq_true, beq_iff_eq]
    omega
  rw [identityIsBounded, hblank, hbreak, decide_eq_true hlen]
  rfl

theorem plain_of_name {value : PyStr} (h : value.all isNameChar = true) :
    ∀ c ∈ value, 33 ≤ c.val ∧ c.val ≤ 126 := by
  intro c hc
  have hname := List.all_eq_true.mp h c hc
  simp only [isNameChar, Bool.or_eq_true, Bool.and_eq_true, decide_eq_true_eq, beq_iff_eq] at hname
  omega

theorem digest_bounded {digest : PyStr} (h : digest.isSha256Digest = true) :
    identityIsBounded digest = true := by
  obtain ⟨hlen, hhex⟩ := digest_hex h
  have hprefix : lit "sha256:" <+: digest := by
    simp only [isSha256Digest, Bool.and_eq_true] at h
    exact List.isPrefixOf_iff_prefix.mp h.1.1
  obtain ⟨digits, rfl⟩ := hprefix
  rw [List.drop_left' (by decide)] at hlen hhex
  have hfront : ((lit "sha256:").all fun c => decide (33 ≤ c.val ∧ c.val ≤ 126)) = true := by decide
  refine bounded_of_plain (List.append_ne_nil_of_left_ne_nil (by decide) _) ?_ fun c hc => ?_
  · rw [List.length_append, hlen]
    decide
  · rcases List.mem_append.mp hc with hc | hc
    · exact of_decide_eq_true (List.all_eq_true.mp hfront c hc)
    · exact plain_of_name (name_of_hex hhex) c hc

theorem key_bounded {c : Construction} (hc : c.key store = .ok key) (hown : ¬ c.Foreign)
    (hvalid : validateKey c.tenantId key = .ok key) : identityIsBounded key = true := by
  obtain ⟨hadmitted, hpath⟩ := Construction.key_path hc
  obtain ⟨hlen, -, -, hinside⟩ := validateKey_ok_iff.mp hvalid
  have hslash : lit "/" ≠ [] := by decide
  have hne : key ≠ [] := by
    rintro rfl
    exact List.append_ne_nil_of_right_ne_nil _ hslash (List.prefix_nil.mp hinside)
  refine bounded_of_plain hne hlen fun d hd => ?_
  by_cases hslash : d = slash
  · rw [hslash]
    decide
  · rw [hpath, mem_path hslash] at hd
    rcases hd with ⟨segment, hsegment, hd⟩ | hd
    · exact plain_of_name (Construction.front_name hadmitted segment hsegment) d hd
    · exact plain_of_name (Construction.last_name hadmitted hown) d hd

/-- The media type of a render that was written. -/
theorem renderType_of_key {payload : List UInt8} {mediaType : PyStr}
    (h : (Content.render t payload mediaType).key store = .ok key) :
    ∃ contentType : RenderType, contentType.text = mediaType ∧
      key = renderKey t (store.sha256Digest payload) contentType := by
  simp only [Content.key] at h
  split at h
  · cases h
  · rename_i extension hextension
    obtain ⟨-, h⟩ | ⟨-, h⟩ := Fallible.ite_ok h
    · cases h
    have hdigest := sha256Digest_digest store payload
    unfold renderExtension at hextension
    split at hextension
    · rename_i hpng
      obtain rfl := Option.some.inj hextension
      exact ⟨.png, hpng.symm, (Except.ok.inj (h.symm.trans (renderArtifactKey_eq .png hdigest)))⟩
    · split at hextension
      · rename_i hsvg
        obtain rfl := Option.some.inj hextension
        exact ⟨.svg, hsvg.symm, (Except.ok.inj (h.symm.trans (renderArtifactKey_eq .svg hdigest)))⟩
      · cases hextension

/-- The descriptor that goes with an artifact. -/
structure DescribedBy (body : RenderDescriptorRequest) (artifact : RenderArtifact) : Prop where
  artifactId : body.artifactId = artifact.artifactId
  artifactKey : body.artifactKey = artifact.artifactKey
  payloadDigest : body.payloadDigest = artifact.payloadDigest
  contentType : body.contentType.text = artifact.contentType

/-- What `_render_and_store` answers with. -/
theorem renderArtifact_ok {stored : StoredContentArtifact} {artifact : RenderArtifact}
    (h : renderArtifact service t stored = .ok artifact) : ∃ url, artifact =
      ⟨stored.payloadDigest, stored.artifactKey, stored.payloadDigest, stored.mediaType,
        stored.byteLength, url⟩ := by
  obtain ⟨url, -, h⟩ := Fallible.bind_ok.mp h
  exact ⟨url, (Except.ok.inj h).symm⟩

/-- **A RENDER CAN BE REFRESHED FOR GOOD.**  The artifact that a render was answered with has a valid
    descriptor, and in every later state the tenant that rendered it gets a new URL for it, with the
    length of the payload unless SHA-256 collides; every other tenant is refused. -/
theorem render_refreshes {s : Interleave.Config Bucket Writer} {payload : List UInt8}
    {mediaType : PyStr} {stored : StoredContentArtifact} {artifact : RenderArtifact}
    {renderer : Renderer} (h : (system store).Reach Interleave.Program.Any fresh s)
    (hreturned : Writer.returned (.render t payload mediaType) (.stored stored) ∈ s.procs)
    (hartifact : renderArtifact service t stored = .ok artifact)
    (hrenderer : renderer = .plantuml → mediaType = lit "image/svg+xml") :
    ∃ body : RenderDescriptorRequest, body.renderer = renderer ∧ DescribedBy body artifact ∧
      (∀ later : Service, later.Works → ∃ refreshed,
        refreshRenderDescriptor store s.store later t body = .ok (renderer, refreshed) ∧
          ((∀ put, Journal.get s.store artifact.artifactKey = some put →
              store.hexdigest put.body = store.hexdigest payload → put.body = payload) →
            refreshed.byteLength = artifact.byteLength)) ∧
      ∀ t' later, t' ≠ t → later.configured = true →
        refreshRenderDescriptor store s.store later t' body =
          .httpError 422 (lit "artifact_key is outside the admitted tenant render scope") := by
  obtain ⟨⟨hfits, hkeeps⟩, hdone⟩ := outline_holds h
  obtain ⟨key, hkey, hput, hanswer⟩ := hdone _ hreturned
  obtain rfl : stored = storedArtifact store payload mediaType key := Written.stored.inj hanswer
  obtain ⟨url, rfl⟩ := renderArtifact_ok hartifact
  obtain ⟨contentType, rfl, rfl⟩ := renderType_of_key hkey
  have hdigest := sha256Digest_digest store payload
  have hcon := construction_key hkey
  have hvalid := (Construction.accepted_iff hcon).mpr trivial
  have hagree : renderer = .plantuml → contentType = .svg := by
    intro hplantuml
    have hsvg := hrenderer hplantuml
    cases contentType with
    | svg => rfl
    | png => exact absurd hsvg (by decide)
  let body : RenderDescriptorRequest :=
    { renderer := renderer
      artifactId := store.sha256Digest payload
      artifactKey := renderKey t (store.sha256Digest payload) contentType
      payloadDigest := store.sha256Digest payload
      contentType := contentType
      bounded := ⟨digest_bounded hdigest, key_bounded hcon id hvalid, digest_bounded hdigest⟩
      agree := hagree }
  have hnames : Names t body := ⟨rfl, hdigest, rfl⟩
  refine ⟨body, rfl, ⟨rfl, rfl, rfl, rfl⟩, fun later hworks => ?_, fun t' later hne hconfigured => ?_⟩
  · obtain ⟨put, hget⟩ := get_of_rendered hkeeps hnames ⟨payload, _, hput⟩
    obtain ⟨url', hsign⟩ := hworks.2.2 body.artifactKey
    refine ⟨_, refreshed_of_get hfits hworks hnames hget hsign, fun hfree => ?_⟩
    have hbody : store.hexdigest put.body = store.hexdigest payload := by
      rw [(hfits.get hget).digest (address_named hnames).1]
      exact digest_drop payload
    rw [hfree put hget hbody]
    rfl
  · have hforeign : ¬ Names t' body := by
      intro hnames'
      have hvalid' := valid_named hnames'
      exact hne (one_tenant hvalid' (valid_named hnames))
    rw [refused_of_not_names hconfigured hforeign, if_pos ⟨rfl, hdigest⟩]

end Named

/-! ## One render -/

def sampleRender : Content :=
  .render Construction.sampleTenant (encoded (lit "<svg/>")) (lit "image/svg+xml")

def sampleDigest : PyStr :=
  lit "sha256:ed7002b439e9ac845f22357d822bac1444730fbdb6016d3ec9432297b9ec9f73"

def sampleRenderKey : PyStr := renderKey Construction.sampleTenant sampleDigest .svg

theorem sampleRender_key : sampleRender.key Construction.sampleStore = .ok sampleRenderKey := rfl

theorem sampleRender_valid :
    validateKey Construction.sampleTenant sampleRenderKey = .ok sampleRenderKey :=
  (Construction.accepted_iff (construction_key sampleRender_key)).mpr trivial

theorem sampleRender_reach : (system Construction.sampleStore).Reach Interleave.Program.Any fresh
    (writtenState Construction.sampleStore sampleRender sampleRenderKey) :=
  writtenState_reach sampleRender_key sampleRender_valid (by decide) rfl

def sampleService : Service := ⟨true, false, some⟩

theorem sampleService_works : sampleService.Works := ⟨rfl, rfl, fun key => ⟨key, rfl⟩⟩

theorem sampleDigest_digest : sampleDigest.isSha256Digest = true := by decide

def sampleDescriptor : RenderDescriptorRequest where
  renderer := .plantuml
  artifactId := sampleDigest
  artifactKey := sampleRenderKey
  payloadDigest := sampleDigest
  contentType := .svg
  bounded := ⟨digest_bounded sampleDigest_digest,
    key_bounded (construction_key sampleRender_key) id sampleRender_valid,
    digest_bounded sampleDigest_digest⟩
  agree _ := rfl

theorem refresh_exact_sample : ∃ put url,
    Journal.get [(sampleRenderKey, some (Put.content sampleRender))] sampleRenderKey = some put ∧
      refreshRenderDescriptor Construction.sampleStore
          [(sampleRenderKey, some (.content sampleRender))] sampleService Construction.sampleTenant
          sampleDescriptor =
        .ok (.plantuml, ⟨sampleDigest, sampleRenderKey, sampleDigest, .svg, put.body.length, url⟩) :=
  ((refresh_exact sampleRender_reach Construction.sampleTenant sampleDescriptor).2 sampleService
    sampleService_works).1 ⟨rfl, sampleDigest_digest, rfl⟩ ⟨_, _, List.mem_cons_self⟩

theorem render_refreshes_sample : ∃ body : RenderDescriptorRequest, body.renderer = .plantuml ∧
    body.artifactKey = sampleRenderKey ∧ ∃ refreshed,
      refreshRenderDescriptor Construction.sampleStore
        [(sampleRenderKey, some (.content sampleRender))] sampleService Construction.sampleTenant body =
          .ok (.plantuml, refreshed) := by
  have hsigned : sampleService.presignGet Construction.sampleTenant sampleRenderKey =
      .ok sampleRenderKey := presignGet_of_sign sampleRender_valid rfl
  let stored := storedArtifact Construction.sampleStore (encoded (lit "<svg/>")) (lit "image/svg+xml")
    sampleRenderKey
  have hartifact : renderArtifact sampleService Construction.sampleTenant stored =
      .ok ⟨stored.payloadDigest, stored.artifactKey, stored.payloadDigest, stored.mediaType,
        stored.byteLength, sampleRenderKey⟩ := by
    rw [renderArtifact]
    exact congrArg (· >>= _) hsigned
  obtain ⟨body, hrenderer, hdescribed, hrefresh, -⟩ :=
    render_refreshes sampleRender_reach List.mem_cons_self hartifact fun _ => rfl
  obtain ⟨refreshed, hok, -⟩ := hrefresh sampleService sampleService_works
  exact ⟨body, hrenderer, hdescribed.artifactKey, refreshed, hok⟩

end ControlPlane.Rendering
