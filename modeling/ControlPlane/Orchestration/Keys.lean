/-
  STORAGE KEYS: `validate_key` and the key constructors of `apps/orchestration/artifacts.py`, with
  `_input_key` of the extraction planner and `_incoming_key` of the training tasks.

  Every constructed key is a PATH: segments, each with a slash behind it, and a last part (`key_path`).
  The second segment is the tenant and the third names the purpose.
-/
import ControlPlane.Fallible
import ControlPlane.JsonWrite
import ControlPlane.PyError
import ControlPlane.Utf8

namespace ControlPlane.Keys

open PyStr

/-! ## UUIDs -/

/-- A `UUID`. -/
structure Uuid where
  int : Nat
  bounded : int < 16 ^ 32
  deriving DecidableEq

def hexDigit (n : Nat) : CodePoint := Fin.ofNat 0x110000 (if n < 10 then 48 + n else 87 + n)

/-- The last `k` hexadecimal digits; `"%032x" % n` is 32 of them. -/
def hexDigits : Nat → Nat → PyStr
  | 0, _ => []
  | k + 1, n => hexDigits k (n / 16) ++ [hexDigit (n % 16)]

/-- `str(uuid)`. -/
def Uuid.str (u : Uuid) : PyStr :=
  let h := hexDigits 32 u.int
  slice h 0 8 ++ lit "-" ++ slice h 8 12 ++ lit "-" ++ slice h 12 16 ++ lit "-" ++
    slice h 16 20 ++ lit "-" ++ slice h 20 32

/-! ## Admission of keys -/

def slash : CodePoint := 0x2F

def backslash : CodePoint := 0x5C

/-- `raise ArtifactValidationError(…)`. -/
def refuse {α : Type} (detail : String) : Except PyError α :=
  .error ⟨.artifactValidation, lit detail⟩

def tenantPrefix (tenantId : Uuid) : PyStr := lit "tenants/" ++ tenantId.str ++ lit "/"

/-- `validate_key`. -/
def validateKey (tenantId : Uuid) (artifactKey : PyStr) : Except PyError PyStr :=
  if artifactKey = [] then refuse "artifact_key is required"
  else if 512 < artifactKey.length ∨ backslash ∈ artifactKey ∨
      lit ".." ∈ artifactKey.splitOn slash then refuse "artifact_key is malformed"
  else if ¬ tenantPrefix tenantId <+: artifactKey then
    refuse "artifact_key is outside the admitted tenant prefix"
  else .ok artifactKey

/-! ## Construction of keys -/

/-- What the constructors use of the store: SHA-256 in hexadecimal digits, and its limit. -/
structure Store where
  hexdigest : List UInt8 → PyStr
  hex64 : ∀ raw, (hexdigest raw).length = 64 ∧ (hexdigest raw).all isHexDigit = true
  maxBytes : Nat

/-- One of `abcdefghijklmnopqrstuvwxyz0123456789-_.`. -/
def isNameChar (c : CodePoint) : Bool :=
  (97 ≤ c.val && c.val ≤ 122) || (48 ≤ c.val && c.val ≤ 57) || c.val == 45 || c.val == 95 ||
    c.val == 46

namespace Store

variable (store : Store)

/-- `hashlib.sha256(text.encode("utf-8")).hexdigest()`. -/
def textHash (text : PyStr) : Except PyError PyStr :=
  match text.encode with
  | none => .error { cls := .unicodeEncodeError }
  | some raw => .ok (store.hexdigest raw)

/-- `sha256_digest`. -/
def sha256Digest (payload : List UInt8) : PyStr := lit "sha256:" ++ store.hexdigest payload

/-- `_content_digest`; behind the prefix, `removeprefix` is a `drop`. -/
def contentDigest (value : PyStr) : Except PyError PyStr :=
  if value.isSha256Digest then .ok (value.drop 7)
  else refuse "artifact identity must be a sha256 digest"

/-- `allocate_input_key`, with what `uuid4()` gives. -/
def allocateInputKey (tenantId uuid4 : Uuid) : PyStr :=
  tenantPrefix tenantId ++ lit "inputs/" ++ uuid4.str ++ lit ".arrow"

def outputKey (tenantId : Uuid) (operationId : PyStr) : Except PyError PyStr := do
  let operationHash ← store.textHash operationId
  .ok (tenantPrefix tenantId ++ lit "outputs/" ++ operationHash ++ lit ".arrow")

/-- `write_web_content` up to the key it puts the payload under. -/
def webKey (tenantId : Uuid) (snapshotId : PyStr) (payload : List UInt8) (mediaType kind : PyStr) :
    Except PyError PyStr := do
  if kind ∉ [lit "raw", lit "text", lit "captures"] ∨ snapshotId.blank then
    refuse "web content scope is malformed"
  else if mediaType.blank ∨ store.maxBytes < payload.length then
    refuse "web content media type or size is invalid"
  else
    let digest ← contentDigest (store.sha256Digest payload)
    validateKey tenantId (tenantPrefix tenantId ++ lit "web/" ++ kind ++ lit "/" ++ digest)

def competenceArtifactKey (tenantId projectId : Uuid) (candidateId artifactKind payloadDigest : PyStr) :
    Except PyError PyStr := do
  if candidateId.blank ∨ artifactKind ∉ [lit "scorer_model", lit "prior_pack"] then
    refuse "competence artifact scope is malformed"
  else
    let candidateHash ← store.textHash candidateId
    let digest ← contentDigest payloadDigest
    .ok (tenantPrefix tenantId ++ lit "projects/" ++ projectId.str ++ lit "/competence/" ++
      candidateHash ++ lit "/" ++ artifactKind ++ lit "/" ++ digest)

def renderArtifactKey (tenantId : Uuid) (payloadDigest extension : PyStr) : Except PyError PyStr := do
  if extension ∉ [lit "png", lit "svg"] then refuse "render extension is not allowed"
  else
    let digest ← contentDigest payloadDigest
    .ok (tenantPrefix tenantId ++ lit "renders/" ++ digest ++ lit "." ++ extension)

def rlArtifactKey (tenantId runId : Uuid) (artifactName payloadDigest : PyStr) :
    Except PyError PyStr := do
  if artifactName = [] ∨ 128 < artifactName.length ∨ ¬ artifactName.all isNameChar then
    refuse "RL artifact name is malformed"
  else
    let digest ← contentDigest payloadDigest
    .ok (tenantPrefix tenantId ++ lit "rl/" ++ runId.str ++ lit "/" ++ artifactName ++ lit "/" ++
      digest)

end Store

/-- `_incoming_key`. -/
def incomingKey (tenantId runId : Uuid) (name : PyStr) : PyStr :=
  lit "tenants/" ++ tenantId.str ++ lit "/rl/" ++ runId.str ++ lit "/incoming/" ++ name

/-- `_input_key`. -/
def inputKey (tenantId jobId planningId : Uuid) (index : Nat) : PyStr :=
  lit "tenants/" ++ tenantId.str ++ lit "/extraction/" ++ jobId.str ++ lit "/in/" ++
    planningId.str ++ lit "/" ++ lit (toString index) ++ lit ".arrow"

/-- A call of a constructor. -/
inductive Construction where
  | input (tenantId uuid4 : Uuid)
  | output (tenantId : Uuid) (operationId : PyStr)
  | web (tenantId : Uuid) (snapshotId : PyStr) (payload : List UInt8) (mediaType kind : PyStr)
  | render (tenantId : Uuid) (payloadDigest extension : PyStr)
  | rlContent (tenantId runId : Uuid) (artifactName payloadDigest : PyStr)
  | rlIncoming (tenantId runId : Uuid) (name : PyStr)
  | competence (tenantId projectId : Uuid) (candidateId artifactKind payloadDigest : PyStr)
  | shardInput (tenantId jobId planningId : Uuid) (index : Nat)
  deriving DecidableEq

namespace Construction

/-- The key it builds. -/
def key (store : Store) : Construction → Except PyError PyStr
  | input tenantId uuid4 => .ok (Store.allocateInputKey tenantId uuid4)
  | output tenantId operationId => store.outputKey tenantId operationId
  | web tenantId snapshotId payload mediaType kind =>
      store.webKey tenantId snapshotId payload mediaType kind
  | render tenantId payloadDigest extension =>
      Store.renderArtifactKey tenantId payloadDigest extension
  | rlContent tenantId runId artifactName payloadDigest =>
      Store.rlArtifactKey tenantId runId artifactName payloadDigest
  | rlIncoming tenantId runId name => .ok (incomingKey tenantId runId name)
  | competence tenantId projectId candidateId artifactKind payloadDigest =>
      store.competenceArtifactKey tenantId projectId candidateId artifactKind payloadDigest
  | shardInput tenantId jobId planningId index => .ok (inputKey tenantId jobId planningId index)

def tenantId : Construction → Uuid
  | input t _ | output t _ | web t _ _ _ _ | render t _ _ | rlContent t _ _ _ | rlIncoming t _ _
  | competence t _ _ _ _ | shardInput t _ _ _ => t

/-- Kind and identifying arguments: web content has the same object in every snapshot that captured
    it, under every media type. -/
def identity : Construction → Construction
  | web tenantId _ payload _ kind => web tenantId [] payload [] kind
  | c => c

/-- What a construction hashes. -/
def hashed : Construction → List (List UInt8)
  | output _ operationId => [encoded operationId]
  | web _ _ payload _ _ => [payload]
  | competence _ _ candidateId _ _ => [encoded candidateId]
  | _ => []

end Construction

/-! ## A UUID is written in one way -/

theorem hexDigits_length (k n : Nat) : (hexDigits k n).length = k := by
  induction k generalizing n with
  | zero => rfl
  | succ k ih => rw [hexDigits, List.length_append, ih, List.length_singleton]

theorem hexDigit_val {n : Nat} (h : n < 16) :
    (hexDigit n).val = if n < 10 then 48 + n else 87 + n :=
  Nat.mod_eq_of_lt (by split <;> omega)

theorem hexDigit_inj {m n : Nat} (hm : m < 16) (hn : n < 16) (h : hexDigit m = hexDigit n) :
    m = n := by
  have hval := congrArg Fin.val h
  rw [hexDigit_val hm, hexDigit_val hn] at hval
  split at hval <;> split at hval <;> omega

theorem isHexDigit_hexDigit {n : Nat} (h : n < 16) : isHexDigit (hexDigit n) = true := by
  have hval := hexDigit_val h
  simp only [isHexDigit, Bool.or_eq_true, Bool.and_eq_true, decide_eq_true_eq]
  split at hval <;> omega

theorem hexDigits_hex (k n : Nat) : (hexDigits k n).all isHexDigit = true := by
  induction k generalizing n with
  | zero => rfl
  | succ k ih =>
    rw [hexDigits, List.all_append, ih, Bool.true_and, List.all_cons, List.all_nil, Bool.and_true]
    exact isHexDigit_hexDigit (Nat.mod_lt _ (by decide))

/-- Digits determine a number that has no more of them. -/
theorem hexDigits_inj {k m n : Nat} (hm : m < 16 ^ k) (hn : n < 16 ^ k)
    (h : hexDigits k m = hexDigits k n) : m = n := by
  induction k generalizing m n with
  | zero => rw [Nat.pow_zero] at hm hn; omega
  | succ k ih =>
    rw [Nat.pow_succ] at hm hn
    obtain ⟨hfront, hlast⟩ := List.append_inj' h rfl
    have hdiv := ih (Nat.div_lt_of_lt_mul (by omega)) (Nat.div_lt_of_lt_mul (by omega)) hfront
    have hmod := hexDigit_inj (Nat.mod_lt _ (by decide)) (Nat.mod_lt _ (by decide))
      (List.cons.inj hlast).1
    omega

/-- Neighbouring slices make up one. -/
theorem slice_slice {raw : PyStr} {i j k : Nat} (hij : i ≤ j) (hjk : j ≤ k) (hk : k ≤ raw.length) :
    slice raw i j ++ slice raw j k = slice raw i k := by
  have hlen : i ≤ (raw.take j).length := by
    rw [List.length_take]
    omega
  have hsplit : raw.take j ++ (raw.take k).drop j = raw.take k := by
    have htake : (raw.take k).take j = raw.take j := by rw [List.take_take, Nat.min_eq_left hjk]
    rw [← htake, List.take_append_drop]
  rw [slice, slice, slice, ← List.drop_append_of_le_length hlen, hsplit]

theorem slice_hex {raw : PyStr} {i j : Nat} (h : raw.all isHexDigit = true) :
    (slice raw i j).all isHexDigit = true := by
  rw [List.all_eq_true] at h ⊢
  exact fun c hc => h c (List.mem_of_mem_take (List.mem_of_mem_drop hc))

/-- A hexadecimal digit is no dash. -/
theorem filter_hex {s : PyStr} (h : s.all isHexDigit = true) : s.filter (· ≠ 0x2D) = s := by
  refine List.filter_eq_self.mpr fun c hc => decide_eq_true ?_
  rintro rfl
  exact Bool.false_ne_true (List.all_eq_true.mp h _ hc)

/-- Without its dashes it is its digits. -/
theorem Uuid.filter_str (u : Uuid) : u.str.filter (· ≠ 0x2D) = hexDigits 32 u.int := by
  have hdash : (lit "-").filter (· ≠ 0x2D) = [] := by decide
  have hlen := hexDigits_length 32 u.int
  have hslice (i j : Nat) := filter_hex (slice_hex (i := i) (j := j) (hexDigits_hex 32 u.int))
  simp only [Uuid.str, List.filter_append, hdash, List.append_nil, hslice]
  rw [slice_slice (by decide) (by decide) (by omega), slice_slice (by decide) (by decide) (by omega),
    slice_slice (by decide) (by decide) (by omega), slice_slice (by decide) (by decide) (by omega)]
  rw [slice, List.drop_zero, List.take_of_length_le hlen.le]

theorem Uuid.str_inj {u v : Uuid} (h : u.str = v.str) : u = v := by
  have hdigits := congrArg (List.filter (· ≠ 0x2D)) h
  rw [u.filter_str, v.filter_str] at hdigits
  have hint := hexDigits_inj u.bounded v.bounded hdigits
  cases u
  cases v
  cases hint
  rfl

theorem Uuid.str_length (u : Uuid) : u.str.length = 36 := by
  simp only [Uuid.str, List.length_append, slice, List.length_drop, List.length_take,
    hexDigits_length]
  rfl

/-! ## Name characters -/

/-- Neither separator is a name character. -/
theorem not_mem_of_name {s : PyStr} (h : s.all isNameChar = true) : slash ∉ s ∧ backslash ∉ s := by
  rw [List.all_eq_true] at h
  exact ⟨fun hmem => Bool.false_ne_true (h _ hmem), fun hmem => Bool.false_ne_true (h _ hmem)⟩

theorem name_of_hex {s : PyStr} (h : s.all isHexDigit = true) : s.all isNameChar = true := by
  rw [List.all_eq_true] at h ⊢
  intro c hc
  have hdigit := h c hc
  simp only [isHexDigit, isNameChar, Bool.or_eq_true, Bool.and_eq_true, decide_eq_true_eq] at hdigit ⊢
  omega

theorem name_append {s t : PyStr} (hs : s.all isNameChar = true) (ht : t.all isNameChar = true) :
    (s ++ t).all isNameChar = true := by
  rw [List.all_append, hs, ht]
  rfl

theorem Uuid.str_name (u : Uuid) : u.str.all isNameChar = true := by
  have hdash : (lit "-").all isNameChar = true := by decide
  have hslice (i j : Nat) := name_of_hex (slice_hex (i := i) (j := j) (hexDigits_hex 32 u.int))
  simp only [Uuid.str, List.all_append, hdash, hslice, Bool.and_self]

theorem nat_name (n : Nat) : (lit (toString n)).all isNameChar = true := by
  have hdigits := Json.lit_nat_digits n
  rw [List.all_eq_true] at hdigits ⊢
  intro c hc
  have hdigit := hdigits c hc
  simp only [Json.isDigit, isNameChar, Bool.or_eq_true, Bool.and_eq_true, decide_eq_true_eq] at hdigit ⊢
  omega

theorem digest_hex {value : PyStr} (h : value.isSha256Digest = true) :
    (value.drop 7).length = 64 ∧ (value.drop 7).all isHexDigit = true := by
  simp only [isSha256Digest, Bool.and_eq_true, beq_iff_eq] at h
  exact ⟨h.1.2, h.2⟩

/-- The digits of a digest determine it. -/
theorem digest_inj {v w : PyStr} (hv : v.isSha256Digest = true) (hw : w.isSha256Digest = true)
    (h : v.drop 7 = w.drop 7) : v = w := by
  simp only [isSha256Digest, Bool.and_eq_true] at hv hw
  obtain ⟨v', rfl⟩ := List.isPrefixOf_iff_prefix.mp hv.1.1
  obtain ⟨w', rfl⟩ := List.isPrefixOf_iff_prefix.mp hw.1.1
  rw [List.drop_left' (by decide), List.drop_left' (by decide)] at h
  rw [h]

/-! ## Paths -/

/-- Segments, each with a slash behind it, and a last part. -/
def path (front : List PyStr) (last : PyStr) : PyStr :=
  front.foldr (fun segment rest => segment ++ slash :: rest) last

theorem splitOn_path {front : List PyStr} {last : PyStr} (h : ∀ s ∈ front, slash ∉ s) :
    (path front last).splitOn slash = front ++ last.splitOn slash := by
  induction front with
  | nil => rfl
  | cons s front ih =>
    rw [List.forall_mem_cons] at h
    have hcons : path (s :: front) last = s ++ slash :: path front last := rfl
    rw [hcons, List.splitOn_append_cons_self_of_not_mem h.1, ih h.2, List.cons_append]

theorem mem_path {front : List PyStr} {last : PyStr} {c : CodePoint} (hc : c ≠ slash) :
    c ∈ path front last ↔ (∃ s ∈ front, c ∈ s) ∨ c ∈ last := by
  induction front with
  | nil => simp [path]
  | cons s front ih =>
    have hcons : path (s :: front) last = s ++ slash :: path front last := rfl
    rw [hcons, List.mem_append, List.mem_cons, ih]
    simp only [hc, false_or, List.exists_mem_cons_iff, or_assoc]

theorem length_path {front : List PyStr} {last : PyStr} :
    (path front last).length = (front.map fun s => s.length + 1).sum + last.length := by
  induction front with
  | nil => simp [path]
  | cons s front ih =>
    have hcons : path (s :: front) last = s ++ slash :: path front last := rfl
    rw [hcons, List.length_append, List.length_cons, ih, List.map_cons, List.sum_cons]
    omega

/-- What the third segment of a key says. -/
inductive Area where
  | inputs | outputs | web | renders | rl | projects | extraction
  deriving DecidableEq, Repr

def Area.text : Area → PyStr
  | .inputs => lit "inputs"
  | .outputs => lit "outputs"
  | .web => lit "web"
  | .renders => lit "renders"
  | .rl => lit "rl"
  | .projects => lit "projects"
  | .extraction => lit "extraction"

theorem Area.text_inj {a b : Area} (h : a.text = b.text) : a = b := by
  cases a <;> cases b <;> first | rfl | exact absurd h (by decide)

theorem Area.text_name (a : Area) : a.text.all isNameChar = true := by
  cases a <;> decide

namespace Construction

variable (store : Store)

def area : Construction → Area
  | input .. => .inputs
  | output .. => .outputs
  | web .. => .web
  | render .. => .renders
  | rlContent .. | rlIncoming .. => .rl
  | competence .. => .projects
  | shardInput .. => .extraction

/-- The segments behind the area. -/
def segments : Construction → List PyStr
  | web _ _ _ _ kind => [kind]
  | rlContent _ runId artifactName _ => [runId.str, artifactName]
  | rlIncoming _ runId _ => [runId.str, lit "incoming"]
  | competence _ projectId candidateId artifactKind _ =>
      [projectId.str, lit "competence", store.hexdigest (encoded candidateId), artifactKind]
  | shardInput _ jobId planningId _ => [jobId.str, lit "in", planningId.str]
  | _ => []

/-- What stands behind the last slash that the constructor writes. -/
def last : Construction → PyStr
  | input _ uuid4 => uuid4.str ++ lit ".arrow"
  | output _ operationId => store.hexdigest (encoded operationId) ++ lit ".arrow"
  | web _ _ payload _ _ => store.hexdigest payload
  | render _ payloadDigest extension => payloadDigest.drop 7 ++ (lit "." ++ extension)
  | rlContent _ _ _ payloadDigest => payloadDigest.drop 7
  | rlIncoming _ _ name => name
  | competence _ _ _ _ payloadDigest => payloadDigest.drop 7
  | shardInput _ _ _ index => lit (toString index) ++ lit ".arrow"

def front (c : Construction) : List PyStr :=
  lit "tenants" :: c.tenantId.str :: c.area.text :: c.segments store

/-- What the constructors check. -/
def Admitted : Construction → Prop
  | output _ operationId => Scalar operationId
  | web _ _ _ _ kind => kind ∈ [lit "raw", lit "text", lit "captures"]
  | render _ payloadDigest extension =>
      payloadDigest.isSha256Digest = true ∧ extension ∈ [lit "png", lit "svg"]
  | rlContent _ _ artifactName payloadDigest =>
      artifactName.length ≤ 128 ∧ artifactName.all isNameChar = true ∧
        payloadDigest.isSha256Digest = true
  | competence _ _ candidateId artifactKind payloadDigest =>
      Scalar candidateId ∧ artifactKind ∈ [lit "scorer_model", lit "prior_pack"] ∧
        payloadDigest.isSha256Digest = true
  | _ => True

variable {store} {c : Construction} {k : PyStr}

theorem textHash_ok {text hash : PyStr} (h : store.textHash text = .ok hash) :
    Scalar text ∧ hash = store.hexdigest (encoded text) := by
  unfold Store.textHash at h
  split at h
  · cases h
  · rename_i raw hraw
    obtain ⟨hscalar, rfl⟩ := encode_eq_some.mp hraw
    cases h
    exact ⟨hscalar, rfl⟩

theorem contentDigest_ok {value digest : PyStr} (h : Store.contentDigest value = .ok digest) :
    value.isSha256Digest = true ∧ digest = value.drop 7 := by
  obtain ⟨hdigest, h⟩ | ⟨-, h⟩ := Fallible.ite_ok h
  · cases h
    exact ⟨hdigest, rfl⟩
  · cases h

theorem validateKey_ok {t : Uuid} {key key' : PyStr} (h : validateKey t key = .ok key') :
    key' = key := by
  unfold validateKey at h
  obtain ⟨-, h⟩ | ⟨-, h⟩ := Fallible.ite_ok h
  · cases h
  obtain ⟨-, h⟩ | ⟨-, h⟩ := Fallible.ite_ok h
  · cases h
  obtain ⟨-, h⟩ | ⟨-, h⟩ := Fallible.ite_ok h
  · cases h
  · cases h
    rfl

/-- **A constructed key is a path.** -/
theorem key_path (h : c.key store = .ok k) :
    c.Admitted ∧ k = path (c.front store) (c.last store) := by
  cases c with
  | input t u =>
    cases h
    refine ⟨trivial, ?_⟩
    simp only [Store.allocateInputKey, tenantPrefix, List.append_assoc]
    rfl
  | output t o =>
    obtain ⟨hash, hhash, h⟩ := Fallible.bind_ok.mp h
    obtain ⟨hscalar, rfl⟩ := textHash_ok hhash
    cases h
    refine ⟨hscalar, ?_⟩
    simp only [tenantPrefix, List.append_assoc]
    rfl
  | web t s payload m kind =>
    obtain ⟨-, h⟩ | ⟨hkind, h⟩ := Fallible.ite_ok h
    · cases h
    obtain ⟨-, h⟩ | ⟨-, h⟩ := Fallible.ite_ok h
    · cases h
    obtain ⟨digest, hdigest, h⟩ := Fallible.bind_ok.mp h
    obtain ⟨-, rfl⟩ := contentDigest_ok hdigest
    obtain rfl := validateKey_ok h
    have hmem := Decidable.not_not.mp (not_or.mp hkind).1
    refine ⟨hmem, ?_⟩
    have hdrop : (Store.sha256Digest store payload).drop 7 = store.hexdigest payload :=
      List.drop_left' (by decide)
    rw [hdrop]
    simp only [tenantPrefix, List.append_assoc]
    rfl
  | render t d ext =>
    obtain ⟨-, h⟩ | ⟨hext, h⟩ := Fallible.ite_ok h
    · cases h
    obtain ⟨digest, hdigest, h⟩ := Fallible.bind_ok.mp h
    obtain ⟨hd, rfl⟩ := contentDigest_ok hdigest
    cases h
    refine ⟨⟨hd, Decidable.not_not.mp hext⟩, ?_⟩
    simp only [tenantPrefix, List.append_assoc]
    rfl
  | rlContent t r name d =>
    obtain ⟨-, h⟩ | ⟨hname, h⟩ := Fallible.ite_ok h
    · cases h
    obtain ⟨digest, hdigest, h⟩ := Fallible.bind_ok.mp h
    obtain ⟨hd, rfl⟩ := contentDigest_ok hdigest
    cases h
    rw [not_or, not_or, Decidable.not_not, Nat.not_lt] at hname
    refine ⟨⟨hname.2.1, hname.2.2, hd⟩, ?_⟩
    simp only [tenantPrefix, List.append_assoc]
    rfl
  | rlIncoming t r name =>
    cases h
    refine ⟨trivial, ?_⟩
    simp only [incomingKey, List.append_assoc]
    rfl
  | competence t p cand kind d =>
    obtain ⟨-, h⟩ | ⟨hkind, h⟩ := Fallible.ite_ok h
    · cases h
    obtain ⟨hash, hhash, h⟩ := Fallible.bind_ok.mp h
    obtain ⟨hscalar, rfl⟩ := textHash_ok hhash
    obtain ⟨digest, hdigest, h⟩ := Fallible.bind_ok.mp h
    obtain ⟨hd, rfl⟩ := contentDigest_ok hdigest
    cases h
    refine ⟨⟨hscalar, Decidable.not_not.mp (not_or.mp hkind).2, hd⟩, ?_⟩
    simp only [tenantPrefix, List.append_assoc]
    rfl
  | shardInput t j p i =>
    cases h
    refine ⟨trivial, ?_⟩
    simp only [inputKey, List.append_assoc]
    rfl

end Construction

end ControlPlane.Keys
