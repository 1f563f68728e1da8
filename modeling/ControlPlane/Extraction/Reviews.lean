/-
  CANDIDATE IDENTITY, `apps/extraction/reviews.py`: when do two candidates have the same digest?

  A candidate is hashed as a JSON list of its tenant and its identity fields, and a typed candidate
  with the CANONICAL text of its record besides.  The list is read back from its text and the record
  from its canonical text, so that the digests are equal exactly for equal identities
  (`candidate_identity`).  Records count as equal when they are up to the order of keys; but `json`
  keeps integers, floats and the negative zero apart, and so does the digest: a record with 1 and one
  with 1.0 are different candidates (`candidate_number_kinds`).
-/
import ControlPlane.JsonRead

namespace ControlPlane.Extraction

open Json

/-- What `candidate_digest_for_version` raises. -/
inductive DigestError where
  | valueError (message : String)
  | recursionError
  | unicodeEncodeError
  deriving DecidableEq, Repr

def legacyCandidateDigestVersion : Int := 1

def candidateDigestVersion : Int := 2

/-- `candidate.get(name)`. -/
def field (candidate : List (PyStr × Json)) (name : String) : Json :=
  (get? candidate name).getD .null

/-- `value == "typed"`. -/
def isTyped : Json → Bool
  | .str stage => stage == PyStr.lit "typed"
  | _ => false

section Digest

variable (py : Interpreter)

/-- The record of a candidate, parsed when it is a text that parses. -/
def parsedRecord : Json → Except DigestError Json
  | .str text => match JsonReader.read py text with
    | .ok value => .ok value
    | .error .malformed => .ok (.str text)
    | .error .intDigits =>
        .error (.valueError "Exceeds the limit for integer string conversion")
    | .error .recursion => .error .recursionError
  | record => .ok record

/-- `json.dumps`, which recurses into what is nested. -/
def dumped (write : Json → PyStr) (value : Json) : Except DigestError PyStr :=
  if py.writeDepth < value.depth then .error .recursionError else .ok (write value)

/-- A parsed record that is an object or a list is written again, with its keys sorted. -/
def recordText (record : Json) : Except DigestError Json :=
  match record with
  | .obj _ | .arr _ => (dumped py (dumps py.repr) record).map .str
  | _ => .ok record

/-- `identity`. -/
def identity (tenantId : PyStr) (candidate : List (PyStr × Json)) (version : Int) :
    Except DigestError (List Json) := do
  let fields := [.str tenantId, field candidate "stage", field candidate "passage_id",
    field candidate "subject", field candidate "predicate", field candidate "object"]
  if candidateDigestVersion ≤ version ∧ isTyped (field candidate "stage") then
    let record ← parsedRecord py (field candidate "record_json")
    let text ← recordText py record
    return fields ++ [text]
  else return fields

/-- `hashlib.sha256(payload).hexdigest()` of an encoded text. -/
def hashed (hexdigest : List UInt8 → PyStr) (text : PyStr) : Except DigestError PyStr :=
  match text.encode with
  | none => .error .unicodeEncodeError
  | some payload => .ok (hexdigest payload)

/-- `candidate_digest_for_version`. -/
def candidateDigestForVersion (hexdigest : List UInt8 → PyStr) (tenantId : PyStr)
    (candidate : List (PyStr × Json)) (version : Int) : Except DigestError PyStr := do
  if version ≠ legacyCandidateDigestVersion ∧ version ≠ candidateDigestVersion then
    throw (.valueError s!"unsupported candidate digest version: {version}")
  let items ← identity py tenantId candidate version
  let text ← dumped py (write py.repr) (.arr items)
  hashed hexdigest text

/-- `candidate_digest`. -/
def candidateDigest (hexdigest : List UInt8 → PyStr) (tenantId : PyStr)
    (candidate : List (PyStr × Json)) : Except DigestError PyStr :=
  candidateDigestForVersion py hexdigest tenantId candidate candidateDigestVersion

end Digest

/-! ## Identified candidates -/

/-- The fields that identify a candidate. -/
structure Identity where
  stage : PyStr
  passageId : PyStr
  subject : PyStr
  predicate : PyStr
  object : PyStr
  /-- The record, when the stage is "typed". -/
  record : Json

def Identity.typed (i : Identity) : Prop := i.stage = PyStr.lit "typed"

instance decidableTyped (i : Identity) : Decidable i.typed :=
  inferInstanceAs (Decidable (i.stage = PyStr.lit "typed"))

/-- The identity fields of a candidate are texts, and its record, when it is typed, is the text of an
    object. -/
structure Identified (py : Interpreter) (candidate : List (PyStr × Json)) (i : Identity) : Prop where
  stage : field candidate "stage" = .str i.stage
  passageId : field candidate "passage_id" = .str i.passageId
  subject : field candidate "subject" = .str i.subject
  predicate : field candidate "predicate" = .str i.predicate
  object : field candidate "object" = .str i.object
  record : i.typed → ∃ text fields, field candidate "record_json" = .str text ∧
    JsonReader.read py text = .ok (.obj fields) ∧ i.record = .obj fields

/-- What is hashed of an identified candidate. -/
def Identity.items (repr : PyFloat → PyStr) (tenantId : PyStr) (i : Identity) : List Json :=
  [.str tenantId, .str i.stage, .str i.passageId, .str i.subject, .str i.predicate, .str i.object] ++
    if i.typed then [.str (dumps repr i.record)] else []

section Identified

variable {py : Interpreter} {hexdigest : List UInt8 → PyStr} {tenantId : PyStr}
  {candidate : List (PyStr × Json)} {i : Identity}

theorem isTyped_iff (h : Identified py candidate i) :
    isTyped (field candidate "stage") = true ↔ i.typed := by
  rw [h.stage, isTyped, beq_iff_eq]
  rfl

theorem recordText_obj (fields : List (PyStr × Json)) : recordText py (.obj fields) =
    if py.writeDepth < (Json.obj fields).depth then .error .recursionError
    else .ok (.str (dumps py.repr (.obj fields))) := by
  rw [recordText, dumped]
  split <;> rfl

theorem identity_identified (h : Identified py candidate i) :
    identity py tenantId candidate candidateDigestVersion =
      if i.typed ∧ py.writeDepth < i.record.depth then .error .recursionError
      else .ok (i.items py.repr tenantId) := by
  unfold identity
  dsimp only
  by_cases htyped : i.typed
  · obtain ⟨text, fields, hrecord, hread, hobj⟩ := h.record htyped
    rw [if_pos ⟨le_refl _, (isTyped_iff h).mpr htyped⟩, hrecord, Identity.items, if_pos htyped, hobj]
    simp only [parsedRecord, hread, recordText_obj, bind, Except.bind]
    by_cases hdepth : py.writeDepth < (Json.obj fields).depth
    · rw [if_pos hdepth, if_pos ⟨htyped, hdepth⟩]
    · rw [if_neg hdepth, if_neg fun hboth => hdepth hboth.2, h.stage, h.passageId, h.subject,
        h.predicate, h.object]
      rfl
  · rw [if_neg fun hboth => htyped ((isTyped_iff h).mp hboth.2), if_neg fun hboth => htyped hboth.1,
      h.stage, h.passageId, h.subject, h.predicate, h.object, Identity.items, if_neg htyped]
    rfl

/-- A list of texts is not nested. -/
theorem depth_items (repr : PyFloat → PyStr) (tenantId : PyStr) (i : Identity) :
    (Json.arr (i.items repr tenantId)).depth = 1 := by
  unfold Identity.items
  split <;> rfl

/-- The digest of an identified candidate. -/
theorem candidateDigest_identified (h : Identified py candidate i) :
    candidateDigest py hexdigest tenantId candidate =
      if (i.typed ∧ py.writeDepth < i.record.depth) ∨ py.writeDepth < 1 then .error .recursionError
      else hashed hexdigest (write py.repr (.arr (i.items py.repr tenantId))) := by
  have hversion : ¬ (candidateDigestVersion ≠ legacyCandidateDigestVersion ∧
      candidateDigestVersion ≠ candidateDigestVersion) := fun hboth => hboth.2 rfl
  unfold candidateDigest candidateDigestForVersion
  rw [if_neg hversion, identity_identified h]
  by_cases hdeep : i.typed ∧ py.writeDepth < i.record.depth
  · rw [if_pos hdeep, if_pos (Or.inl hdeep)]
    rfl
  · rw [if_neg hdeep]
    simp only [bind, Except.bind, dumped, depth_items]
    by_cases hflat : py.writeDepth < 1
    · rw [if_pos hflat, if_pos (Or.inr hflat)]
    · rw [if_neg hflat, if_neg fun hboth => hboth.elim hdeep hflat]

/-- Where there is a digest, the text of the identity is encoded and hashed. -/
theorem candidateDigest_ok (h : Identified py candidate i) {digest : PyStr}
    (hdigest : candidateDigest py hexdigest tenantId candidate = .ok digest) : ∃ payload,
    (write py.repr (.arr (i.items py.repr tenantId))).encode = some payload ∧
      hexdigest payload = digest := by
  rw [candidateDigest_identified h] at hdigest
  rcases Fallible.ite_ok hdigest with ⟨-, herror⟩ | ⟨-, hhashed⟩
  · cases herror
  · unfold hashed at hhashed
    split at hhashed
    · cases hhashed
    · rename_i payload hpayload
      exact ⟨payload, hpayload, Except.ok.inj hhashed⟩

theorem floatsIn_items (P : ℚ → Prop) (repr : PyFloat → PyStr) (tenantId : PyStr) (i : Identity) :
    FloatsIn P (.arr (i.items repr tenantId)) := by
  intro q hq
  unfold Identity.items at hq
  split at hq <;> cases hq

/-- Equal digests are digests of the same list. -/
theorem digest_eq_iff {P : ℚ → Prop} (hhash : Function.Injective hexdigest)
    (laws : ReprLaws P py.repr) {tenantId' : PyStr} {candidate' : List (PyStr × Json)} {i' : Identity}
    (h : Identified py candidate i) (h' : Identified py candidate' i') {digest digest' : PyStr}
    (hdigest : candidateDigest py hexdigest tenantId candidate = .ok digest)
    (hdigest' : candidateDigest py hexdigest tenantId' candidate' = .ok digest') :
    digest = digest' ↔ i.items py.repr tenantId = i'.items py.repr tenantId' := by
  obtain ⟨payload, hpayload, hhex⟩ := candidateDigest_ok h hdigest
  obtain ⟨payload', hpayload', hhex'⟩ := candidateDigest_ok h' hdigest'
  rw [← hhex, ← hhex']
  constructor
  · intro heq
    rw [hhash heq] at hpayload
    have htext := PyStr.encode_injective hpayload hpayload'
    exact Json.arr.inj (write_injective laws (floatsIn_items _ _ _ _) (floatsIn_items _ _ _ _) htext)
  · intro heq
    rw [heq, hpayload'] at hpayload
    rw [Option.some.inj hpayload]

/-- The record of an identified candidate has doubles only. -/
theorem record_doubles (h : Identified py candidate i) (htyped : i.typed) :
    FloatsIn JsonReader.IsDouble i.record := by
  obtain ⟨text, fields, -, hread, hobj⟩ := h.record htyped
  rw [hobj]
  exact JsonReader.read_doubles hread

end Identified

/-- **Candidate identity is exact.**  The digests of two candidates are equal if and only if tenant,
    stage, passage, subject, predicate and object are equal and, for typed candidates, the records
    are equal up to the order of keys, where integers, floats and the negative zero are apart. -/
theorem candidate_identity {py : Interpreter} {hexdigest : List UInt8 → PyStr}
    (hhash : Function.Injective hexdigest) (laws : ReprLaws JsonReader.IsDouble py.repr)
    {tenantId tenantId' : PyStr} {candidate candidate' : List (PyStr × Json)} {i i' : Identity}
    (h : Identified py candidate i) (h' : Identified py candidate' i') {digest digest' : PyStr}
    (hdigest : candidateDigest py hexdigest tenantId candidate = .ok digest)
    (hdigest' : candidateDigest py hexdigest tenantId' candidate' = .ok digest') :
    digest = digest' ↔ tenantId = tenantId' ∧ i.stage = i'.stage ∧ i.passageId = i'.passageId ∧
      i.subject = i'.subject ∧ i.predicate = i'.predicate ∧ i.object = i'.object ∧
      (i.stage = PyStr.lit "typed" → Same i.record i'.record) := by
  rw [digest_eq_iff hhash laws h h' hdigest hdigest']
  have hapart : ∀ {i i' : Identity}, i.typed → ¬ i'.typed → i.stage ≠ i'.stage :=
    fun htyped hother heq => hother (heq.symm.trans htyped)
  unfold Identity.items
  by_cases htyped : i.typed <;> by_cases htyped' : i'.typed
  · have hrecord := dumps_eq_iff laws (record_doubles h htyped) (record_doubles h' htyped')
    rw [if_pos htyped, if_pos htyped']
    simp only [List.cons_append, List.nil_append, List.cons.injEq, Json.str.injEq, hrecord, and_true]
    exact and_congr_right fun _ => and_congr_right fun _ => and_congr_right fun _ =>
      and_congr_right fun _ => and_congr_right fun _ => and_congr_right fun _ =>
        ⟨fun hsame _ => hsame, fun hsame => hsame htyped⟩
  · refine iff_of_false (fun heq => ?_) fun hparts => hapart htyped htyped' hparts.2.1
    rw [List.cons_append, List.cons_append, List.cons_append, List.cons_append] at heq
    exact hapart htyped htyped' (Json.str.inj (List.cons.inj (List.cons.inj heq).2).1)
  · refine iff_of_false (fun heq => ?_) fun hparts => hapart htyped' htyped hparts.2.1.symm
    rw [List.cons_append, List.cons_append, List.cons_append, List.cons_append] at heq
    exact hapart htyped' htyped (Json.str.inj (List.cons.inj (List.cons.inj heq).2).1).symm
  · rw [if_neg htyped, if_neg htyped']
    simp only [List.append_nil, List.cons.injEq, Json.str.injEq, and_true]
    exact and_congr_right fun _ => and_congr_right fun _ => and_congr_right fun _ =>
      and_congr_right fun _ => and_congr_right fun _ =>
        ⟨fun hobject => ⟨hobject, fun hstage => absurd hstage htyped⟩, fun hparts => hparts.1⟩

/-! ## Small candidates -/

/-- A finite float as numerator and denominator. -/
def fractionText : PyFloat → PyStr
  | .finite q => PyStr.lit (toString q.num) ++ 0x65 :: PyStr.lit (toString (q.den : Int))
  | _ => []

theorem fractionText_laws (P : ℚ → Prop) : ReprLaws P fractionText := by
  have hexp : ∀ n : Int, 0x65 ∉ PyStr.lit (toString n) := fun n hmem =>
    ((lit_int_numeral n).2 _ hmem).2 rfl
  refine ⟨fun q _ => ?_, fun q _ => ⟨0x65, ?_, Or.inr rfl⟩, fun q q' _ _ h => ?_, fun q _ h => ?_⟩
  · rw [fractionText, List.all_append, List.all_cons, (lit_int_numeral _).1, (lit_int_numeral _).1]
    decide
  · exact List.mem_append_right _ List.mem_cons_self
  · obtain ⟨hnum, hden⟩ := Readable.cut_unique (hexp _) (hexp _) h
    exact Rat.ext (lit_int_injective hnum) (Int.ofNat.inj (lit_int_injective hden))
  · have hmem : (0x65 : CodePoint) ∈ fractionText (.finite q) :=
      List.mem_append_right _ List.mem_cons_self
    rw [h] at hmem
    exact absurd hmem (by decide)

/-- An interpreter with a given `float.__repr__`. -/
def smallPy (repr : PyFloat → PyStr) : Interpreter where
  repr := repr
  decimal := asciiDecimal
  readDepth := 100
  writeDepth := 100

/-- A digest that is the payload. -/
def plainDigest (payload : List UInt8) : PyStr := payload.map fun b => Fin.ofNat _ b.toNat

theorem plainDigest_injective : Function.Injective plainDigest := by
  refine List.map_injective_iff.mpr fun a b h => ?_
  have hval : a.toNat % 0x110000 = b.toNat % 0x110000 := congrArg Fin.val h
  have ha := a.toNat_lt
  have hb := b.toNat_lt
  exact UInt8.toNat_inj.mp (by omega)

def smallCandidate (record : String) : List (PyStr × Json) :=
  [(PyStr.lit "stage", .str (PyStr.lit "typed")),
    (PyStr.lit "passage_id", .str (PyStr.lit "passage:1")),
    (PyStr.lit "subject", .str (PyStr.lit "Fett Law")),
    (PyStr.lit "predicate", .str (PyStr.lit "is_a")),
    (PyStr.lit "object", .str (PyStr.lit "object-type:law-firm")),
    (PyStr.lit "record_json", .str (PyStr.lit record))]

theorem smallCandidate_identified {py : Interpreter} {record : String} {fields : List (PyStr × Json)}
    (hread : JsonReader.read py (PyStr.lit record) = .ok (.obj fields)) :
    Identified py (smallCandidate record) ⟨PyStr.lit "typed", PyStr.lit "passage:1",
      PyStr.lit "Fett Law", PyStr.lit "is_a", PyStr.lit "object-type:law-firm", .obj fields⟩ :=
  ⟨rfl, rfl, rfl, rfl, rfl, fun _ => ⟨PyStr.lit record, fields, rfl, hread, rfl⟩⟩

/-- Two records that differ in the order of their keys. -/
theorem candidate_identity_reordered : ∃ digest,
    candidateDigest (smallPy fractionText) plainDigest (PyStr.lit "tenant:1")
      (smallCandidate "\x7b\"name\":\"Fett Law\",\"status\":\"declined\"\x7d") = .ok digest ∧
    candidateDigest (smallPy fractionText) plainDigest (PyStr.lit "tenant:1")
      (smallCandidate "\x7b \"status\": \"declined\", \"name\": \"Fett Law\" \x7d") =
        .ok digest := by
  have hread : JsonReader.read (smallPy fractionText)
      (PyStr.lit "\x7b\"name\":\"Fett Law\",\"status\":\"declined\"\x7d") =
        .ok (.obj [(PyStr.lit "name", .str (PyStr.lit "Fett Law")),
          (PyStr.lit "status", .str (PyStr.lit "declined"))]) := rfl
  have hread' : JsonReader.read (smallPy fractionText)
      (PyStr.lit "\x7b \"status\": \"declined\", \"name\": \"Fett Law\" \x7d") =
        .ok (.obj [(PyStr.lit "status", .str (PyStr.lit "declined")),
          (PyStr.lit "name", .str (PyStr.lit "Fett Law"))]) := rfl
  have h := smallCandidate_identified hread
  have h' := smallCandidate_identified hread'
  obtain ⟨digest, hdigest⟩ : ∃ digest, candidateDigest (smallPy fractionText) plainDigest
      (PyStr.lit "tenant:1") (smallCandidate
        "\x7b\"name\":\"Fett Law\",\"status\":\"declined\"\x7d") = .ok digest :=
    Fallible.isOk_iff.mp (by decide +kernel)
  obtain ⟨digest', hdigest'⟩ : ∃ digest, candidateDigest (smallPy fractionText) plainDigest
      (PyStr.lit "tenant:1") (smallCandidate
        "\x7b \"status\": \"declined\", \"name\": \"Fett Law\" \x7d") = .ok digest :=
    Fallible.isOk_iff.mp (by decide +kernel)
  have hequal : digest = digest' :=
    (candidate_identity plainDigest_injective (fractionText_laws _) h h' hdigest hdigest').mpr
      ⟨rfl, rfl, rfl, rfl, rfl, rfl, fun _ => rfl⟩
  exact ⟨digest, hdigest, hequal ▸ hdigest'⟩

mutual

/-- Numbers by their value: an integer is the float that it equals, and -0.0 is 0.0. -/
def byValue : Json → Json
  | .int n => .float (.finite n)
  | .negZero => .float (.finite 0)
  | .arr items => .arr (byValueItems items)
  | .obj fields => .obj (byValueFields fields)
  | value => value

def byValueItems : List Json → List Json
  | [] => []
  | item :: items => byValue item :: byValueItems items

def byValueFields : List (PyStr × Json) → List (PyStr × Json)
  | [] => []
  | (key, value) :: fields => (key, byValue value) :: byValueFields fields

end

/-- The float 1.0 is written as it is read. -/
theorem oneReads : JsonReader.ReprReads (· = 1) fun _ => PyStr.lit "1.0" where
  numeral _ _ := ⟨.behind, Or.inl rfl, by decide⟩
  value q hq := by
    subst hq
    decide +kernel
  zero h := absurd h (by decide)

theorem oneParsed : JsonReader.Parsed (· = 1) (.obj [(PyStr.lit "a", .float (.finite 1))]) := by
  refine .obj (by decide) (fun f hf => ?_) fun f hf => ?_
  · rw [List.mem_singleton.mp hf]
    exact List.isChain_singleton _
  · rw [List.mem_singleton.mp hf]
    exact .float rfl

/-- Two records that are equal as JSON values, and in Python: 1 is 1.0.  Their digests differ. -/
theorem candidate_number_kinds : ∃ record record',
    JsonReader.read (smallPy fun _ => PyStr.lit "1.0") (PyStr.lit "\x7b\"a\":1\x7d") = .ok record ∧
    JsonReader.read (smallPy fun _ => PyStr.lit "1.0") (PyStr.lit "\x7b\"a\":1.0\x7d") =
      .ok record' ∧
    Same (byValue record) (byValue record') ∧ ∃ digest digest',
      candidateDigest (smallPy fun _ => PyStr.lit "1.0") plainDigest (PyStr.lit "tenant:1")
        (smallCandidate "\x7b\"a\":1\x7d") = .ok digest ∧
      candidateDigest (smallPy fun _ => PyStr.lit "1.0") plainDigest (PyStr.lit "tenant:1")
        (smallCandidate "\x7b\"a\":1.0\x7d") = .ok digest' ∧ digest ≠ digest' := by
  have hread : JsonReader.read (smallPy fun _ => PyStr.lit "1.0") (PyStr.lit "\x7b\"a\":1\x7d") =
      .ok (.obj [(PyStr.lit "a", .int 1)]) := rfl
  have hread' : JsonReader.read (smallPy fun _ => PyStr.lit "1.0")
      (PyStr.lit "\x7b\"a\":1.0\x7d") = .ok (.obj [(PyStr.lit "a", .float (.finite 1))]) :=
    @JsonReader.read_writeIn (smallPy fun _ => PyStr.lit "1.0") _ _ oneReads _ oneParsed
  obtain ⟨digest, hdigest⟩ : ∃ digest, candidateDigest (smallPy fun _ => PyStr.lit "1.0") plainDigest
      (PyStr.lit "tenant:1") (smallCandidate "\x7b\"a\":1\x7d") = .ok digest :=
    Fallible.isOk_iff.mp (by decide +kernel)
  obtain ⟨digest', hdigest'⟩ : ∃ digest, candidateDigest (smallPy fun _ => PyStr.lit "1.0")
      plainDigest (PyStr.lit "tenant:1") (smallCandidate "\x7b\"a\":1.0\x7d") = .ok digest :=
    Fallible.isOk_iff.mp (by decide +kernel)
  refine ⟨_, _, hread, hread', by simp [Same, byValue, byValueFields], digest, digest', hdigest,
    hdigest', ?_⟩
  rintro rfl
  have hpayload := hdigest.trans hdigest'.symm
  rw [candidateDigest_identified (smallCandidate_identified hread),
    candidateDigest_identified (smallCandidate_identified hread')] at hpayload
  revert hpayload
  decide +kernel

end ControlPlane.Extraction
