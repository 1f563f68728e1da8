/-
  SPANS: `normalize_span` and `global_span` of `theorem_ml/extract/spans/gliner2.py`, `resolve_span` of
  `claims/resolve_span.py` and `ClaimVerifier.verify` of `claims/verify.py`.

  A model answers in character positions of an element, spans are byte ranges of the element's UTF-8,
  and the document addresses bytes of the tree's text.  `float(…)` of a confidence and the scorer are
  parameters.
-/
import ControlPlane.Documents.Trees

namespace ControlPlane.Documents

open PyStr

/-! ## Entity spans -/

structure LabelSpec where
  label : PyStr
  objectType : PyStr
  fieldKey : PyStr
  targetObjectTypeId : Option PyStr := none

/-- `spans.gliner2:{MODEL_ID}@{MODEL_REVISION}`. -/
def gliner2 : PyStr :=
  lit "spans.gliner2:fastino/gliner2-large-v1@6a498b5a28ec3908bbc5277aeb47d22bcfc02f33"

structure ExtractedSpan where
  elementId : PyStr
  objectType : PyStr
  fieldKey : PyStr
  label : PyStr
  text : PyStr
  byteStart : Nat
  byteEnd : Nat
  confidence : PyFloat
  targetObjectTypeId : Option PyStr
  executor : PyStr := gliner2

/-- What `global_span` returns. -/
structure GlobalSpan where
  label : PyStr
  byteStart : Int
  byteEnd : Int
  page : Option Int
  bbox : Option (List PyValue)

/-- `isinstance(value, bool)`. -/
def PyValue.isBool : PyValue → Bool
  | .bool _ => true
  | _ => false

/-- `0 <= confidence <= 1`. -/
def inUnit (x : PyFloat) : Bool := PyFloat.le 0 x && PyFloat.le x 1

/-- `type(start) is int and type(end) is int and 0 <= start < end <= length`. -/
def characterRange (start stop : PyValue) (length : Nat) : Option (Nat × Nat) :=
  match start.int?, stop.int? with
  | some i, some j => if 0 ≤ i ∧ i < j ∧ j ≤ length then some (i.toNat, j.toNat) else none
  | _, _ => none

/-- `normalize_span`, with what `float(…)` makes of a confidence. -/
def normalizeSpan (toFloat : PyValue → Except Failure PyFloat) (element : DocElement)
    (label : LabelSpec) (value : List (PyStr × PyValue)) : Except Failure ExtractedSpan := do
  let start ← subscript value "start"
  let stop ← subscript value "end"
  match characterRange start stop element.text.length with
  | none => .error (.element (lit "GLiNER2 returned an invalid character range"))
  | some (i, j) =>
    let text ← subscript value "text"
    if text.str? ≠ some (slice element.text i j) then
      .error (.element (lit "GLiNER2 span does not match the element verbatim"))
    else
      let before ← encodeText (element.text.take i)
      let upTo ← encodeText (element.text.take j)
      let raw ← encodeText element.text
      let piece ← encodeText (slice element.text i j)
      if slice raw before.length upTo.length ≠ piece then
        .error (.element (lit "GLiNER2 UTF-8 span conversion failed"))
      else
        let given ← subscript value "confidence"
        if given.isBool then .error (.element (lit "GLiNER2 returned an invalid confidence"))
        else
          let confidence ← toFloat given
          if !confidence.isfinite || !inUnit confidence then
            .error (.element (lit "GLiNER2 returned an invalid confidence"))
          else .ok {
            elementId := element.id
            objectType := label.objectType
            fieldKey := label.fieldKey
            label := label.label
            text := slice element.text i j
            byteStart := before.length
            byteEnd := upTo.length
            confidence := confidence
            targetObjectTypeId := label.targetObjectTypeId }

/-- `global_span`; `none` is `StopIteration`. -/
def ExtractedSpan.globalSpan (span : ExtractedSpan) (tree : DocElementTree) : Option GlobalSpan :=
  (tree.get span.elementId).map fun element => {
    label := span.label
    byteStart := element.byteStart + span.byteStart
    byteEnd := element.byteStart + span.byteEnd
    page := element.page
    bbox := element.bbox }

/-! ## Claim spans -/

/-- `text.find(quote, start)`; `none` is -1. -/
def find (text quote : PyStr) (start : Nat) : Option Nat :=
  (List.range' start (text.length + 1 - start)).find? fun i => quote.isPrefixOf (text.drop i)

/-- Where `resolve_span` says that the quote starts. -/
def startOf (text quote : PyStr) : Option Int → Except Failure Nat
  | some charHint =>
    if charHint < 0 ∨ slice text charHint.toNat (charHint.toNat + quote.length) ≠ quote then
      .error (.value (lit "claim quote does not match its source position"))
    else .ok charHint.toNat
  | none =>
    match find text quote 0 with
    | none => .error (.value (lit "claim quote is absent from the element"))
    | some start =>
      if (find text quote (start + 1)).isSome then
        .error (.value (lit "repeated quote requires a source position"))
      else .ok start

/-- `resolve_span`. -/
def resolveSpan (text quote : PyStr) (charHint : Option Int) : Except Failure (Nat × Nat) := do
  if quote = [] then .error (.value (lit "claim quote must not be empty"))
  else
    let start ← startOf text quote charHint
    let before ← encodeText (text.take start)
    let quoted ← encodeText quote
    let raw ← encodeText text
    if decode (slice raw before.length (before.length + quoted.length)) ≠ some quote then
      .error (.value (lit "claim evidence span is not recoverable"))
    else .ok (before.length, before.length + quoted.length)

structure Claim where
  text : PyStr
  quote : PyStr
  elementId : PyStr
  byteStart : Int
  byteEnd : Int
  subjectId : Option PyStr := none
  predicate : Option PyStr := none
  objectText : Option PyStr := none
  score : Option PyFloat := none
  verified : Bool := false
  entityMentions : List (List (PyStr × PyValue)) := []

/-- Where a slice bound lies, counted from the end if it is negative. -/
def clamp (length : Nat) (i : Int) : Nat := if i < 0 then (i + length).toNat else min i.toNat length

/-- `raw[start:end]`. -/
def sliceInt (raw : List UInt8) (start stop : Int) : List UInt8 :=
  slice raw (clamp raw.length start) (clamp raw.length stop)

/-- What `verify` checks of one claim, and the text that it is scored against. -/
def claimDoc (tree : DocElementTree) (claim : Claim) : Except Failure PyStr := do
  match tree.get claim.elementId with
  | none => .error .stopIteration
  | some element =>
    let raw ← encodeText element.text
    let quoted ← encodeText claim.quote
    if sliceInt raw claim.byteStart claim.byteEnd ≠ quoted then
      .error (.value (lit "claim quote/span must match its element before verification"))
    else if claim.text.blank then .error (.value (lit "claim text must not be empty"))
    else .ok element.text

/-- What `verify` makes of one score. -/
def scored (cutoff : PyFloat) (claim : Claim) (score : PyFloat) : Except Failure Claim :=
  if !score.isfinite || !inUnit score then
    .error (.value (lit "MiniCheck returned an invalid probability"))
  else .ok { claim with score := some score, verified := PyFloat.lt cutoff score }

/-- `verify`, with the probabilities that the scorer gives for documents and claims. -/
def verify (score : List PyStr → List PyStr → Except Failure (List PyFloat)) (cutoff : PyFloat)
    (tree : DocElementTree) (claims : List Claim) : Except Failure (List Claim) := do
  if claims = [] then .ok []
  else
    let docs ← claims.mapM (claimDoc tree)
    let probabilities ← score docs (claims.map Claim.text)
    if probabilities.length ≠ claims.length then
      .error (.value (lit "MiniCheck returned the wrong number of scores"))
    else (claims.zip probabilities).mapM fun c => scored cutoff c.1 c.2

/-! ## Occurrences -/

/-- The quote stands at this position. -/
def OccursAt (text quote : PyStr) (i : Nat) : Prop := quote <+: text.drop i

variable {text quote : PyStr} {i j start : Nat} {tree : DocElementTree} {e : DocElement}

theorem slice_eq_take_drop {α : Type} {raw : List α} : slice raw i (i + j) = (raw.drop i).take j := by
  rw [slice, List.drop_take, Nat.add_sub_cancel_left]

theorem occursAt_iff_slice : OccursAt text quote i ↔ slice text i (i + quote.length) = quote := by
  rw [slice_eq_take_drop, OccursAt, List.prefix_iff_eq_take, eq_comm]

theorem OccursAt.le (h : OccursAt text quote i) (hquote : quote ≠ []) : i < text.length := by
  have hle := h.length_le
  have hpos := List.length_pos_iff.mpr hquote
  rw [List.length_drop] at hle
  omega

theorem find_none (hquote : quote ≠ []) :
    find text quote start = none ↔ ∀ i, start ≤ i → ¬ OccursAt text quote i := by
  rw [find, List.find?_range'_eq_none]
  constructor
  · intro h i hi hoccurs
    have hlt := hoccurs.le hquote
    have hnot := h i hi (by omega)
    rw [List.isPrefixOf_iff_prefix.mpr hoccurs] at hnot
    cases hnot
  · intro h i hi _
    rw [Bool.not_eq_true', Bool.eq_false_iff]
    exact fun hprefix => h i hi (List.isPrefixOf_iff_prefix.mp hprefix)

theorem find_some (h : find text quote start = some i) :
    OccursAt text quote i ∧ ∀ j, start ≤ j → j < i → ¬ OccursAt text quote j := by
  rw [find, List.find?_range'_eq_some] at h
  refine ⟨List.isPrefixOf_iff_prefix.mp h.1, fun j hj hlt hoccurs => ?_⟩
  have hnot := h.2.2 j hj hlt
  rw [List.isPrefixOf_iff_prefix.mpr hoccurs] at hnot
  cases hnot

/-- Without a hint: where the quote occurs, if it occurs nowhere else. -/
theorem startOf_none (hquote : quote ≠ []) :
    startOf text quote none = .ok start ↔
      OccursAt text quote start ∧ ∀ j, OccursAt text quote j → j = start := by
  unfold startOf
  cases hfind : find text quote 0 with
  | none =>
    refine iff_of_false (by simp) fun h => ?_
    exact (find_none hquote).mp hfind start (Nat.zero_le _) h.1
  | some first =>
    obtain ⟨hfirst, hleast⟩ := find_some hfind
    dsimp only
    split
    · rename_i hagain
      refine iff_of_false (by simp) fun h => ?_
      obtain ⟨second, hsecond⟩ := Option.isSome_iff_exists.mp hagain
      have hlt : first + 1 ≤ second := by
        rw [find, List.find?_range'_eq_some] at hsecond
        exact (List.mem_range'_1.mp hsecond.2.1).1
      have hsame := (h.2 _ (find_some hsecond).1).trans (h.2 _ hfirst).symm
      omega
    · rename_i honce
      have hnone := (find_none hquote).mp (Option.not_isSome_iff_eq_none.mp honce)
      have hunique : ∀ j, OccursAt text quote j → j = first := by
        intro j hj
        rcases Nat.lt_trichotomy j first with hlt | heq | hgt
        · exact absurd hj (hleast j (Nat.zero_le _) hlt)
        · exact heq
        · exact absurd hj (hnone j hgt)
      constructor
      · intro h
        cases h
        exact ⟨hfirst, hunique⟩
      · intro h
        rw [hunique start h.1]

theorem startOf_some {charHint : Int} :
    startOf text quote (some charHint) = .ok start ↔
      0 ≤ charHint ∧ OccursAt text quote charHint.toNat ∧ start = charHint.toNat := by
  unfold startOf
  dsimp only
  split
  · rename_i hwrong
    refine iff_of_false (by simp) fun h => ?_
    rcases hwrong with hneg | hslice
    · omega
    · exact hslice (occursAt_iff_slice.mp h.2.1)
  · rename_i hright
    rw [not_or, Int.not_lt, Decidable.not_not] at hright
    constructor
    · intro h
      cases h
      exact ⟨hright.1, occursAt_iff_slice.mpr hright.2, rfl⟩
    · intro h
      rw [h.2.2]

/-- Whatever start is found, the quote occurs there. -/
theorem startOf_occurs {charHint : Option Int} (hquote : quote ≠ [])
    (h : startOf text quote charHint = .ok start) : OccursAt text quote start := by
  cases charHint with
  | none => exact ((startOf_none hquote).mp h).1
  | some hint =>
    obtain ⟨-, hoccurs, rfl⟩ := startOf_some.mp h
    exact hoccurs

/-! ## Characters and bytes -/

theorem take_eq_append_slice {α : Type} {raw : List α} (hij : i ≤ j) :
    raw.take i ++ slice raw i j = raw.take j := by
  have hfront : (raw.take j).take i = raw.take i := by rw [List.take_take, Nat.min_eq_left hij]
  rw [← hfront, slice, List.take_append_drop]

/-- **A character slice is a byte slice**, between the lengths of what is encoded before its ends. -/
theorem byte_slice (hij : i ≤ j) :
    slice (encoded text) (encoded (text.take i)).length (encoded (text.take j)).length =
      encoded (slice text i j) := by
  have hbytes := slice_encoded (a := text.take i) (b := slice text i j) (d := text.drop j)
  rw [take_eq_append_slice hij, List.take_append_drop] at hbytes
  have hlen : (encoded (text.take j)).length =
      (encoded (text.take i)).length + (encoded (slice text i j)).length := by
    rw [← List.length_append, ← encoded_append, take_eq_append_slice hij]
  rw [hlen, hbytes]

/-- A slice of a slice. -/
theorem slice_of_slice {α : Type} {raw : List α} {a b : Nat} (h : a + j ≤ b) :
    slice (slice raw a b) i j = slice raw (a + i) (a + j) := by
  rw [slice, slice, slice, List.take_drop, List.take_take, Nat.min_eq_left h, List.drop_drop]

theorem scalar_slice (h : Scalar text) : Scalar (slice text i j) := fun c hc =>
  h c (List.mem_of_mem_take (List.mem_of_mem_drop hc))

theorem scalar_take (h : Scalar text) : Scalar (text.take i) := fun c hc =>
  h c (List.mem_of_mem_take hc)

/-! ## The three coordinates -/

/-- An element of a tree is what `get` finds under its id. -/
theorem get_of_mem (h : WellFormed tree.elements) (he : e ∈ tree.elements) : tree.get e.id = some e := by
  have hsome : (tree.get e.id).isSome := List.find?_isSome.mpr ⟨e, he, decide_eq_true rfl⟩
  obtain ⟨found, hfound⟩ := Option.isSome_iff_exists.mp hsome
  have hid : found.id = e.id := by
    rw [DocElementTree.get] at hfound
    simpa using List.find?_some hfound
  rw [hfound, List.inj_on_of_nodup_map h.distinct (List.mem_of_find?_eq_some hfound) he hid]

/-- A byte range of an element is a byte range of the document. -/
theorem global_slice (h : e.Sliced (encoded tree.text)) (hj : j ≤ (encoded e.text).length) :
    slice (encoded tree.text) (e.byteStart + i).toNat (e.byteStart + j).toNat =
      slice (encoded e.text) i j := by
  have hnonneg := h.nonneg
  have hle := h.le
  have hbounded := h.bounded
  have hlen : (encoded e.text).length = e.byteEnd.toNat - e.byteStart.toNat := by
    rw [← h.slice, slice, List.length_drop, List.length_take]
    omega
  rw [← h.slice, slice_of_slice (by omega)]
  congr 1 <;> omega

/-- What a span is of: the characters that the model value names, in all three coordinates. -/
structure SpanOf (tree : DocElementTree) (e : DocElement) (value : List (PyStr × PyValue))
    (span : ExtractedSpan) : Prop where
  verbatim : ∃ start stop i j, subscript value "start" = .ok start ∧
    subscript value "end" = .ok stop ∧ characterRange start stop e.text.length = some (i, j) ∧
      subscript value "text" = .ok (.str (slice e.text i j)) ∧ span.text = slice e.text i j
  elementBytes : decode (slice (encoded e.text) span.byteStart span.byteEnd) = some span.text
  documentBytes : ∃ g, span.globalSpan tree = some g ∧
    decode (slice (encoded tree.text) g.byteStart.toNat g.byteEnd.toNat) = some span.text

theorem characterRange_some {start stop : PyValue} {length : Nat}
    (h : characterRange start stop length = some (i, j)) : i < j ∧ j ≤ length := by
  unfold characterRange at h
  split at h
  · split at h
    · rename_i hrange
      cases h
      omega
    · cases h
  · cases h

theorem str_of_str? {v : PyValue} (h : v.str? = some text) : v = .str text := by
  unfold PyValue.str? at h
  split at h
  · cases h
    rfl
  · cases h

/-- **A normalised span is the model's text**, in the element and in the document. -/
theorem normalizeSpan_spec {toFloat : PyValue → Except Failure PyFloat} {label : LabelSpec}
    {value : List (PyStr × PyValue)} {span : ExtractedSpan} (hwell : WellFormed tree.elements)
    (he : e ∈ tree.elements) (hsliced : e.Sliced (encoded tree.text))
    (h : normalizeSpan toFloat e label value = .ok span) : SpanOf tree e value span := by
  obtain ⟨start, hstart, h⟩ := Fallible.bind_ok.mp h
  obtain ⟨stop, hstop, h⟩ := Fallible.bind_ok.mp h
  split at h
  · cases h
  rename_i i j hrange
  obtain ⟨hlt, hlen⟩ := characterRange_some hrange
  obtain ⟨text, htext, h⟩ := Fallible.bind_ok.mp h
  obtain ⟨-, hrest⟩ | ⟨hverbatim, hrest⟩ := Fallible.ite_ok h
  · cases hrest
  obtain rfl := str_of_str? (Decidable.not_not.mp hverbatim)
  obtain ⟨before, hbefore, h⟩ := Fallible.bind_ok.mp hrest
  obtain ⟨-, rfl⟩ := encodeText_ok.mp hbefore
  obtain ⟨upTo, hupTo, h⟩ := Fallible.bind_ok.mp h
  obtain ⟨-, rfl⟩ := encodeText_ok.mp hupTo
  obtain ⟨raw, -, h⟩ := Fallible.bind_ok.mp h
  obtain ⟨piece, -, h⟩ := Fallible.bind_ok.mp h
  obtain ⟨-, h⟩ | ⟨-, h⟩ := Fallible.ite_ok h
  · cases h
  obtain ⟨given, -, h⟩ := Fallible.bind_ok.mp h
  obtain ⟨-, h⟩ | ⟨-, h⟩ := Fallible.ite_ok h
  · cases h
  obtain ⟨confidence, -, h⟩ := Fallible.bind_ok.mp h
  obtain ⟨-, h⟩ | ⟨-, h⟩ := Fallible.ite_ok h
  · cases h
  cases h
  have hpiece : decode (slice (encoded e.text) (encoded (e.text.take i)).length
      (encoded (e.text.take j)).length) = some (slice e.text i j) := by
    rw [byte_slice hlt.le, decode_encoded (scalar_slice hsliced.scalar)]
  have hupTo : (encoded (e.text.take j)).length ≤ (encoded e.text).length := by
    conv_rhs => rw [← List.take_append_drop j e.text, encoded_append, List.length_append]
    omega
  refine ⟨⟨start, stop, i, j, hstart, hstop, hrange, htext, rfl⟩, hpiece, ?_⟩
  refine ⟨_, congrArg (Option.map _) (get_of_mem hwell he), ?_⟩
  dsimp only
  rw [global_slice hsliced hupTo, hpiece]

/-! ## Quotes -/

theorem OccursAt.bytes (h : OccursAt text quote start) :
    slice (encoded text) (encoded (text.take start)).length
      ((encoded (text.take start)).length + (encoded quote).length) = encoded quote := by
  have hslice := occursAt_iff_slice.mp h
  have htake := @take_eq_append_slice _ _ _ text (Nat.le_add_right start quote.length)
  have hbytes := @byte_slice text _ _ (Nat.le_add_right start quote.length)
  rwa [← htake, hslice, encoded_append, List.length_append] at hbytes

theorem OccursAt.scalar (h : OccursAt text quote start) (hscalar : Scalar text) : Scalar quote :=
  fun c hc => hscalar c (List.mem_of_mem_drop (h.subset hc))

/-- **A resolved quote is recovered from its bytes**, and a quote is resolved where its start is. -/
theorem resolveSpan_ok_iff {charHint : Option Int} {span : Nat × Nat} (hscalar : Scalar text)
    (hquote : quote ≠ []) : resolveSpan text quote charHint = .ok span ↔
      ∃ start, startOf text quote charHint = .ok start ∧
        span = ((encoded (text.take start)).length,
          (encoded (text.take start)).length + (encoded quote).length) := by
  rw [resolveSpan, if_neg hquote]
  constructor
  · intro h
    obtain ⟨start, hstart, h⟩ := Fallible.bind_ok.mp h
    obtain ⟨before, hbefore, h⟩ := Fallible.bind_ok.mp h
    obtain ⟨-, rfl⟩ := encodeText_ok.mp hbefore
    obtain ⟨quoted, hquoted, h⟩ := Fallible.bind_ok.mp h
    obtain ⟨-, rfl⟩ := encodeText_ok.mp hquoted
    obtain ⟨raw, -, h⟩ := Fallible.bind_ok.mp h
    obtain ⟨-, h⟩ | ⟨-, h⟩ := Fallible.ite_ok h
    · cases h
    cases h
    exact ⟨start, hstart, rfl⟩
  · rintro ⟨start, hstart, rfl⟩
    have hoccurs := startOf_occurs hquote hstart
    refine Fallible.bind_ok.mpr ⟨start, hstart, ?_⟩
    refine Fallible.bind_ok.mpr ⟨_, encodeText_ok.mpr ⟨scalar_take hscalar, rfl⟩, ?_⟩
    refine Fallible.bind_ok.mpr ⟨_, encodeText_ok.mpr ⟨hoccurs.scalar hscalar, rfl⟩, ?_⟩
    refine Fallible.bind_ok.mpr ⟨_, encodeText_ok.mpr ⟨hscalar, rfl⟩, ?_⟩
    rw [if_neg]
    rw [not_not, hoccurs.bytes, decode_encoded (hoccurs.scalar hscalar)]

theorem clamp_natCast {length n : Nat} (h : n ≤ length) : clamp length n = n := by
  rw [clamp, if_neg (by omega), Int.toNat_natCast, Nat.min_eq_left h]

/-- What a resolved quote promises: its bytes decode to it, and `verify` finds it there. -/
structure QuoteOf (tree : DocElementTree) (e : DocElement) (quote : PyStr) (span : Nat × Nat) :
    Prop where
  recovered : decode (slice (encoded e.text) span.1 span.2) = some quote
  verifiable : ∀ claim : Claim, claim.elementId = e.id → claim.quote = quote →
    claim.byteStart = span.1 → claim.byteEnd = span.2 →
      claimDoc tree claim = if claim.text.blank then
        .error (.value (lit "claim text must not be empty")) else .ok e.text

theorem resolveSpan_spec {charHint : Option Int} {span : Nat × Nat} (hwell : WellFormed tree.elements)
    (he : e ∈ tree.elements) (hscalar : Scalar e.text) (hquote : quote ≠ [])
    (h : resolveSpan e.text quote charHint = .ok span) : QuoteOf tree e quote span := by
  obtain ⟨start, hstart, rfl⟩ := (resolveSpan_ok_iff hscalar hquote).mp h
  have hoccurs := startOf_occurs hquote hstart
  have hquoted := hoccurs.scalar hscalar
  refine ⟨?_, fun claim hid hclaim hbegin hend => ?_⟩
  · dsimp only
    rw [hoccurs.bytes, decode_encoded hquoted]
  · have hlen : (encoded (e.text.take start)).length + (encoded quote).length ≤
        (encoded e.text).length := by
      have htake := @take_eq_append_slice _ _ _ e.text (Nat.le_add_right start quote.length)
      rw [occursAt_iff_slice.mp hoccurs] at htake
      rw [← List.length_append, ← encoded_append, htake]
      conv_rhs => rw [← List.take_append_drop (start + quote.length) e.text, encoded_append]
      rw [List.length_append]
      exact Nat.le_add_right _ _
    have hraw : sliceInt (encoded e.text) claim.byteStart claim.byteEnd = encoded claim.quote := by
      rw [sliceInt, hbegin, hend, hclaim, clamp_natCast (by omega), clamp_natCast hlen]
      exact hoccurs.bytes
    have hquote' : encodeText claim.quote = .ok (encoded claim.quote) :=
      encodeText_ok.mpr ⟨hclaim ▸ hquoted, rfl⟩
    have htext : encodeText e.text = .ok (encoded e.text) := encodeText_ok.mpr ⟨hscalar, rfl⟩
    simp only [claimDoc, hid, get_of_mem hwell he, htext, hquote', bind, Except.bind]
    rw [if_neg (not_not.mpr hraw)]

/-! ## Every coordinate change -/

/-- Spans and quotes of the element survive every change of coordinates. -/
structure Survives (toFloat : PyValue → Except Failure PyFloat) (tree : DocElementTree)
    (e : DocElement) : Prop where
  spans : ∀ label value span, normalizeSpan toFloat e label value = .ok span →
    SpanOf tree e value span
  unhinted : ∀ quote, quote ≠ [] →
    ((∃ span, resolveSpan e.text quote none = .ok span) ↔ ∃! i, OccursAt e.text quote i)
  hinted : ∀ quote, quote ≠ [] → ∀ charHint,
    ((∃ span, resolveSpan e.text quote (some charHint) = .ok span) ↔
      0 ≤ charHint ∧ OccursAt e.text quote charHint.toNat)
  quotes : ∀ quote, quote ≠ [] → ∀ charHint span, resolveSpan e.text quote charHint = .ok span →
    QuoteOf tree e quote span

/-- **SPANS SURVIVE** in every element of every tree that was built. -/
theorem spans_survive (toFloat : PyValue → Except Failure PyFloat) {sourceId : PyStr}
    {elements : List DocElement} (hbuild : buildTree sourceId elements = .ok tree)
    (he : e ∈ tree.elements) : Survives toFloat tree e := by
  obtain ⟨-, -, hvalid⟩ := buildTree_ok hbuild
  obtain ⟨-, hsliced, hwell⟩ := validate_ok_iff.mp hvalid
  have hscalar := (hsliced e he).scalar
  refine ⟨fun label value span h => normalizeSpan_spec hwell he (hsliced e he) h,
    fun quote hquote => ?_, fun quote hquote charHint => ?_,
    fun quote hquote charHint span h => resolveSpan_spec hwell he hscalar hquote h⟩
  · constructor
    · rintro ⟨span, h⟩
      obtain ⟨start, hstart, -⟩ := (resolveSpan_ok_iff hscalar hquote).mp h
      exact ⟨start, (startOf_none hquote).mp hstart⟩
    · rintro ⟨start, hstart⟩
      exact ⟨_, (resolveSpan_ok_iff hscalar hquote).mpr ⟨start, (startOf_none hquote).mpr hstart, rfl⟩⟩
  · constructor
    · rintro ⟨span, h⟩
      obtain ⟨start, hstart, -⟩ := (resolveSpan_ok_iff hscalar hquote).mp h
      obtain ⟨hnonneg, hoccurs, -⟩ := startOf_some.mp hstart
      exact ⟨hnonneg, hoccurs⟩
    · rintro ⟨hnonneg, hoccurs⟩
      exact ⟨_, (resolveSpan_ok_iff hscalar hquote).mpr
        ⟨charHint.toNat, startOf_some.mpr ⟨hnonneg, hoccurs, rfl⟩, rfl⟩⟩

theorem resume_wellFormed : WellFormed resume where
  distinct := by decide
  kinds := by
    intro e he
    simp only [resume, List.mem_cons, List.not_mem_nil, or_false] at he
    rcases he with rfl | rfl <;> decide
  pages := by
    intro e he
    simp only [resume, List.mem_cons, List.not_mem_nil, or_false] at he
    rcases he with rfl | rfl <;> simp
  forest := by
    have hparent : ∀ a b, IsParent resume a b → a = lit "t" ∧ b = lit "h" := by
      rintro a b ⟨e, he, rfl, hb⟩
      simp only [resume, List.mem_cons, List.not_mem_nil, or_false] at he
      rcases he with rfl | rfl
      · cases hb
      · exact ⟨rfl, (Option.some.inj hb).symm⟩
    refine ⟨fun a b h => ?_, fun a h => ?_⟩
    · rw [(hparent a b h).2]
      decide
    · obtain ⟨b, hfirst, -⟩ := Relation.TransGen.head'_iff.mp h
      obtain ⟨c, -, hlast⟩ := Relation.TransGen.tail'_iff.mp h
      exact absurd ((hparent a b hfirst).1.symm.trans (hparent c a hlast).2) (by decide)

theorem spans_survive_resume : ∃ tree, buildTree (lit "source") resume = .ok tree ∧
    ∀ e ∈ tree.elements, Survives (fun _ => .ok 1) tree e := by
  have hscalar : ∀ e ∈ resume, Scalar e.text := by
    intro e he
    simp only [resume, List.mem_cons, List.not_mem_nil, or_false] at he
    rcases he with rfl | rfl <;> decide
  obtain ⟨tree, hbuild⟩ := @buildTree_of_wellFormed _ (lit "source") hscalar resume_wellFormed
  exact ⟨tree, hbuild, fun e he => spans_survive (fun _ => .ok 1) hbuild he⟩

end ControlPlane.Documents
