/-
  DECOMPOSITION: `Decomposer` of `theorem_ml/extract/claims/decompose.py`, over any dependency parser.

  `AdmissionPipeline` decomposes a document twice, first without entities and predicates and then with
  them.  What is resolved in between changes the words of a claim, but not whether a clause makes one:
  both passes find claims or neither does, and they leave the SAME AMBIGUITY (`decompose_passes`).

  Texts here come from a tree that was validated, so they can be encoded.
-/
import ControlPlane.Documents.Spans
import ControlPlane.Readable
import ControlPlane.Table
import Mathlib.Data.List.Sort
import Mathlib.Data.List.TakeWhile

namespace ControlPlane.Documents

open PyStr

/-! ## Parses -/

/-- A token: its attributes, and its relatives by their positions. -/
structure Token where
  text : PyStr
  lower_ : PyStr
  lemma_ : PyStr
  pos_ : PyStr
  tag_ : PyStr
  dep_ : PyStr
  verbForm : List PyStr
  isPunct : Bool
  idx : Nat
  head : Nat
  children : List Nat
  subtree : List Nat

structure Sentence where
  text : PyStr
  startChar : Nat
  tokens : List Nat

/-- What the parser makes of a text, token by token; its `size` bounds every chain of heads. -/
structure Parse where
  token : Nat → Token
  size : Nat
  sents : List Sentence

/-- The parser, `casefold` and the SHA-256 of a text. -/
structure Language where
  nlp : PyStr → Parse
  casefold : PyStr → PyStr
  sha256 : PyStr → PyStr

/-- `token.pos_ in {'VERB', 'AUX'}`. -/
def Token.isVerb (t : Token) : Bool := [lit "VERB", lit "AUX"].contains t.pos_

def Token.hasDep (t : Token) (deps : List String) : Bool := (deps.map lit).contains t.dep_

/-! ## Mentions -/

abbrev Temporal : Type := List (PyStr × PyValue)

/-- What `link_or_pend` adds to a mention. -/
inductive Link where
  | linked (entityId : PyStr)
  | pending (relation : PyValue)

/-- A resolved mention, and what `_connect` adds to it. -/
structure Entity where
  span : ExtractedSpan
  link : Link
  temporal : Option Temporal := none

/-- `m.get('entity_id')`, if it is truthy. -/
def Entity.entityId? (m : Entity) : Option PyStr :=
  match m.link with
  | .linked [] => none
  | .linked entityId => some entityId
  | .pending _ => none

/-- The mention as a dictionary, as `link_or_pend` makes it. -/
def Entity.toDict (m : Entity) : List (PyStr × PyValue) :=
  [(lit "element_id", .str m.span.elementId), (lit "object_type", .str m.span.objectType),
    (lit "field_key", .str m.span.fieldKey), (lit "label", .str m.span.label),
    (lit "text", .str m.span.text), (lit "byte_start", .int m.span.byteStart),
    (lit "byte_end", .int m.span.byteEnd), (lit "confidence", .float m.span.confidence),
    (lit "target_object_type_id", (m.span.targetObjectTypeId.map PyValue.str).getD .none),
    (lit "executor", .str m.span.executor)] ++
  match m.link with
  | .linked entityId => [(lit "entity_id", .str entityId)]
  | .pending relation => [(lit "entity_id", .none), (lit "pending_relation", relation)]

/-- `[m for m in mentions if m.get('entity_id') and m['byte_end'] <= offset]`. -/
def priorTo (mentions : List Entity) (offset : Nat) : List Entity :=
  mentions.filter fun m => m.entityId?.isSome && decide (m.span.byteEnd ≤ offset)

/-- `max(prior, key=lambda m: m['byte_end'])`, the first of the greatest. -/
def latest : List Entity → Option Entity
  | [] => none
  | m :: rest => match latest rest with
    | none => some m
    | some best => if best.span.byteEnd ≤ m.span.byteEnd then some m else some best

/-! ## Clauses -/

section Sentences

variable (p : Parse)

/-- The tokens of a list that have one of these dependencies. -/
def Parse.withDep (tokens : List Nat) (deps : List String) : List Nat :=
  tokens.filter fun i => (p.token i).hasDep deps

/-- `_noun_tokens`. -/
def Parse.nounTokens : Nat → Nat → List Nat
  | 0, i => [i]
  | fuel + 1, i =>
    (i :: (p.withDep (p.token i).children ["compound", "det", "amod", "poss", "nummod"]).flatMap
      (Parse.nounTokens fuel)).insertionSort (· ≤ ·)

/-- `' '.join(t.text for t in tokens)`. -/
def Parse.words (tokens : List Nat) : PyStr :=
  Readable.join (lit " ") (tokens.map fun i => (p.token i).text)

/-- `_noun_phrase`. -/
def Parse.nounPhrase (i : Nat) : PyStr := p.words (p.nounTokens p.size i)

/-- The loop that looks for the subject of a conjunct at its head. -/
def Parse.inherit : Nat → Nat → List Nat → Nat × List Nat
  | 0, inherited, subjects => (inherited, subjects)
  | fuel + 1, inherited, subjects =>
    if subjects.isEmpty && (p.token inherited).hasDep ["conj"] then
      let head := (p.token inherited).head
      Parse.inherit fuel head (p.withDep (p.token head).children ["nsubj", "nsubjpass"])
    else (inherited, subjects)

/-- The subjects of a clause. -/
def Parse.subjects (verb : Nat) : List Nat :=
  let found := p.inherit p.size verb
    (p.withDep (p.token verb).children ["nsubj", "nsubjpass", "csubj"])
  let head := (p.token found.1).head
  if found.2.isEmpty && (p.token found.1).hasDep ["acl"] && (p.token head).hasDep ["appos"] then
    [(p.token head).head]
  else found.2

/-- What a clause leaves to others. -/
def Parse.excluded (verb : Nat) : List Nat :=
  (p.withDep (p.token verb).children ["relcl", "appos", "conj", "cc"]).flatMap
      (fun child => (p.token child).subtree) ++
    ((p.withDep (p.token verb).subtree ["appos", "relcl"]).filter fun i => i ≠ verb).flatMap
      fun i => (p.token i).subtree

/-- The tokens of a clause, before an antecedent is put in front. -/
def Parse.clauseTokens (verb : Nat) : List Nat :=
  let tokens := (p.token verb).subtree.filter fun i =>
    !(p.excluded verb).contains i && !(p.token i).isPunct
  match p.subjects verb with
  | [] => tokens
  | subject :: _ => if tokens.contains subject then tokens else p.nounTokens p.size subject ++ tokens

/-- The relative pronouns, and what they stand for. -/
def Parse.relatives (verb : Nat) : List (Nat × PyStr) :=
  if (p.token verb).hasDep ["relcl"] then
    ((p.clauseTokens verb).filter fun i =>
      [lit "who", lit "which", lit "that", lit "whom"].contains (p.token i).lower_).map
        fun i => (i, p.nounPhrase (p.token verb).head)
  else []

/-- All tokens of a clause. -/
def Parse.allTokens (verb : Nat) : List Nat :=
  if (p.token verb).hasDep ["relcl"] && (p.subjects verb).isEmpty then
    (p.token verb).head :: p.clauseTokens verb
  else p.clauseTokens verb

/-- `len(element.text[:token.idx].encode('utf-8'))`. -/
def Parse.offset (element : DocElement) (i : Nat) : Nat :=
  (encoded (element.text.take (p.token i).idx)).length

/-- What a pronoun stands for: the last mention in front of it. -/
def Parse.pronoun (element : DocElement) (mentions : List Entity) (i : Nat) : Option (Nat × PyStr) :=
  (latest (priorTo mentions (p.offset element i))).map fun m =>
    (i, m.span.text ++ if (p.token i).hasDep ["poss"] then lit "'s" else [])

/-- `replacements`. -/
def Parse.replacements (element : DocElement) (mentions : List Entity) (verb : Nat) :
    List (Nat × PyStr) :=
  p.relatives verb ++ (p.allTokens verb).filterMap fun i =>
    if (p.token i).pos_ = lit "PRON" ∧ (p.relatives verb).lookup i = none then
      p.pronoun element mentions i
    else none

/-- The text of a clause. -/
def Parse.clauseText (element : DocElement) (mentions : List Entity) (verb : Nat) : PyStr :=
  strip (Readable.join (lit " ") ((p.allTokens verb).map fun i =>
    ((p.replacements element mentions verb).lookup i).getD (p.token i).text))

/-- A candidate: text, subject, predicate and object. -/
structure Candidate where
  text : PyStr
  subjectId : Option PyStr
  predicate : PyStr
  objectText : Option PyStr

variable (casefold : PyStr → PyStr)

/-- The last linked mention of a name. -/
def lastNamed (mentions : List Entity) (name : PyStr) : Option PyStr :=
  ((mentions.filter fun m => m.entityId?.isSome && casefold m.span.text == casefold name).getLast?).bind
    Entity.entityId?

/-- The predicate of a clause, and whose field it is if it is declared. -/
def Parse.predicate (element : DocElement) (mentions : List Entity) (declaredPredicates : List PyStr)
    (verb : Nat) : PyStr × Option PyStr :=
  match p.subjects verb with
  | [] => ((p.token verb).lemma_, none)
  | subject :: _ =>
    if (p.token verb).lemma_ = lit "be" then
      match declaredPredicates.find? fun key => casefold (p.token subject).lemma_ == casefold key with
      | none | some [] => ((p.token verb).lemma_, none)
      | some key =>
        (key, (latest (priorTo mentions (p.offset element subject))).bind Entity.entityId?)
    else ((p.token verb).lemma_, none)

/-- What one clause gives. -/
def Parse.clause (element : DocElement) (mentions : List Entity) (declaredPredicates : List PyStr)
    (verb : Nat) : Option Candidate :=
  let text := p.clauseText element mentions verb
  if text = [] then none
  else
    let subject := (p.subjects verb).head?.bind fun subject =>
      lastNamed casefold mentions
        (((p.replacements element mentions verb).lookup subject).getD (p.nounPhrase subject))
    let predicate := p.predicate casefold element mentions declaredPredicates verb
    some {
      text := text
      subjectId := predicate.2.or subject
      predicate := predicate.1
      objectText := (p.withDep (p.token verb).children ["dobj", "attr", "acomp", "oprd"]).head?.map
        fun i => p.words (p.token i).subtree }

/-- What one apposition gives. -/
def Parse.apposition (mentions : List Entity) (i : Nat) : Candidate :=
  let head := p.nounPhrase (p.token i).head
  let excluded := (p.withDep (p.token i).children ["acl", "relcl", "conj"]).flatMap
    fun child => (p.token child).subtree
  let description := p.words ((p.token i).subtree.filter fun t =>
    !(p.token t).isPunct && !excluded.contains t)
  { text := head ++ lit " is " ++ description
    subjectId := lastNamed casefold mentions head
    predicate := lit "be"
    objectText := some description }

/-- `_sentence_claims`. -/
def Parse.sentenceClaims (s : Sentence) (element : DocElement) (mentions : List Entity)
    (declaredPredicates : List PyStr) : List Candidate :=
  (s.tokens.filter fun i => (p.token i).isVerb &&
      (p.token i).hasDep ["ROOT", "relcl", "conj", "acl"]).filterMap
    (p.clause casefold element mentions declaredPredicates) ++
  (p.withDep s.tokens ["appos"]).map (p.apposition casefold mentions)

end Sentences

/-! ## Documents -/

/-- `Decomposition`. -/
structure Decomposition where
  claims : List Claim
  ambiguous : List PyValue

section Documents

variable (l : Language)

/-- `Claim.id`. -/
def Language.claimId (claim : Claim) : PyStr :=
  lit "claim:" ++ l.sha256 (claim.elementId ++ [0] ++ lit (toString claim.byteStart) ++ [0] ++
    lit (toString claim.byteEnd) ++ [0] ++ claim.text)

/-- Whether a sentence has a finite verb. -/
def Parse.finite (p : Parse) (s : Sentence) : Bool :=
  s.tokens.any fun i => (p.token i).isVerb && ((p.token i).verbForm.contains (lit "Fin") ||
    [lit "VBD", lit "VBP", lit "VBZ", lit "MD"].contains (p.token i).tag_)

/-- An entry of `ambiguous`. -/
def ambiguity (element : DocElement) (s : Sentence) (reason : String) : PyValue :=
  .dict [(lit "element_id", .str element.id), (lit "quote", .str s.text),
    (lit "reason", .str (lit reason))]

/-- What a candidate adds: a claim, unless it is there already or its sentence is not found. -/
def Language.addCandidate (element : DocElement) (s : Sentence) (mentions : List Entity)
    (result : Decomposition) (c : Candidate) : Decomposition :=
  match resolveSpan element.text s.text (some s.startChar) with
  | .error _ => { result with
      ambiguous := result.ambiguous ++ [ambiguity element s "unresolved_quote"] }
  | .ok span =>
    let claim : Claim := {
      text := c.text
      quote := s.text
      elementId := element.id
      byteStart := span.1
      byteEnd := span.2
      subjectId := c.subjectId
      predicate := some c.predicate
      objectText := c.objectText
      entityMentions := (mentions.filter fun m =>
        decide (span.1 ≤ m.span.byteStart) && decide (m.span.byteStart < span.2)).map Entity.toDict }
    if (result.claims.map l.claimId).contains (l.claimId claim) then result
    else { result with claims := result.claims ++ [claim] }

/-- What a sentence adds. -/
def Language.addSentence (p : Parse) (element : DocElement) (mentions : List Entity)
    (declaredPredicates : List PyStr) (result : Decomposition) (s : Sentence) : Decomposition :=
  let candidates := p.sentenceClaims l.casefold s element mentions declaredPredicates
  let result := if candidates.isEmpty && p.finite s then { result with
      ambiguous := result.ambiguous ++ [ambiguity element s "finite_verb_without_claim"] } else result
  candidates.foldl (l.addCandidate element s mentions) result

/-- What an element adds. -/
def Language.addElement (entities : List Entity) (declaredPredicates : List PyStr)
    (result : Decomposition) (element : DocElement) : Decomposition :=
  if [lit "Paragraph", lit "ListItem", lit "Footnote"].contains element.kind then
    (l.nlp element.text).sents.foldl (l.addSentence (l.nlp element.text) element
      (entities.filter fun m => m.span.elementId = element.id) declaredPredicates) result
  else result

/-- `decompose`, with `derive_claims`. -/
def Language.decompose (tree : DocElementTree) (entities : List Entity)
    (declaredPredicates : List PyStr) : Decomposition :=
  tree.elements.foldl (l.addElement entities declaredPredicates) ⟨[], []⟩

end Documents

/-! ## The words of a clause -/

/-- A pronoun is a word: the parser tags white space as `SPACE`. -/
def Language.Visible (l : Language) : Prop :=
  ∀ text i, ((l.nlp text).token i).pos_ = lit "PRON" → ((l.nlp text).token i).text.blank = false

/-- The text of a mention is not white space. -/
def Entity.Visible (m : Entity) : Prop := m.span.text.blank = false

variable {l : Language} {p : Parse} {element : DocElement} {mentions : List Entity}
  {declaredPredicates : List PyStr} {verb i : Nat} {text name : PyStr} {s : Sentence}

/-- `text.strip()` is empty where the text is white space. -/
theorem strip_eq_nil : strip text = [] ↔ blank text = true := by
  rw [strip, rstrip, List.reverse_eq_nil_iff, List.dropWhile_eq_nil_iff, blank, List.all_eq_true]
  constructor
  · intro h c hc
    rw [← List.takeWhile_append_dropWhile (p := isSpace) (l := text), List.mem_append] at hc
    rcases hc with hc | hc
    · exact List.mem_takeWhile_imp hc
    · exact h c (List.mem_reverse.mpr hc)
  · intro h c hc
    exact h c ((List.dropWhile_sublist _).mem (List.mem_reverse.mp hc))

theorem blank_append {a b : PyStr} : blank (a ++ b) = (blank a && blank b) := List.all_append

/-- Words with a blank in between are white space where each is. -/
theorem blank_join {texts : List PyStr} :
    blank (Readable.join (lit " ") texts) = texts.all blank := by
  cases texts with
  | nil => rfl
  | cons first rest =>
    rw [Readable.join_cons, blank_append, List.all_cons]
    congr 1
    induction rest with
    | nil => rfl
    | cons next rest ih =>
      rw [List.flatMap_cons, blank_append, blank_append, ih, List.all_cons]
      rfl

theorem latest_mem {m : Entity} (h : latest mentions = some m) : m ∈ mentions := by
  induction mentions generalizing m with
  | nil => cases h
  | cons first rest ih =>
    rw [latest] at h
    split at h
    · cases h
      exact List.mem_cons_self
    · rename_i best hbest
      split at h
      · cases h
        exact List.mem_cons_self
      · cases h
        exact List.mem_cons_of_mem _ (ih hbest)

/-- What a pronoun stands for is a word. -/
theorem pronoun_visible {found : Nat × PyStr} (hmentions : ∀ m ∈ mentions, m.Visible)
    (h : p.pronoun element mentions i = some found) : found.1 = i ∧ blank found.2 = false := by
  obtain ⟨m, hm, rfl⟩ := Option.map_eq_some_iff.mp h
  refine ⟨rfl, ?_⟩
  rw [blank_append, hmentions m (List.mem_of_mem_filter (latest_mem hm)), Bool.false_and]

theorem pronoun_nil : p.pronoun element [] i = none := rfl

theorem replacements_nil : p.replacements element [] verb = p.relatives verb := by
  simp [Parse.replacements, pronoun_nil]

/-- A word is replaced by a word. -/
theorem replaced_blank (hpron : ∀ i, (p.token i).pos_ = lit "PRON" → blank (p.token i).text = false)
    (hmentions : ∀ m ∈ mentions, m.Visible) (i : Nat) :
    blank (((p.replacements element mentions verb).lookup i).getD (p.token i).text) =
      blank (((p.replacements element [] verb).lookup i).getD (p.token i).text) := by
  rw [replacements_nil, Parse.replacements, List.lookup_append]
  cases hrelative : (p.relatives verb).lookup i with
  | some name => rfl
  | none =>
    rw [Option.none_or]
    cases hpronoun : List.lookup i _ with
    | none => rfl
    | some name =>
      obtain ⟨j, -, hfound⟩ := List.mem_filterMap.mp (Table.mem_of_lookup hpronoun)
      split at hfound
      · rename_i hword
        obtain ⟨rfl, hvisible⟩ := pronoun_visible hmentions hfound
        rw [Option.getD_some, Option.getD_none, hvisible, hpron _ hword.1]
      · cases hfound

/-- **A CLAUSE SAYS SOMETHING** with the mentions where it does without. -/
theorem clauseText_nil (hpron : ∀ i, (p.token i).pos_ = lit "PRON" → blank (p.token i).text = false)
    (hmentions : ∀ m ∈ mentions, m.Visible) :
    p.clauseText element mentions verb = [] ↔ p.clauseText element [] verb = [] := by
  rw [Parse.clauseText, Parse.clauseText, strip_eq_nil, strip_eq_nil, blank_join, blank_join,
    List.all_map, List.all_map]
  refine Eq.congr (List.all_congr rfl fun i => ?_) rfl
  exact replaced_blank hpron hmentions i

/-! ## Two passes -/

/-- Both passes find as many candidates in a sentence. -/
theorem sentenceClaims_length
    (hpron : ∀ i, (p.token i).pos_ = lit "PRON" → blank (p.token i).text = false)
    (hmentions : ∀ m ∈ mentions, m.Visible) (casefold : PyStr → PyStr) :
    (p.sentenceClaims casefold s element mentions declaredPredicates).length =
      (p.sentenceClaims casefold s element [] []).length := by
  have hclause : ∀ verb, (p.clause casefold element mentions declaredPredicates verb).isSome =
      (p.clause casefold element [] [] verb).isSome := by
    intro verb
    have htext := @clauseText_nil p element mentions verb hpron hmentions
    unfold Parse.clause
    by_cases hnil : p.clauseText element mentions verb = []
    · rw [if_pos hnil, if_pos (htext.mp hnil)]
    · rw [if_neg hnil, if_neg fun h => hnil (htext.mpr h)]
      rfl
  rw [Parse.sentenceClaims, Parse.sentenceClaims, List.length_append, List.length_append,
    List.length_map, List.length_map, List.length_filterMap_eq_countP, List.length_filterMap_eq_countP]
  congr 2
  exact funext hclause

/-- Results with the same ambiguity, and with claims both or neither. -/
structure Alike (r r' : Decomposition) : Prop where
  ambiguous : r.ambiguous = r'.ambiguous
  claims : r.claims = [] ↔ r'.claims = []

variable {r r' : Decomposition}

/-- There are claims where one was added, also if it was there. -/
theorem added_claims {claim : Claim} :
    (if (r.claims.map l.claimId).contains (l.claimId claim) then r
      else { r with claims := r.claims ++ [claim] }).claims ≠ [] := by
  split
  · rename_i hthere
    intro hnil
    rw [hnil] at hthere
    cases hthere
  · exact List.concat_ne_nil _ _

theorem addCandidate_alike (h : Alike r r') (c c' : Candidate) (mentions mentions' : List Entity) :
    Alike (l.addCandidate element s mentions r c) (l.addCandidate element s mentions' r' c') := by
  unfold Language.addCandidate
  split
  · exact ⟨congrArg (· ++ _) h.ambiguous, h.claims⟩
  · dsimp only
    refine ⟨?_, iff_of_false ?_ ?_⟩
    · split <;> split <;> exact h.ambiguous
    · exact added_claims
    · exact added_claims

/-- Whether a sentence is found does not depend on what is claimed of it. -/
theorem addCandidates_alike {cs cs' : List Candidate} (h : Alike r r')
    (hlength : cs.length = cs'.length) (mentions mentions' : List Entity) :
    Alike (cs.foldl (l.addCandidate element s mentions) r)
      (cs'.foldl (l.addCandidate element s mentions') r') := by
  induction cs generalizing cs' r r' with
  | nil =>
    rw [List.eq_nil_of_length_eq_zero hlength.symm]
    exact h
  | cons c cs ih =>
    cases cs' with
    | nil => cases hlength
    | cons c' cs' =>
      rw [List.length_cons, List.length_cons] at hlength
      rw [List.foldl_cons, List.foldl_cons]
      exact ih (addCandidate_alike h c c' mentions mentions') (Nat.succ.inj hlength)

/-- To go through a list keeps results alike where each item does. -/
theorem foldl_alike {α : Type} {f g : Decomposition → α → Decomposition} {items : List α}
    (hstep : ∀ r r' a, Alike r r' → Alike (f r a) (g r' a)) (h : Alike r r') :
    Alike (items.foldl f r) (items.foldl g r') := by
  induction items generalizing r r' with
  | nil => exact h
  | cons a items ih => exact ih (hstep r r' a h)

theorem addSentence_alike (hpron : ∀ i, (p.token i).pos_ = lit "PRON" → blank (p.token i).text = false)
    (hmentions : ∀ m ∈ mentions, m.Visible) (h : Alike r r') :
    Alike (l.addSentence p element mentions declaredPredicates r s) (l.addSentence p element [] [] r' s) := by
  have hlength := @sentenceClaims_length p element mentions declaredPredicates s hpron hmentions
    l.casefold
  have hempty : (p.sentenceClaims l.casefold s element mentions declaredPredicates).isEmpty =
      (p.sentenceClaims l.casefold s element [] []).isEmpty := by
    rw [Bool.eq_iff_iff, List.isEmpty_iff_length_eq_zero, List.isEmpty_iff_length_eq_zero, hlength]
  refine addCandidates_alike ?_ hlength mentions []
  rw [hempty]
  split
  · exact ⟨congrArg (· ++ _) h.ambiguous, h.claims⟩
  · exact h

/-- **BOTH PASSES** over a document leave the same ambiguity, and both find claims or neither does. -/
theorem decompose_passes (hwords : l.Visible) {entities : List Entity}
    (hmentions : ∀ m ∈ entities, m.Visible) (tree : DocElementTree) (declaredPredicates : List PyStr) :
    Alike (l.decompose tree entities declaredPredicates) (l.decompose tree [] []) := by
  refine foldl_alike (fun r r' e h => ?_) ⟨rfl, Iff.rfl⟩
  unfold Language.addElement
  split
  · refine foldl_alike (fun r r' s h => ?_) h
    rw [List.filter_nil]
    exact addSentence_alike (hwords e.text) (fun m hm => hmentions m (List.mem_of_mem_filter hm)) h
  · exact h

end ControlPlane.Documents
