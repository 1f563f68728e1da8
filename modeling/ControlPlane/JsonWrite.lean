/-
  READING JSON BACK: the canonical text of a value determines the value.

  1. `write` is `dumps` without its sorting; the text of a value is the writing of the value with
     its keys sorted (`dumps_eq_write`).
  2. A written value is read back in front of anything that ends a value (`write_readable`), by
     induction on the value.
  3. Canonical texts are equal exactly for values that are equal up to the order of keys
     (`dumps_eq_iff`).

  What is needed of `float.__repr__` is named in `ReprLaws`.
-/
import ControlPlane.JsonText
import ControlPlane.Sorting
import Mathlib.Data.List.Perm.Basic

namespace ControlPlane.Json

open PyStr Readable

/-! ## Writing without sorting -/

section Write

variable (style : Style) (repr : PyFloat → PyStr)

mutual

/-- `json.dumps(value, …)` in a given style, with the keys in the order they have. -/
def writeIn : Json → PyStr
  | .null => PyStr.lit "null"
  | .bool b => PyStr.lit (if b then "true" else "false")
  | .int n => PyStr.lit (toString n)
  | .float x => floatText repr x
  | .negZero => PyStr.lit "-0.0"
  | .str text => style.quote text
  | .arr items => [0x5B] ++ Json.join style.item (writeItems items) ++ [0x5D]
  | .obj fields => [0x7B] ++ Json.join style.item (writeFields fields) ++ [0x7D]

def writeItems : List Json → List PyStr
  | [] => []
  | item :: items => writeIn item :: writeItems items

def writeFields : List (PyStr × Json) → List PyStr
  | [] => []
  | (key, value) :: fields => (style.quote key ++ style.key ++ writeIn value) :: writeFields fields

end

/-- One field of an object. -/
def writeField (f : PyStr × Json) : PyStr := style.quote f.1 ++ style.key ++ writeIn style repr f.2

/-- `json.dumps(value, ensure_ascii=False, separators=(",", ":"))`. -/
def write (value : Json) : PyStr := writeIn canonical repr value

theorem writeItems_eq (items : List Json) :
    writeItems style repr items = items.map (writeIn style repr) := by
  induction items with
  | nil => rfl
  | cons item items ih => rw [writeItems, ih, List.map_cons]

theorem writeFields_eq (fields : List (PyStr × Json)) :
    writeFields style repr fields = fields.map (writeField style repr) := by
  induction fields with
  | nil => rfl
  | cons f fields ih => rw [writeFields, ih, List.map_cons, writeField]

theorem sortItems_eq (items : List Json) : sortItems items = items.map sortKeys := by
  induction items with
  | nil => rfl
  | cons item items ih => rw [sortItems, ih, List.map_cons]

theorem sortValues_eq (fields : List (PyStr × Json)) :
    sortValues fields = fields.map fun f => (f.1, sortKeys f.2) := by
  induction fields with
  | nil => rfl
  | cons f fields ih => rw [sortValues, ih, List.map_cons]

/-- Fields are sorted by their keys, whatever is made of their values. -/
theorem sortFields_map {α β : Type} (g : α → β) (fields : List (PyStr × α)) :
    sortFields (fields.map fun f => (f.1, g f.2)) = (sortFields fields).map fun f => (f.1, g f.2) :=
  (List.map_insertionSort (fun a b : PyStr × α => a.1 ≤ b.1) (fun a b : PyStr × β => a.1 ≤ b.1)
    (fun f => (f.1, g f.2)) fields fun _ _ _ _ => Iff.rfl).symm

mutual

/-- Sorting while writing, or before. -/
theorem dumpsIn_eq_writeIn : ∀ value : Json,
    dumpsIn style repr value = writeIn style repr (sortKeys value)
  | .null | .bool _ | .int _ | .float _ | .negZero | .str _ => rfl
  | .arr items => by rw [dumpsIn, sortKeys, writeIn, dumpsItems_eq_writeItems items]
  | .obj fields => by
    have hfields : (sortFields (dumpsFields style repr fields)).map (fun f =>
        style.quote f.1 ++ style.key ++ f.2) =
          writeFields style repr (sortFields (sortValues fields)) := by
      rw [dumpsFields_eq_map fields, sortFields_map, writeFields_eq, List.map_map]
      rfl
    rw [dumpsIn, sortKeys, writeIn, hfields]

theorem dumpsItems_eq_writeItems : ∀ items : List Json,
    dumpsItems style repr items = writeItems style repr (sortItems items)
  | [] => rfl
  | item :: items => by
    rw [dumpsItems, sortItems, writeItems, dumpsIn_eq_writeIn item, dumpsItems_eq_writeItems items]

theorem dumpsFields_eq_map : ∀ fields : List (PyStr × Json),
    dumpsFields style repr fields =
      (sortValues fields).map fun f => (f.1, writeIn style repr f.2)
  | [] => rfl
  | (key, value) :: fields => by
    rw [dumpsFields, sortValues, List.map_cons, dumpsIn_eq_writeIn value, dumpsFields_eq_map fields]

end

/-- The canonical text of a value is the writing of the value with its keys sorted. -/
theorem dumps_eq_write (value : Json) : dumps repr value = write repr (sortKeys value) :=
  dumpsIn_eq_writeIn canonical repr value

end Write

/-! ## Scalars -/

mutual

/-- The floats in a value. -/
def floats : Json → List PyFloat
  | .float x => [x]
  | .arr items => floatsOfItems items
  | .obj fields => floatsOfFields fields
  | _ => []

def floatsOfItems : List Json → List PyFloat
  | [] => []
  | item :: items => floats item ++ floatsOfItems items

def floatsOfFields : List (PyStr × Json) → List PyFloat
  | [] => []
  | (_, value) :: fields => floats value ++ floatsOfFields fields

end

/-- One of `0123456789+-.e`, with which `float.__repr__` writes a finite float. -/
def isNumeral (c : CodePoint) : Bool :=
  (0x30 ≤ c.val && c.val ≤ 0x39) || c == 0x2B || c == 0x2D || c == 0x2E || c == 0x65

/-- What `float.__repr__` does on the finite floats that satisfy `P`. -/
structure ReprLaws (P : ℚ → Prop) (repr : PyFloat → PyStr) : Prop where
  numeral : ∀ q, P q → (repr (.finite q)).all isNumeral = true
  /-- A point or an exponent tells a float from an integer. -/
  marked : ∀ q, P q → ∃ c ∈ repr (.finite q), c = 0x2E ∨ c = 0x65
  injective : ∀ q q', P q → P q' → repr (.finite q) = repr (.finite q') → q = q'
  /-- Only -0.0 is written so. -/
  unsigned : ∀ q, P q → repr (.finite q) ≠ PyStr.lit "-0.0"

/-- Every finite float in the value satisfies `P`. -/
def FloatsIn (P : ℚ → Prop) (value : Json) : Prop := ∀ q, .finite q ∈ floats value → P q

/-- The texts without a quote or a bracket that are no numbers. -/
def words : List (Json × PyStr) :=
  [(.null, PyStr.lit "null"), (.bool true, PyStr.lit "true"), (.bool false, PyStr.lit "false"),
    (.float .nan, PyStr.lit "NaN"), (.float (.inf false), PyStr.lit "Infinity"),
    (.float (.inf true), PyStr.lit "-Infinity")]

/-- The value that a word stands for. -/
def wordValue (text : PyStr) : Option Json :=
  if text = PyStr.lit "null" then some .null
  else if text = PyStr.lit "true" then some (.bool true)
  else if text = PyStr.lit "false" then some (.bool false)
  else if text = PyStr.lit "NaN" then some (.float .nan)
  else if text = PyStr.lit "Infinity" then some (.float (.inf false))
  else if text = PyStr.lit "-Infinity" then some (.float (.inf true))
  else none

theorem wordValue_of_mem {value : Json} {text : PyStr} (h : (value, text) ∈ words) :
    wordValue text = some value := by
  simp only [words, List.mem_cons, Prod.mk.injEq, List.not_mem_nil, or_false] at h
  rcases h with ⟨rfl, rfl⟩ | ⟨rfl, rfl⟩ | ⟨rfl, rfl⟩ | ⟨rfl, rfl⟩ | ⟨rfl, rfl⟩ | ⟨rfl, rfl⟩ <;> rfl

/-- A word has a letter that no number has, and no character that ends a value. -/
theorem word_letter {value : Json} {text : PyStr} (h : (value, text) ∈ words) :
    text.all isNumeral = false := by
  have hall : (words.all fun w => !w.2.all isNumeral) = true := by decide
  simpa using List.all_eq_true.mp hall _ h

/-- A text with neither a quote nor a bracket. -/
inductive Scalar (P : ℚ → Prop) (repr : PyFloat → PyStr) : Json → PyStr → Prop where
  | word {value : Json} {text : PyStr} (h : (value, text) ∈ words) : Scalar P repr value text
  | int (n : Int) : Scalar P repr (.int n) (PyStr.lit (toString n))
  | float (q : ℚ) (h : P q) : Scalar P repr (.float (.finite q)) (repr (.finite q))
  | negZero : Scalar P repr .negZero (PyStr.lit "-0.0")

theorem nat_repr_injective {m n : Nat} (h : toString m = toString n) : m = n := by
  have hdigits := congrArg String.toList h
  rw [Nat.toString_eq_repr, Nat.toString_eq_repr, Nat.toList_repr, Nat.toList_repr] at hdigits
  rw [← Nat.ofDigitChars_ten_toDigits (n := m), hdigits, Nat.ofDigitChars_ten_toDigits]

/-- A digit. -/
def isDigit (c : CodePoint) : Bool := decide (0x30 ≤ c.val) && decide (c.val ≤ 0x39)

theorem lit_nat_digits (n : Nat) : (PyStr.lit (toString n)).all isDigit = true := by
  rw [List.all_eq_true]
  intro c hc
  obtain ⟨d, hd, rfl⟩ := List.mem_map.mp hc
  have hdigits : d ∈ Nat.toDigits 10 n := by
    rw [← Nat.toList_repr]
    exact hd
  have hdigit := Nat.isDigit_of_mem_toDigits (by decide) (by decide) hdigits
  simp only [Char.isDigit, Bool.and_eq_true, decide_eq_true_eq, ge_iff_le, UInt32.le_iff_toNat_le]
    at hdigit
  have hrange : 48 ≤ d.toNat ∧ d.toNat ≤ 57 := hdigit
  have hval : (Fin.ofNat 0x110000 d.toNat).val = d.toNat := Nat.mod_eq_of_lt (by omega)
  simp only [isDigit, hval, Bool.and_eq_true, decide_eq_true_eq]
  exact hrange

theorem lit_nat_ne_nil (n : Nat) : PyStr.lit (toString n) ≠ [] := by
  rw [PyStr.lit, ne_eq, List.map_eq_nil_iff, Nat.toString_eq_repr, Nat.toList_repr]
  exact Nat.toDigits_ne_nil

/-- An integer is written with an optional minus and digits. -/
theorem lit_int_cases (n : Int) : ∃ m : Nat,
    (n = m ∧ PyStr.lit (toString n) = PyStr.lit (toString m)) ∨
      (n = -(m : Int) ∧ PyStr.lit (toString n) = 0x2D :: PyStr.lit (toString m)) := by
  cases n with
  | ofNat m => exact ⟨m, Or.inl ⟨rfl, rfl⟩⟩
  | negSucc m =>
    refine ⟨m + 1, Or.inr ⟨rfl, ?_⟩⟩
    show PyStr.lit ("-" ++ toString (m + 1)) = _
    rw [lit_append]
    rfl

theorem isNumeral_of_isDigit {c : CodePoint} (h : isDigit c = true) : isNumeral c = true := by
  rw [isDigit] at h
  rw [isNumeral, h]
  rfl

/-- An integer is a numeral, without a point and without an exponent. -/
theorem lit_int_numeral (n : Int) : (PyStr.lit (toString n)).all isNumeral = true ∧
    ∀ c ∈ PyStr.lit (toString n), c ≠ 0x2E ∧ c ≠ 0x65 := by
  have hdigits : ∀ m : Nat, ∀ c ∈ PyStr.lit (toString m), isDigit c = true := fun m =>
    List.all_eq_true.mp (lit_nat_digits m)
  have hapart : ∀ c, isDigit c = true → c ≠ 0x2E ∧ c ≠ 0x65 := by
    intro c hc
    constructor <;> rintro rfl <;> exact absurd hc (by decide)
  obtain ⟨m, ⟨-, htext⟩ | ⟨-, htext⟩⟩ := lit_int_cases n
  · rw [htext, List.all_eq_true]
    exact ⟨fun c hc => isNumeral_of_isDigit (hdigits m c hc), fun c hc => hapart c (hdigits m c hc)⟩
  · rw [htext, List.all_cons, List.all_eq_true.mpr fun c hc => isNumeral_of_isDigit (hdigits m c hc)]
    refine ⟨by decide, fun c hc => ?_⟩
    rcases List.mem_cons.mp hc with rfl | hc
    · decide
    · exact hapart c (hdigits m c hc)

theorem lit_int_injective {m n : Int} (h : PyStr.lit (toString m) = PyStr.lit (toString n)) :
    m = n := by
  have hhead : ∀ k : Nat, ∀ text, PyStr.lit (toString k) ≠ 0x2D :: text := by
    intro k text htext
    have hall := lit_nat_digits k
    rw [htext, List.all_cons, Bool.and_eq_true] at hall
    exact absurd hall.1 (by decide)
  obtain ⟨k, ⟨rfl, hk⟩ | ⟨rfl, hk⟩⟩ := lit_int_cases m <;>
    obtain ⟨l, ⟨rfl, hl⟩ | ⟨rfl, hl⟩⟩ := lit_int_cases n <;> rw [hk, hl] at h
  · rw [nat_repr_injective (PyStr.lit_injective h)]
  · exact absurd h (hhead k _)
  · exact absurd h.symm (hhead l _)
  · rw [nat_repr_injective (PyStr.lit_injective (List.cons.inj h).2)]

section Scalars

variable {P : ℚ → Prop} {repr : PyFloat → PyStr} {v w : Json} {t u : PyStr}

theorem negZero_numeral : (PyStr.lit "-0.0").all isNumeral = true := by decide

/-- Scalars with the same text are the same. -/
theorem Scalar.unique (laws : ReprLaws P repr) (hv : Scalar P repr v t) (hw : Scalar P repr w u)
    (h : t = u) : v = w := by
  have hword : ∀ {value text text'}, (value, text) ∈ words → text'.all isNumeral = true →
      text ≠ text' := by
    rintro value text text' hmem hnumeral rfl
    rw [word_letter hmem] at hnumeral
    cases hnumeral
  have hint : ∀ n : Int, ∀ text, (∃ c ∈ text, c = 0x2E ∨ c = 0x65) →
      PyStr.lit (toString n) ≠ text := by
    rintro n text ⟨c, hc, hmark⟩ rfl
    have hapart := (lit_int_numeral n).2 c hc
    exact hmark.elim hapart.1 hapart.2
  have hpoint : ∃ c ∈ PyStr.lit "-0.0", c = 0x2E ∨ c = 0x65 := ⟨0x2E, by decide, Or.inl rfl⟩
  cases hv with
  | word hv =>
    cases hw with
    | word hw =>
      rw [h] at hv
      exact Option.some.inj ((wordValue_of_mem hv).symm.trans (wordValue_of_mem hw))
    | int n => exact absurd h (hword hv (lit_int_numeral n).1)
    | float q hq => exact absurd h (hword hv (laws.numeral q hq))
    | negZero => exact absurd h (hword hv negZero_numeral)
  | int n =>
    cases hw with
    | word hw => exact absurd h.symm (hword hw (lit_int_numeral n).1)
    | int m => rw [lit_int_injective h]
    | float q hq => exact absurd h (hint n _ (laws.marked q hq))
    | negZero => exact absurd h (hint n _ hpoint)
  | float q hq =>
    cases hw with
    | word hw => exact absurd h.symm (hword hw (laws.numeral q hq))
    | int n => exact absurd h.symm (hint n _ (laws.marked q hq))
    | float q' hq' => rw [laws.injective q q' hq hq' h]
    | negZero => exact absurd h (laws.unsigned q hq)
  | negZero =>
    cases hw with
    | word hw => exact absurd h.symm (hword hw negZero_numeral)
    | int n => exact absurd h.symm (hint n _ hpoint)
    | float q hq => exact absurd h.symm (laws.unsigned q hq)
    | negZero => rfl

/-- What does not end a value: neither a NUL nor a comma nor a closing bracket. -/
def isInner (c : CodePoint) : Bool := c != 0x00 && c != 0x2C && c != 0x5D && c != 0x7D

theorem isInner_of_isNumeral {c : CodePoint} (h : isNumeral c = true) : isInner c = true := by
  simp only [isInner, Bool.and_eq_true, bne_iff_ne]
  refine ⟨⟨⟨?_, ?_⟩, ?_⟩, ?_⟩ <;> rintro rfl <;> exact absurd h (by decide)

theorem all_isInner {text : PyStr} (h : text.all isNumeral = true) : text.all isInner = true := by
  rw [List.all_eq_true] at h ⊢
  exact fun c hc => isInner_of_isNumeral (h c hc)

/-- A scalar has no character that ends a value. -/
theorem Scalar.inner (laws : ReprLaws P repr) (h : Scalar P repr v t) : t.all isInner = true := by
  cases h with
  | word h =>
    have hall : (words.all fun w => w.2.all isInner) = true := by decide
    simpa using List.all_eq_true.mp hall _ h
  | int n => exact all_isInner (lit_int_numeral n).1
  | float q hq => exact all_isInner (laws.numeral q hq)
  | negZero => decide

/-- A character that begins a string, an array or an object. -/
def isOpening (c : CodePoint) : Bool := c == 0x22 || c == 0x5B || c == 0x7B

theorem isOpening_of_isNumeral {c : CodePoint} (h : isNumeral c = true) : isOpening c = false := by
  by_contra hopen
  simp only [Bool.not_eq_false, isOpening, Bool.or_eq_true, beq_iff_eq] at hopen
  rcases hopen with (rfl | rfl) | rfl <;> exact absurd h (by decide)

/-- A scalar begins with a character that opens nothing. -/
theorem Scalar.head (laws : ReprLaws P repr) (h : Scalar P repr v t) :
    ∃ c tail, t = c :: tail ∧ isOpening c = false := by
  have hnumeral : ∀ {text : PyStr}, text.all isNumeral = true → text ≠ [] →
      ∃ c tail, text = c :: tail ∧ isOpening c = false := by
    intro text hall hne
    cases text with
    | nil => exact absurd rfl hne
    | cons c tail =>
      rw [List.all_cons, Bool.and_eq_true] at hall
      exact ⟨c, tail, rfl, isOpening_of_isNumeral hall.1⟩
  cases h with
  | word h =>
    have hall : (words.all fun w => (w.2.head?.map isOpening) == some false) = true := by decide
    have hhead := List.all_eq_true.mp hall _ h
    cases t with
    | nil => exact absurd hhead (by simp)
    | cons c tail => exact ⟨c, tail, rfl, by simpa using hhead⟩
  | int n =>
    refine hnumeral (lit_int_numeral n).1 ?_
    obtain ⟨m, ⟨-, htext⟩ | ⟨-, htext⟩⟩ := lit_int_cases n <;> rw [htext]
    · exact lit_nat_ne_nil m
    · exact List.cons_ne_nil _ _
  | float q hq =>
    obtain ⟨c, hc, -⟩ := laws.marked q hq
    exact hnumeral (laws.numeral q hq) (List.ne_nil_of_mem hc)
  | negZero => exact ⟨_, _, rfl, by decide⟩

end Scalars

/-! ## Values -/

section Values

variable {P : ℚ → Prop} {repr : PyFloat → PyStr}

theorem join_eq (sep : PyStr) (texts : List PyStr) :
    Json.join sep texts = Readable.join sep texts := by
  induction texts with
  | nil => rfl
  | cons text rest ih =>
    cases rest with
    | nil => rfl
    | cons next rest => rw [Json.join, ih, Readable.join_cons_cons]; exact List.cons_ne_nil _ _

/-- A value is a scalar or is written behind a quote or a bracket. -/
theorem write_cases (v : Json) (hv : FloatsIn P v) :
    Scalar P repr v (write repr v) ∨ (∃ text, v = .str text) ∨ (∃ items, v = .arr items) ∨
      ∃ fields, v = .obj fields := by
  cases v with
  | null => exact Or.inl (.word (by simp [words, write, writeIn]))
  | bool b => cases b <;> exact Or.inl (.word (by simp [words, write, writeIn]))
  | int n => exact Or.inl (.int n)
  | float x =>
    cases x with
    | finite q => exact Or.inl (.float q (hv q (List.mem_singleton.mpr rfl)))
    | inf negative =>
      cases negative <;> exact Or.inl (.word (by simp [words, write, writeIn, floatText]))
    | nan => exact Or.inl (.word (by simp [words, write, writeIn, floatText]))
  | negZero => exact Or.inl .negZero
  | str text => exact Or.inr (Or.inl ⟨text, rfl⟩)
  | arr items => exact Or.inr (Or.inr (Or.inl ⟨items, rfl⟩))
  | obj fields => exact Or.inr (Or.inr (Or.inr ⟨fields, rfl⟩))

theorem write_str (text : PyStr) : write repr (.str text) = canonical.quote text := rfl

theorem quote_eq (text : PyStr) :
    canonical.quote text = 0x22 :: (text.flatMap escape ++ [0x22]) := rfl

theorem write_arr (items : List Json) : write repr (.arr items) =
    0x5B :: (Readable.join [0x2C] (items.map (write repr)) ++ [0x5D]) := by
  show [0x5B] ++ Json.join canonical.item (writeItems canonical repr items) ++ [0x5D] = _
  rw [writeItems_eq, join_eq]
  rfl

theorem write_obj (fields : List (PyStr × Json)) : write repr (.obj fields) =
    0x7B :: (Readable.join [0x2C] (fields.map (writeField canonical repr)) ++ [0x7D]) := by
  show [0x7B] ++ Json.join canonical.item (writeFields canonical repr fields) ++ [0x7D] = _
  rw [writeFields_eq, join_eq]
  rfl

/-- What a value begins with is no closing bracket. -/
theorem write_ne_closing (laws : ReprLaws P repr) {v : Json} (hv : FloatsIn P v) {c : CodePoint}
    (hc : c = 0x5D ∨ c = 0x7D) (r s : PyStr) : write repr v ++ r ≠ c :: s := by
  rcases write_cases v hv with hscalar | ⟨text, rfl⟩ | ⟨items, rfl⟩ | ⟨fields, rfl⟩
  · obtain ⟨d, tail, htext, -⟩ := hscalar.head laws
    have hinner := hscalar.inner laws
    rw [htext, List.all_cons, Bool.and_eq_true] at hinner
    rw [htext]
    intro heq
    obtain rfl := (List.cons.inj heq).1
    rcases hc with rfl | rfl <;> exact absurd hinner.1 (by decide)
  · rw [write_str, quote_eq]
    rintro heq
    obtain rfl := (List.cons.inj heq).1
    rcases hc with h | h <;> exact absurd h (by decide)
  · rw [write_arr]
    rintro heq
    obtain rfl := (List.cons.inj heq).1
    rcases hc with h | h <;> exact absurd h (by decide)
  · rw [write_obj]
    rintro heq
    obtain rfl := (List.cons.inj heq).1
    rcases hc with h | h <;> exact absurd h (by decide)

/-- Behind a value the text ends, or goes on with a NUL, a comma or a closing bracket. -/
abbrev Ends : PyStr → Prop := Stops isInner

theorem write_scalar (laws : ReprLaws P repr) {v : Json}
    (hscalar : Scalar P repr v (write repr v)) : ReadsAt (FloatsIn P) Ends (write repr) v := by
  intro w r s hw hr hs h
  obtain ⟨c, tail, htext, hopen⟩ := hscalar.head laws
  have hother : ∀ d text, isOpening d = true → write repr v ++ r ≠ d :: text := by
    intro d text hd heq
    rw [htext] at heq
    rw [(List.cons.inj heq).1, hd] at hopen
    cases hopen
  rcases write_cases w hw with hscalar' | ⟨text, rfl⟩ | ⟨items, rfl⟩ | ⟨fields, rfl⟩
  · obtain ⟨heq, hrest⟩ := span_unique (hscalar.inner laws) (hscalar'.inner laws) hr hs h
    exact ⟨hscalar.unique laws hscalar' heq, hrest⟩
  · exact absurd h (hother 0x22 _ (by decide))
  · rw [write_arr] at h
    exact absurd h (hother 0x5B _ (by decide))
  · rw [write_obj] at h
    exact absurd h (hother 0x7B _ (by decide))

theorem ends_nul (r : PyStr) : Ends (0x00 :: r) := stops_cons (by decide)

theorem ends_comma (r : PyStr) : Ends (0x2C :: r) := stops_cons (by decide)

theorem ends_bracket (r : PyStr) : Ends (0x5D :: r) := stops_cons (by decide)

theorem ends_brace (r : PyStr) : Ends (0x7D :: r) := stops_cons (by decide)

theorem floatsIn_items {items : List Json} :
    FloatsIn P (.arr items) ↔ ∀ item ∈ items, FloatsIn P item := by
  have hfloats : floats (.arr items) = items.flatMap floats := by
    show floatsOfItems items = _
    induction items with
    | nil => rfl
    | cons item items ih => rw [floatsOfItems, ih, List.flatMap_cons]
  simp only [FloatsIn, hfloats, List.mem_flatMap]
  exact ⟨fun h item hitem q hq => h q ⟨item, hitem, hq⟩, fun h q ⟨item, hitem, hq⟩ => h item hitem q hq⟩

theorem floatsIn_fields {fields : List (PyStr × Json)} :
    FloatsIn P (.obj fields) ↔ ∀ f ∈ fields, FloatsIn P f.2 := by
  have hfloats : floats (.obj fields) = fields.flatMap fun f => floats f.2 := by
    show floatsOfFields fields = _
    induction fields with
    | nil => rfl
    | cons f fields ih => rw [floatsOfFields, ih, List.flatMap_cons]
  simp only [FloatsIn, hfloats, List.mem_flatMap]
  exact ⟨fun h f hf q hq => h q ⟨f, hf, hq⟩, fun h q ⟨f, hf, hq⟩ => h f hf q hq⟩

/-- A field is read back when its value is. -/
theorem writeField_readable {f : PyStr × Json}
    (h : ReadsAt (FloatsIn P) Ends (write repr) f.2) :
    ReadsAt (fun g : PyStr × Json => FloatsIn P g.2) Ends (writeField canonical repr) f := by
  intro g r s hg hr hs heq
  simp only [writeField, List.append_assoc] at heq
  obtain ⟨hkey, hvalue⟩ := quote_unique heq
  obtain ⟨hvalue, hrest⟩ := h g.2 r s hg hr hs (List.append_cancel_left hvalue)
  exact ⟨Prod.ext hkey hvalue, hrest⟩

theorem write_readable_arr {items : List Json}
    (h : ∀ item ∈ items, FloatsIn P item ∧ ReadsAt (FloatsIn P) Ends (write repr) item)
    (laws : ReprLaws P repr) : ReadsAt (FloatsIn P) Ends (write repr) (.arr items) := by
  intro w r s hw hr hs heq
  rw [write_arr] at heq
  rcases write_cases w hw with hscalar | ⟨text, rfl⟩ | ⟨items', rfl⟩ | ⟨fields, rfl⟩
  · obtain ⟨c, tail, htext, hopen⟩ := hscalar.head laws
    rw [htext] at heq
    rw [← (List.cons.inj heq).1] at hopen
    exact absurd hopen (by decide)
  · exact absurd (List.cons.inj heq).1 (by decide)
  · rw [write_arr] at heq
    rw [List.cons_append, List.cons_append, List.append_assoc, List.append_assoc] at heq
    have hbody := (List.cons.inj heq).2
    obtain ⟨rfl, hrest⟩ := @join_unique _ _ _ Ends _ _ _ ends_comma ends_bracket (by decide)
      (fun b r s hb => write_ne_closing laws hb (Or.inl rfl) r s) _ _ _ _ h (floatsIn_items.mp hw) hbody
    exact ⟨rfl, hrest⟩
  · rw [write_obj] at heq
    exact absurd (List.cons.inj heq).1 (by decide)

theorem write_readable_obj {fields : List (PyStr × Json)}
    (h : ∀ f ∈ fields, FloatsIn P f.2 ∧ ReadsAt (FloatsIn P) Ends (write repr) f.2)
    (laws : ReprLaws P repr) : ReadsAt (FloatsIn P) Ends (write repr) (.obj fields) := by
  intro w r s hw hr hs heq
  rw [write_obj] at heq
  rcases write_cases w hw with hscalar | ⟨text, rfl⟩ | ⟨items, rfl⟩ | ⟨fields', rfl⟩
  · obtain ⟨c, tail, htext, hopen⟩ := hscalar.head laws
    rw [htext] at heq
    rw [← (List.cons.inj heq).1] at hopen
    exact absurd hopen (by decide)
  · exact absurd (List.cons.inj heq).1 (by decide)
  · rw [write_arr] at heq
    exact absurd (List.cons.inj heq).1 (by decide)
  · rw [write_obj] at heq
    rw [List.cons_append, List.cons_append, List.append_assoc, List.append_assoc] at heq
    have hbody := (List.cons.inj heq).2
    have hfirst : ∀ (g : PyStr × Json) r s, FloatsIn P g.2 →
        writeField canonical repr g ++ r ≠ 0x7D :: s := fun g r s _ heq =>
      absurd (List.cons.inj heq).1 (by decide)
    obtain ⟨rfl, hrest⟩ := @join_unique _ _ _ Ends _ _ _ ends_comma ends_brace (by decide) hfirst _ _ _ _
      (fun f hf => ⟨(h f hf).1, writeField_readable (h f hf).2⟩) (floatsIn_fields.mp hw) hbody
    exact ⟨rfl, hrest⟩

mutual

/-- A written value is read back in front of whatever ends a value. -/
theorem write_readable (laws : ReprLaws P repr) :
    ∀ v : Json, FloatsIn P v → ReadsAt (FloatsIn P) Ends (write repr) v
  | .arr items, hv => write_readable_arr (readable_items laws items (floatsIn_items.mp hv)) laws
  | .obj fields, hv => write_readable_obj (readable_fields laws fields (floatsIn_fields.mp hv)) laws
  | .str text, _ => by
    intro w r s hw hr hs heq
    rw [write_str] at heq
    rcases write_cases w hw with hscalar | ⟨text', rfl⟩ | ⟨items, rfl⟩ | ⟨fields, rfl⟩
    · obtain ⟨c, tail, htext, hopen⟩ := hscalar.head laws
      rw [htext, quote_eq] at heq
      rw [← (List.cons.inj heq).1] at hopen
      exact absurd hopen (by decide)
    · obtain ⟨rfl, hrest⟩ := quote_unique heq
      exact ⟨rfl, hrest⟩
    · rw [write_arr] at heq
      exact absurd (List.cons.inj heq).1 (by decide)
    · rw [write_obj] at heq
      exact absurd (List.cons.inj heq).1 (by decide)
  | .null, _ => write_scalar laws (.word (by simp [words, write, writeIn]))
  | .bool b, hv => by
    rcases write_cases (.bool b) hv with h | ⟨_, h⟩ | ⟨_, h⟩ | ⟨_, h⟩
    · exact write_scalar laws h
    all_goals cases h
  | .int n, _ => write_scalar laws (.int n)
  | .float x, hv => by
    rcases write_cases (.float x) hv with h | ⟨_, h⟩ | ⟨_, h⟩ | ⟨_, h⟩
    · exact write_scalar laws h
    all_goals cases h
  | .negZero, _ => write_scalar laws .negZero

theorem readable_items (laws : ReprLaws P repr) : ∀ items : List Json,
    (∀ item ∈ items, FloatsIn P item) →
      ∀ item ∈ items, FloatsIn P item ∧ ReadsAt (FloatsIn P) Ends (write repr) item
  | [], _, _, h => nomatch h
  | first :: items, hitems, item, h => by
    rcases List.mem_cons.mp h with heq | hmem
    · rw [heq]
      exact ⟨hitems first List.mem_cons_self,
        write_readable laws first (hitems first List.mem_cons_self)⟩
    · exact readable_items laws items (fun i hi => hitems i (List.mem_cons_of_mem _ hi)) item hmem

theorem readable_fields (laws : ReprLaws P repr) : ∀ fields : List (PyStr × Json),
    (∀ f ∈ fields, FloatsIn P f.2) →
      ∀ f ∈ fields, FloatsIn P f.2 ∧ ReadsAt (FloatsIn P) Ends (write repr) f.2
  | [], _, _, h => nomatch h
  | (key, value) :: fields, hfields, f, h => by
    rcases List.mem_cons.mp h with heq | hmem
    · rw [heq]
      exact ⟨hfields (key, value) List.mem_cons_self,
        write_readable laws value (hfields (key, value) List.mem_cons_self)⟩
    · exact readable_fields laws fields (fun g hg => hfields g (List.mem_cons_of_mem _ hg)) f hmem

end

/-- Values with the same writing are the same. -/
theorem write_injective (laws : ReprLaws P repr) {v w : Json} (hv : FloatsIn P v)
    (hw : FloatsIn P w) (h : write repr v = write repr w) : v = w :=
  (write_readable laws v hv w [] [] hw (stops_nil _) (stops_nil _) (by rw [h])).1

/-! ## Key order -/

mutual

theorem floatsIn_sortKeys : ∀ v : Json, FloatsIn P v → FloatsIn P (sortKeys v)
  | .arr items, hv => by
    rw [sortKeys, sortItems_eq, floatsIn_items]
    rintro _ hitem
    obtain ⟨item, hmem, rfl⟩ := List.mem_map.mp hitem
    exact floatsIn_sortItems items (floatsIn_items.mp hv) item hmem
  | .obj fields, hv => by
    rw [sortKeys, sortValues_eq, floatsIn_fields]
    rintro _ hf
    obtain ⟨f, hmem, rfl⟩ := List.mem_map.mp ((List.mem_insertionSort _).mp hf)
    exact floatsIn_sortFields fields (floatsIn_fields.mp hv) f hmem
  | .null, hv | .bool _, hv | .int _, hv | .float _, hv | .negZero, hv | .str _, hv => hv

theorem floatsIn_sortItems : ∀ items : List Json, (∀ item ∈ items, FloatsIn P item) →
    ∀ item ∈ items, FloatsIn P (sortKeys item)
  | [], _, _, h => nomatch h
  | first :: items, hitems, item, h => by
    rcases List.mem_cons.mp h with heq | hmem
    · rw [heq]
      exact floatsIn_sortKeys first (hitems first List.mem_cons_self)
    · exact floatsIn_sortItems items (fun i hi => hitems i (List.mem_cons_of_mem _ hi)) item hmem

theorem floatsIn_sortFields : ∀ fields : List (PyStr × Json), (∀ f ∈ fields, FloatsIn P f.2) →
    ∀ f ∈ fields, FloatsIn P (sortKeys f.2)
  | [], _, _, h => nomatch h
  | (key, value) :: fields, hfields, f, h => by
    rcases List.mem_cons.mp h with heq | hmem
    · rw [heq]
      exact floatsIn_sortKeys value (hfields (key, value) List.mem_cons_self)
    · exact floatsIn_sortFields fields (fun g hg => hfields g (List.mem_cons_of_mem _ hg)) f hmem

end

/-- Equal up to the order of keys, at every depth. -/
def Same (v w : Json) : Prop := sortKeys v = sortKeys w

/-- **Canonical texts are equal exactly for values that are equal up to the order of keys.** -/
theorem dumps_eq_iff (laws : ReprLaws P repr) {v w : Json} (hv : FloatsIn P v)
    (hw : FloatsIn P w) : dumps repr v = dumps repr w ↔ Same v w := by
  rw [dumps_eq_write, dumps_eq_write]
  exact ⟨write_injective laws (floatsIn_sortKeys v hv) (floatsIn_sortKeys w hw),
    fun h => congrArg _ h⟩

/-- Arrays are the same item by item. -/
theorem same_arr {items items' : List Json} :
    Same (.arr items) (.arr items') ↔ List.Forall₂ Same items items' := by
  simp only [Same, sortKeys, sortItems_eq, Json.arr.injEq]
  induction items generalizing items' with
  | nil =>
    rw [List.forall₂_nil_left_iff, List.map_nil]
    exact ⟨fun h => List.map_eq_nil_iff.mp h.symm, fun h => by rw [h, List.map_nil]⟩
  | cons item items ih =>
    rw [List.forall₂_cons_left_iff]
    constructor
    · intro h
      cases items' with
      | nil => cases h
      | cons item' items' =>
        obtain ⟨hitem, hitems⟩ := List.cons.inj h
        exact ⟨item', items', hitem, ih.mp hitems, rfl⟩
    · rintro ⟨item', items', hitem, hitems, rfl⟩
      rw [List.map_cons, List.map_cons, hitem, ih.mpr hitems]

/-- Objects are the same field by field, in some order. -/
theorem same_obj {fields fields' : List (PyStr × Json)} (hkeys : (fields'.map Prod.fst).Nodup) :
    Same (.obj fields) (.obj fields') ↔ ∃ reordered, reordered.Perm fields' ∧
      List.Forall₂ (fun f g => f.1 = g.1 ∧ Same f.2 g.2) fields reordered := by
  let sorted (f : PyStr × Json) : PyStr × Json := (f.1, sortKeys f.2)
  have hsame : Same (.obj fields) (.obj fields') ↔
      sortFields (fields.map sorted) = sortFields (fields'.map sorted) := by
    rw [Same, sortKeys, sortKeys, Json.obj.injEq, sortValues_eq, sortValues_eq]
  have hone : ∀ f g : PyStr × Json, sorted f = sorted g ↔ f.1 = g.1 ∧ Same f.2 g.2 :=
    fun f g => Prod.ext_iff
  have hall : ∀ {xs ys : List (PyStr × Json)}, xs.map sorted = ys.map sorted ↔
      List.Forall₂ (fun f g => f.1 = g.1 ∧ Same f.2 g.2) xs ys := by
    intro xs ys
    rw [← List.forall₂_eq_eq_eq, List.forall₂_map_left_iff, List.forall₂_map_right_iff]
    simp only [hone]
  rw [hsame]
  constructor
  · intro h
    have hperm : (fields.map sorted).Perm (fields'.map sorted) := by
      refine (List.perm_insertionSort (fun a b : PyStr × Json => a.1 ≤ b.1) _).symm.trans ?_
      exact (List.Perm.of_eq h).trans (List.perm_insertionSort _ _)
    have hback : List.Forall₂ (fun x g => x = sorted g) (fields'.map sorted) fields' :=
      List.forall₂_map_left_iff.mpr (List.forall₂_same.mpr fun _ _ => rfl)
    obtain ⟨reordered, hforall, hreordered⟩ := List.perm_comp_forall₂ hperm hback
    refine ⟨reordered, hreordered, hall.mp ?_⟩
    rw [← List.forall₂_eq_eq_eq, List.forall₂_map_right_iff]
    exact hforall
  · rintro ⟨reordered, hreordered, hforall⟩
    rw [hall.mpr hforall]
    refine @Sorting.sortedBy_eq_of_perm _ _ _ Prod.fst _ _ (hreordered.map sorted) ?_
    rw [List.map_map]
    exact ((hreordered.map _).nodup_iff).mpr hkeys

end Values

end ControlPlane.Json
