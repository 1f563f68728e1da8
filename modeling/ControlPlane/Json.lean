/-
  JSON VALUES as Python's `json` module has them, and `json.dumps`.

  `json.loads` keeps integers apart from floats and -0.0 apart from 0.0, accepts `NaN` and the infinities, and builds a `dict`:
  keys are distinct and stand in the order of their first occurrence.  `dumps` is
  `json.dumps(value, ensure_ascii=False, sort_keys=True, separators=(",", ":"))`, the CANONICAL text
  of a value, on which the order of keys has no influence; `dumpsPlain` has the default separators
  and escapes everything that is not ASCII.  `float.__repr__` is a parameter.
-/
import ControlPlane.PyFloat
import ControlPlane.PyStr
import Mathlib.Data.List.Sort

namespace ControlPlane

inductive Json where
  | null
  | bool (b : Bool)
  | int (n : Int)
  | float (x : PyFloat)
  /-- The float -0.0, which `PyFloat` does not tell from 0.0. -/
  | negZero
  | str (text : PyStr)
  | arr (items : List Json)
  | obj (fields : List (PyStr × Json))

namespace Json

/-- `bool(value)`. -/
def truthy : Json → Bool
  | .null => false
  | .bool b => b
  | .int n => n != 0
  | .float x => !x.eq 0
  | .negZero => false
  | .str text => !text.isEmpty
  | .arr items => !items.isEmpty
  | .obj fields => !fields.isEmpty

/-- `fields.get(key)`. -/
def get? (fields : List (PyStr × Json)) (key : String) : Option Json :=
  fields.lookup (PyStr.lit key)

/-- `fields[key] = value`: a key that is there keeps its place. -/
def set (fields : List (PyStr × Json)) (key : String) (value : Json) : List (PyStr × Json) :=
  if (get? fields key).isSome then
    fields.map fun f => if f.1 = PyStr.lit key then (f.1, value) else f
  else fields ++ [(PyStr.lit key, value)]

mutual

/-- How deep arrays and objects are nested. -/
def depth : Json → Nat
  | .arr items => 1 + depthItems items
  | .obj fields => 1 + depthFields fields
  | _ => 0

def depthItems : List Json → Nat
  | [] => 0
  | item :: items => max (depth item) (depthItems items)

def depthFields : List (PyStr × Json) → Nat
  | [] => 0
  | (_, value) :: fields => max (depth value) (depthFields fields)

end

/-! ## The text -/

def hexDigit (n : Nat) : CodePoint := Fin.ofNat _ (if n < 10 then 48 + n else 87 + n)

/-- `\uXXXX`. -/
def hexEscape (n : Nat) : PyStr :=
  PyStr.lit "\\u" ++ [hexDigit (n / 4096 % 16), hexDigit (n / 256 % 16), hexDigit (n / 16 % 16),
    hexDigit (n % 16)]

/-- The characters with an escape of their own, and the other control characters: `ESCAPE_DCT`. -/
def escapeControl (n : Nat) : Option PyStr :=
  if n = 0x22 then some (PyStr.lit "\\\"")
  else if n = 0x5C then some (PyStr.lit "\\\\")
  else if n = 0x0A then some (PyStr.lit "\\n")
  else if n = 0x0D then some (PyStr.lit "\\r")
  else if n = 0x09 then some (PyStr.lit "\\t")
  else if n = 0x0C then some (PyStr.lit "\\f")
  else if n = 0x08 then some (PyStr.lit "\\b")
  else if n < 0x20 then some (hexEscape n)
  else none

/-- One character between the quotes. -/
def escape (c : CodePoint) : PyStr := (escapeControl c.val).getD [c]

/-- The same with `ensure_ascii`: a character beyond the sixteen bits becomes a surrogate pair. -/
def escapeAscii (c : CodePoint) : PyStr :=
  (escapeControl c.val).getD <|
    if c.val < 0x7F then [c]
    else if c.val < 0x10000 then hexEscape c.val
    else hexEscape (0xD800 + (c.val - 0x10000) / 1024) ++ hexEscape (0xDC00 + (c.val - 0x10000) % 1024)

/-- The `separators` and `ensure_ascii` of a `json.dumps`. -/
structure Style where
  item : PyStr
  key : PyStr
  escape : CodePoint → PyStr

/-- `ensure_ascii=False, separators=(",", ":")`. -/
def canonical : Style := ⟨PyStr.lit ",", PyStr.lit ":", escape⟩

/-- The defaults. -/
def plain : Style := ⟨PyStr.lit ", ", PyStr.lit ": ", escapeAscii⟩

def Style.quote (style : Style) (text : PyStr) : PyStr :=
  [0x22] ++ text.flatMap style.escape ++ [0x22]

/-- `sep.join(texts)`. -/
def join (sep : PyStr) : List PyStr → PyStr
  | [] => []
  | [text] => text
  | text :: rest => text ++ sep ++ join sep rest

/-- `sort_keys`: the keys of a `dict` are distinct, so the values are never compared. -/
def sortFields {α : Type} (fields : List (PyStr × α)) : List (PyStr × α) :=
  fields.insertionSort fun a b => a.1 ≤ b.1

mutual

/-- `json.loads(json.dumps(value, sort_keys=True))`: the value with its keys sorted. -/
def sortKeys : Json → Json
  | .arr items => .arr (sortItems items)
  | .obj fields => .obj (sortFields (sortValues fields))
  | value => value

def sortItems : List Json → List Json
  | [] => []
  | item :: items => sortKeys item :: sortItems items

def sortValues : List (PyStr × Json) → List (PyStr × Json)
  | [] => []
  | (key, value) :: fields => (key, sortKeys value) :: sortValues fields

end

section Dumps

variable (style : Style) (repr : PyFloat → PyStr)

def floatText : PyFloat → PyStr
  | .nan => PyStr.lit "NaN"
  | .inf negative => PyStr.lit (if negative then "-Infinity" else "Infinity")
  | .finite q => repr (.finite q)

mutual

/-- `json.dumps(value, sort_keys=True, …)` in a given style. -/
def dumpsIn : Json → PyStr
  | .null => PyStr.lit "null"
  | .bool b => PyStr.lit (if b then "true" else "false")
  | .int n => PyStr.lit (toString n)
  | .float x => floatText repr x
  | .negZero => PyStr.lit "-0.0"
  | .str text => style.quote text
  | .arr items => [0x5B] ++ join style.item (dumpsItems items) ++ [0x5D]
  | .obj fields => [0x7B] ++ join style.item ((sortFields (dumpsFields fields)).map fun f =>
      style.quote f.1 ++ style.key ++ f.2) ++ [0x7D]

def dumpsItems : List Json → List PyStr
  | [] => []
  | item :: items => dumpsIn item :: dumpsItems items

def dumpsFields : List (PyStr × Json) → List (PyStr × PyStr)
  | [] => []
  | (key, value) :: fields => (key, dumpsIn value) :: dumpsFields fields

end

/-- `json.dumps(value, ensure_ascii=False, sort_keys=True, separators=(",", ":"))`. -/
def dumps (value : Json) : PyStr := dumpsIn canonical repr value

/-- `json.dumps(value, sort_keys=True)`. -/
def dumpsPlain (value : Json) : PyStr := dumpsIn plain repr value

/-- `canonical_json`; `none` is `UnicodeEncodeError`. -/
def canonicalJson (value : Json) : Option (List UInt8) := PyStr.encode (dumps repr value)

end Dumps

example : canonicalJson (fun _ => []) (.obj [(PyStr.lit "b", .int (-1)), (PyStr.lit "a", .null)]) =
    PyStr.encode (PyStr.lit "\x7b\"a\":null,\"b\":-1\x7d") := by decide +kernel

example : dumpsPlain (fun _ => []) (.arr [.str (PyStr.lit "é\n😀"), .null]) =
    PyStr.lit "[\"\\u00e9\\n\\ud83d\\ude00\", null]" := by decide +kernel

/-! ## Plain text -/

open PyStr

/-- The sixteen hexadecimal digits are plain. -/
theorem isPlain_hexDigit {n : Nat} (h : n < 16) : isPlain (hexDigit n) = true := by
  have hall : ∀ k : Fin 16, isPlain (hexDigit k) = true := by decide
  exact hall ⟨n, h⟩

theorem hexEscape_plain (n : Nat) : (hexEscape n).all isPlain = true := by
  have hdigit : ∀ k, isPlain (hexDigit (k % 16)) = true :=
    fun k => isPlain_hexDigit (Nat.mod_lt _ (by decide))
  simp only [hexEscape, List.all_append, List.all_cons, List.all_nil, hdigit, Bool.and_true]
  decide

theorem escapeControl_plain {n : Nat} {text : PyStr} (h : escapeControl n = some text) :
    text.all isPlain = true := by
  unfold escapeControl at h
  iterate 7
    split at h
    · cases h
      decide
  split at h
  · cases h
    exact hexEscape_plain n
  · cases h

/-- Every control character has an escape. -/
theorem escapeControl_none {n : Nat} (h : escapeControl n = none) : 0x20 ≤ n := by
  by_contra hlt
  unfold escapeControl at h
  rw [if_pos (by omega : n < 0x20)] at h
  repeat' split at h
  all_goals cases h

theorem escapeAscii_plain (c : CodePoint) : (escapeAscii c).all isPlain = true := by
  unfold escapeAscii
  cases hcontrol : escapeControl c.val with
  | some text => exact escapeControl_plain hcontrol
  | none =>
    have hle := escapeControl_none hcontrol
    simp only [Option.getD_none]
    split
    · simp only [List.all_cons, List.all_nil, Bool.and_true, isPlain, Bool.and_eq_true,
        decide_eq_true_eq]
      omega
    · split
      · exact hexEscape_plain _
      · rw [List.all_append, hexEscape_plain, hexEscape_plain]
        rfl

theorem quote_plain (text : PyStr) : (plain.quote text).all isPlain = true := by
  have hbody : (text.flatMap escapeAscii).all isPlain = true := by
    rw [List.all_flatMap, List.all_eq_true]
    exact fun c _ => escapeAscii_plain c
  show ([0x22] ++ text.flatMap escapeAscii ++ [0x22]).all isPlain = true
  rw [List.all_append, List.all_append, hbody]
  decide

theorem join_plain {sep : PyStr} {texts : List PyStr} (hsep : sep.all isPlain = true)
    (h : ∀ text ∈ texts, text.all isPlain = true) : (join sep texts).all isPlain = true := by
  induction texts with
  | nil => rfl
  | cons text rest ih =>
    have htext := h text List.mem_cons_self
    have hrest := ih fun t ht => h t (List.mem_cons_of_mem _ ht)
    cases rest with
    | nil => exact htext
    | cons next rest =>
      rw [join, List.all_append, List.all_append, htext, hsep, hrest]
      · rfl
      · exact List.cons_ne_nil _ _

section Plain

variable {repr : PyFloat → PyStr}

theorem floatText_plain (hrepr : ∀ x, (repr x).all isPlain = true) (x : PyFloat) :
    (floatText repr x).all isPlain = true := by
  cases x with
  | nan => rfl
  | inf negative => cases negative <;> rfl
  | finite q => exact hrepr _

mutual

/-- What is written with `ensure_ascii` is plain. -/
theorem dumpsPlain_plain (hrepr : ∀ x, (repr x).all isPlain = true) :
    ∀ value : Json, (dumpsPlain repr value).all isPlain = true
  | .null => rfl
  | .bool b => by cases b <;> rfl
  | .int n => lit_int_plain n
  | .float x => floatText_plain hrepr x
  | .negZero => rfl
  | .str text => quote_plain text
  | .arr items => by
    show ([0x5B] ++ join plain.item (dumpsItems plain repr items) ++ [0x5D]).all isPlain = true
    rw [List.all_append, List.all_append, join_plain (by decide) (dumpsItems_plain hrepr items)]
    decide
  | .obj fields => by
    have hfields : ∀ text ∈ (sortFields (dumpsFields plain repr fields)).map fun f =>
        plain.quote f.1 ++ plain.key ++ f.2, text.all isPlain = true := by
      intro text htext
      obtain ⟨f, hf, rfl⟩ := List.mem_map.mp htext
      have hmem : f ∈ dumpsFields plain repr fields := (List.mem_insertionSort _).mp hf
      rw [List.all_append, List.all_append, quote_plain, dumpsFields_plain hrepr fields f hmem]
      decide
    show ([0x7B] ++ join plain.item _ ++ [0x7D]).all isPlain = true
    rw [List.all_append, List.all_append, join_plain (by decide) hfields]
    decide

theorem dumpsItems_plain (hrepr : ∀ x, (repr x).all isPlain = true) :
    ∀ items : List Json, ∀ text ∈ dumpsItems plain repr items, text.all isPlain = true
  | [], _, h => nomatch h
  | item :: items, text, h => by
    rcases List.mem_cons.mp h with rfl | h
    · exact dumpsPlain_plain hrepr item
    · exact dumpsItems_plain hrepr items text h

theorem dumpsFields_plain (hrepr : ∀ x, (repr x).all isPlain = true) :
    ∀ fields : List (PyStr × Json), ∀ f ∈ dumpsFields plain repr fields,
      f.2.all isPlain = true
  | [], _, h => nomatch h
  | (key, value) :: fields, f, h => by
    rcases List.mem_cons.mp h with rfl | h
    · exact dumpsPlain_plain hrepr value
    · exact dumpsFields_plain hrepr fields f h

end

end Plain

end Json

end ControlPlane
