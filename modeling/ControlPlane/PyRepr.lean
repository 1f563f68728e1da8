/-
  `repr` OF JSON VALUES: what Python's `str` makes of a list, a `dict` or a number.

  An f-string or a `str()` around a value that came out of `json.loads` writes the value the Python
  way: `None`, `True`, single quotes, and an escape for every character that is not printable.  Which
  characters are printable is a table of the interpreter, so `printable` is a parameter, as
  `float.__repr__` is.
-/
import ControlPlane.Json

namespace ControlPlane

namespace PyStr

/-- `\xXX`, `\uXXXX` or `\UXXXXXXXX`, the shortest that holds `n`. -/
def reprEscape (n : Nat) : PyStr :=
  let digits (count : Nat) : PyStr :=
    (List.range count).reverse.map fun i => Json.hexDigit (n / 16 ^ i % 16)
  if n ≤ 0xFF then lit "\\x" ++ digits 2
  else if n ≤ 0xFFFF then lit "\\u" ++ digits 4
  else lit "\\U" ++ digits 8

/-- One character of `repr(text)`, between quotes of a given kind. -/
def reprChar (printable : CodePoint → Bool) (quote c : CodePoint) : PyStr :=
  if c = quote ∨ c = 0x5C then [0x5C, c]
  else if c = 0x09 then lit "\\t"
  else if c = 0x0A then lit "\\n"
  else if c = 0x0D then lit "\\r"
  else if isPlain c ∨ (0x7F < c.val ∧ printable c) then [c]
  else reprEscape c.val

/-- `repr(text)`: double quotes where the text has single quotes and no double ones. -/
def repr (printable : CodePoint → Bool) (text : PyStr) : PyStr :=
  let quote : CodePoint := if 0x27 ∈ text ∧ 0x22 ∉ text then 0x22 else 0x27
  [quote] ++ text.flatMap (reprChar printable quote) ++ [quote]

end PyStr

namespace Json

section Repr

variable (printable : CodePoint → Bool) (repr : PyFloat → PyStr)

mutual

/-- `repr(value)`. -/
def pyRepr : Json → PyStr
  | .null => PyStr.lit "None"
  | .bool b => PyStr.lit (if b then "True" else "False")
  | .int n => PyStr.lit (toString n)
  | .float x => repr x
  | .negZero => PyStr.lit "-0.0"
  | .str text => text.repr printable
  | .arr items => [0x5B] ++ join (PyStr.lit ", ") (pyReprItems items) ++ [0x5D]
  | .obj fields => [0x7B] ++ join (PyStr.lit ", ") (pyReprFields fields) ++ [0x7D]

def pyReprItems : List Json → List PyStr
  | [] => []
  | item :: items => pyRepr item :: pyReprItems items

def pyReprFields : List (PyStr × Json) → List PyStr
  | [] => []
  | (key, value) :: fields =>
      (key.repr printable ++ PyStr.lit ": " ++ pyRepr value) :: pyReprFields fields

end

/-- `str(value)`. -/
def pyStr : Json → PyStr
  | .str text => text
  | value => pyRepr printable repr value

end Repr

example : pyStr (fun _ => true) (fun _ => []) (.obj [(PyStr.lit "it's", .arr [.null, .bool true]),
    (PyStr.lit "\n", .int (-1))]) = PyStr.lit "\x7b\"it's\": [None, True], '\\n': -1\x7d" := by
  decide +kernel

end Json

end ControlPlane
