/-
  READING JSON: `json.loads` of a byte string.

  The bytes are decoded first, in the encoding that their byte order mark or their first zero bytes
  give away, and a lone surrogate passes.  The text is then read by a machine with a stack, ONE
  character at a time: the stack holds the arrays and objects that are open, the mode what may come
  next.  As in Python, `NaN` and the infinities are numbers, a repeated key keeps its place and takes
  the last value, and escapes may spell lone surrogates.

  `loads` fails in three ways, which differ in the class of the exception: the text or its encoding
  is wrong, an integer has more digits than the interpreter converts, or the arrays and objects are
  nested more deeply than the interpreter recurses.
-/
import ControlPlane.Json
import ControlPlane.PyNumber

namespace ControlPlane

/-! ## Decoding -/

namespace PyStr

/-- A code point from its number; `none` beyond the last one. -/
def codePoint (n : Nat) : Option CodePoint := if h : n < 0x110000 then some ⟨n, h⟩ else none

/-- `bytes.decode("utf-8", "surrogatepass")`; `none` is `UnicodeDecodeError`. -/
def decodeUtf8 : List UInt8 → Option PyStr
  | [] => some []
  | a :: rest =>
      if a < 0x80 then (decodeUtf8 rest).map (Fin.ofNat _ a.toNat :: ·)
      else match rest with
        | b :: rest =>
            if b &&& 0xC0 ≠ 0x80 then none
            else if 0xC2 ≤ a ∧ a ≤ 0xDF then
              (decodeUtf8 rest).map (Fin.ofNat _ (a.toNat % 32 * 64 + b.toNat % 64) :: ·)
            else match rest with
              | c :: rest =>
                  if c &&& 0xC0 ≠ 0x80 then none
                  else if (a = 0xE0 ∧ 0xA0 ≤ b) ∨ (0xE1 ≤ a ∧ a ≤ 0xEF) then
                    (decodeUtf8 rest).map
                      (Fin.ofNat _ (a.toNat % 16 * 4096 + b.toNat % 64 * 64 + c.toNat % 64) :: ·)
                  else match rest with
                    | d :: rest =>
                        if d &&& 0xC0 ≠ 0x80 then none
                        else if (a = 0xF0 ∧ 0x90 ≤ b) ∨ (0xF1 ≤ a ∧ a ≤ 0xF3) ∨ (a = 0xF4 ∧ b ≤ 0x8F)
                        then
                          (decodeUtf8 rest).map
                            (Fin.ofNat _ (a.toNat % 8 * 262144 + b.toNat % 64 * 4096 +
                              c.toNat % 64 * 64 + d.toNat % 64) :: ·)
                        else none
                    | [] => none
              | [] => none
        | [] => none

/-- Sixteen-bit units, in the byte order given. -/
def units16 (bigEndian : Bool) : List UInt8 → Option (List Nat)
  | [] => some []
  | [_] => none
  | a :: b :: rest =>
      (units16 bigEndian rest).map
        ((if bigEndian then a.toNat * 256 + b.toNat else b.toNat * 256 + a.toNat) :: ·)

/-- A high and a low surrogate are one character, any other unit is one itself. -/
def joinUnits : List Nat → PyStr
  | [] => []
  | [u] => [Fin.ofNat _ u]
  | u :: v :: rest =>
      if 0xD800 ≤ u ∧ u ≤ 0xDBFF ∧ 0xDC00 ≤ v ∧ v ≤ 0xDFFF then
        Fin.ofNat _ (0x10000 + (u - 0xD800) * 1024 + (v - 0xDC00)) :: joinUnits rest
      else Fin.ofNat _ u :: joinUnits (v :: rest)

/-- `bytes.decode("utf-16", "surrogatepass")`. -/
def decodeUtf16 (bigEndian : Bool) (bytes : List UInt8) : Option PyStr :=
  (units16 bigEndian bytes).map joinUnits

/-- `bytes.decode("utf-32", "surrogatepass")`. -/
def decodeUtf32 (bigEndian : Bool) : List UInt8 → Option PyStr
  | [] => some []
  | a :: b :: c :: d :: rest => do
      let unit := if bigEndian then [a, b, c, d] else [d, c, b, a]
      let first ← codePoint (unit.foldl (fun n byte => n * 256 + byte.toNat) 0)
      let others ← decodeUtf32 bigEndian rest
      pure (first :: others)
  | _ => none

/-- `json.detect_encoding` and the decoding with it. -/
def decodeJson : List UInt8 → Option PyStr
  | 0 :: 0 :: 0xFE :: 0xFF :: rest => decodeUtf32 true rest
  | 0xFF :: 0xFE :: 0 :: 0 :: rest => decodeUtf32 false rest
  | 0xFE :: 0xFF :: rest => decodeUtf16 true rest
  | 0xFF :: 0xFE :: rest => decodeUtf16 false rest
  | 0xEF :: 0xBB :: 0xBF :: rest => decodeUtf8 rest
  | a :: b :: c :: d :: rest =>
      let bytes := a :: b :: c :: d :: rest
      if a = 0 then if b = 0 then decodeUtf32 true bytes else decodeUtf16 true bytes
      else if b = 0 then
        if c = 0 ∧ d = 0 then decodeUtf32 false bytes else decodeUtf16 false bytes
      else decodeUtf8 bytes
  | [a, b] =>
      if a = 0 then decodeUtf16 true [a, b]
      else if b = 0 then decodeUtf16 false [a, b]
      else decodeUtf8 [a, b]
  | bytes => decodeUtf8 bytes

end PyStr

/-! ## The machine -/

/-- What the interpreter brings to reading and writing numbers and text. -/
structure Interpreter where
  /-- `float.__repr__`. -/
  repr : PyFloat → PyStr
  /-- `unicodedata.decimal`. -/
  decimal : CodePoint → Option Nat
  /-- How many arrays and objects may be open before `json.loads` raises `RecursionError`. -/
  readDepth : Nat
  /-- The same for `json.dumps`. -/
  writeDepth : Nat
  /-- `sys.get_int_max_str_digits()`. -/
  intDigits : Nat := 4300

/-- How `json.loads` fails. -/
inductive LoadsError where
  /-- `JSONDecodeError` or `UnicodeDecodeError`. -/
  | malformed
  /-- `ValueError` of `int`. -/
  | intDigits
  /-- `RecursionError`. -/
  | recursion
  deriving DecidableEq, Repr

namespace JsonReader

/-- An open array with its items, or an open object with its fields and the key at hand. -/
inductive Frame where
  | arr (items : List Json)
  | obj (fields : List (PyStr × Json)) (key : PyStr)

/-- How much of a number has been read. -/
inductive Numeral where
  | minus
  | zero
  | digits
  | point
  | behind
  | exp
  | expSign
  | expDigits
  deriving DecidableEq, Repr

/-- Where the escape of a string stands. -/
inductive Escape where
  | none
  | backslash
  | hex (digits : List Nat)
  deriving DecidableEq, Repr

inductive Mode where
  /-- A value, or the end of the array that was just opened. -/
  | value (orEnd : Bool)
  /-- A key, or the end of the object that was just opened. -/
  | key (orEnd : Bool)
  | colon
  /-- Behind a value in an array or object. -/
  | next
  /-- In a string; a character that an escape spelled is marked. -/
  | text (isKey : Bool) (chars : List (Nat × Bool)) (escape : Escape)
  | number (numeral : Numeral) (chars : PyStr)
  /-- In `null`, `true`, `false`, `NaN`, `Infinity`. -/
  | word (rest : PyStr) (value : Json)
  | done (value : Json)

structure State where
  stack : List Frame
  mode : Mode

variable (py : Interpreter)

def isSpace (c : CodePoint) : Bool := c = 0x20 || c = 0x09 || c = 0x0A || c = 0x0D

/-- A value is complete. -/
def emit (stack : List Frame) (value : Json) : State :=
  match stack with
  | [] => ⟨[], .done value⟩
  | .arr items :: rest => ⟨.arr (items ++ [value]) :: rest, .next⟩
  | .obj fields key :: rest =>
      let fields :=
        if (fields.lookup key).isSome then
          fields.map fun f => if f.1 = key then (f.1, value) else f
        else fields ++ [(key, value)]
      ⟨.obj fields key :: rest, .next⟩

/-- An array or object is complete. -/
def close (stack : List Frame) : Except LoadsError State :=
  match stack with
  | .arr items :: rest => .ok (emit rest (.arr items))
  | .obj fields _ :: rest => .ok (emit rest (.obj fields))
  | [] => .error .malformed

/-- An array or object begins. -/
def push (s : State) (frame : Frame) (mode : Mode) : Except LoadsError State :=
  if py.readDepth ≤ s.stack.length then .error .recursion else .ok ⟨frame :: s.stack, mode⟩

/-- A value begins with `c`. -/
def begin (s : State) (c : CodePoint) : Except LoadsError State :=
  let word (rest : String) (value : Json) : Except LoadsError State :=
    .ok { s with mode := .word (PyStr.lit rest) value }
  if c = 0x22 then .ok { s with mode := .text false [] .none }
  else if c = 0x5B then push py s (.arr []) (.value true)
  else if c = 0x7B then push py s (.obj [] []) (.key true)
  else if c = 0x2D then .ok { s with mode := .number .minus [c] }
  else if c = 0x30 then .ok { s with mode := .number .zero [c] }
  else if (asciiDecimal c).isSome then .ok { s with mode := .number .digits [c] }
  else if c = 0x6E then word "ull" .null
  else if c = 0x74 then word "rue" (.bool true)
  else if c = 0x66 then word "alse" (.bool false)
  else if c = 0x4E then word "aN" (.float .nan)
  else if c = 0x49 then word "nfinity" (.float (.inf false))
  else .error .malformed

/-- Behind a value. -/
def next (s : State) (c : CodePoint) : Except LoadsError State :=
  if isSpace c then .ok s
  else match s.stack with
    | .arr _ :: _ =>
        if c = 0x2C then .ok { s with mode := .value false }
        else if c = 0x5D then close s.stack
        else .error .malformed
    | .obj _ _ :: _ =>
        if c = 0x2C then .ok { s with mode := .key false }
        else if c = 0x7D then close s.stack
        else .error .malformed
    | [] => .error .malformed

/-! ### Strings -/

/-- Surrogates that escapes spelled one after the other. -/
def joinEscapes : List (Nat × Bool) → PyStr
  | [] => []
  | [u] => [Fin.ofNat _ u.1]
  | u :: v :: rest =>
      if u.2 ∧ v.2 ∧ 0xD800 ≤ u.1 ∧ u.1 ≤ 0xDBFF ∧ 0xDC00 ≤ v.1 ∧ v.1 ≤ 0xDFFF then
        Fin.ofNat _ (0x10000 + (u.1 - 0xD800) * 1024 + (v.1 - 0xDC00)) :: joinEscapes rest
      else Fin.ofNat _ u.1 :: joinEscapes (v :: rest)

def hexValue (c : CodePoint) : Option Nat :=
  let n := c.val
  if 0x30 ≤ n ∧ n ≤ 0x39 then some (n - 0x30)
  else if 0x61 ≤ n ∧ n ≤ 0x66 then some (n - 0x57)
  else if 0x41 ≤ n ∧ n ≤ 0x46 then some (n - 0x37)
  else none

/-- `BACKSLASH`. -/
def unescape (c : CodePoint) : Option Nat :=
  ([(0x22, 0x22), (0x5C, 0x5C), (0x2F, 0x2F), (0x62, 0x08), (0x66, 0x0C), (0x6E, 0x0A),
    (0x72, 0x0D), (0x74, 0x09)] : List (Nat × Nat)).lookup c.val

/-- A string is complete. -/
def endText (s : State) (isKey : Bool) (text : PyStr) : Except LoadsError State :=
  if isKey then
    match s.stack with
    | .obj fields _ :: rest => .ok ⟨.obj fields text :: rest, .colon⟩
    | _ => .error .malformed
  else .ok (emit s.stack (.str text))

def stepText (s : State) (isKey : Bool) (chars : List (Nat × Bool)) (escape : Escape)
    (c : CodePoint) : Except LoadsError State :=
  match escape with
  | .none =>
      if c = 0x22 then endText s isKey (joinEscapes chars)
      else if c = 0x5C then .ok { s with mode := .text isKey chars .backslash }
      else if c.val < 0x20 then .error .malformed
      else .ok { s with mode := .text isKey (chars ++ [(c.val, false)]) .none }
  | .backslash =>
      if c = 0x75 then .ok { s with mode := .text isKey chars (.hex []) }
      else match unescape c with
        | some n => .ok { s with mode := .text isKey (chars ++ [(n, false)]) .none }
        | none => .error .malformed
  | .hex digits =>
      match hexValue c with
      | none => .error .malformed
      | some d =>
          let digits := digits ++ [d]
          if digits.length < 4 then .ok { s with mode := .text isKey chars (.hex digits) }
          else
            let n := digits.foldl (fun n d => 16 * n + d) 0
            .ok { s with mode := .text isKey (chars ++ [(n, true)]) .none }

/-! ### Numbers -/

/-- The number goes on with `c`. -/
def Numeral.go (numeral : Numeral) (c : CodePoint) : Option Numeral :=
  let digit := (asciiDecimal c).isSome
  let exponent := c = 0x65 || c = 0x45
  match numeral with
  | .minus => if c = 0x30 then some .zero else if digit then some .digits else none
  | .zero => if c = 0x2E then some .point else if exponent then some .exp else none
  | .digits =>
      if digit then some .digits else if c = 0x2E then some .point
      else if exponent then some .exp else none
  | .point => if digit then some .behind else none
  | .behind => if digit then some .behind else if exponent then some .exp else none
  | .exp =>
      if digit then some .expDigits else if c = 0x2B ∨ c = 0x2D then some .expSign else none
  | .expSign | .expDigits => if digit then some .expDigits else none

/-- The number that was read; one that broke off is followed by a character that cannot stand
    there. -/
def number (numeral : Numeral) (chars : PyStr) : Except LoadsError Json :=
  match numeral with
  | .zero | .digits =>
      let (negative, digits) := PyFloat.takeSign chars
      if py.intDigits < digits.length then .error .intDigits
      else
        let n : Int := PyFloat.digitsValue (digits.filterMap asciiDecimal)
        .ok (.int (if negative then -n else n))
  | .behind | .expDigits =>
      match PyFloat.ofText asciiDecimal chars with
      | some x =>
          if (PyFloat.takeSign chars).1 ∧ x = .finite 0 then .ok .negZero else .ok (.float x)
      | none => .error .malformed
  | _ => .error .malformed

def stepNumber (s : State) (numeral : Numeral) (chars : PyStr) (c : CodePoint) :
    Except LoadsError State :=
  match numeral.go c with
  | some numeral => .ok { s with mode := .number numeral (chars ++ [c]) }
  | none =>
      if numeral = .minus ∧ c = 0x49 then
        .ok { s with mode := .word (PyStr.lit "nfinity") (.float (.inf true)) }
      else do
        let value ← number py numeral chars
        let s := emit s.stack value
        match s.mode with
        | .done _ => if isSpace c then .ok s else .error .malformed
        | _ => next s c

/-! ### The step -/

def step (s : State) (c : CodePoint) : Except LoadsError State :=
  match s.mode with
  | .value orEnd =>
      if isSpace c then .ok s
      else if orEnd ∧ c = 0x5D then close s.stack
      else begin py s c
  | .key orEnd =>
      if isSpace c then .ok s
      else if orEnd ∧ c = 0x7D then close s.stack
      else if c = 0x22 then .ok { s with mode := .text true [] .none }
      else .error .malformed
  | .colon =>
      if isSpace c then .ok s
      else if c = 0x3A then .ok { s with mode := .value false }
      else .error .malformed
  | .next => next s c
  | .text isKey chars escape => stepText s isKey chars escape c
  | .number numeral chars => stepNumber py s numeral chars c
  | .word [] _ => .error .malformed
  | .word (w :: rest) value =>
      if c ≠ w then .error .malformed
      else if rest = [] then .ok (emit s.stack value)
      else .ok { s with mode := .word rest value }
  | .done _ => if isSpace c then .ok s else .error .malformed

/-- The end of the text. -/
def finish (s : State) : Except LoadsError Json :=
  match s.stack, s.mode with
  | [], .done value => .ok value
  | [], .number numeral chars => number py numeral chars
  | _, _ => .error .malformed

/-- `json.loads(text)`. -/
def read (text : PyStr) : Except LoadsError Json := do
  let s ← text.foldlM (step py) ⟨[], .value false⟩
  finish py s

end JsonReader

namespace Json

/-- `json.loads(payload)`. -/
def loads (py : Interpreter) (payload : List UInt8) : Except LoadsError Json :=
  match PyStr.decodeJson payload with
  | none => .error .malformed
  | some text => JsonReader.read py text

end Json

end ControlPlane
