/-
  FLOATS FROM NUMBERS AND TEXT: `float(x)`.

  A double is a rational number with a 53-bit significand and an exponent from -1022 to 1023.
  `nearest` rounds half to even, as IEEE 754 and Python do, and goes to an infinity from
  2^1024 - 2^970 on.  An integer that would do so raises `OverflowError`; a decimal text does not, it
  IS an infinity.  A negative zero is not told from zero.

  `float(text)` takes any Unicode decimal digit, and single underscores between digits; which
  characters are digits is a table of the interpreter, so `decimal` is a parameter.
-/
import ControlPlane.PyFloat
import ControlPlane.PyStr

namespace ControlPlane

namespace PyFloat

/-! ## Rounding -/

/-- The integer nearest to `x`, to the even one of two. -/
def roundHalfEven (x : ℚ) : Int :=
  let below := x.floor
  let rest := x - below
  if rest < 1 / 2 then below
  else if 1 / 2 < rest then below + 1
  else if below % 2 = 0 then below else below + 1

/-- The exponent of the greatest power of two that is at most `x`, for `x` positive. -/
def binaryExponent (x : ℚ) : Int :=
  let guess : Int := (Nat.log2 x.num.natAbs : Int) - Nat.log2 x.den
  if (2 : ℚ) ^ guess ≤ x then guess else guess - 1

/-- The double nearest to `q`. -/
def nearest (q : ℚ) : PyFloat :=
  if q = 0 then .finite 0
  else
    let ulp : ℚ := 2 ^ (max (binaryExponent |q|) (-1022) - 52)
    let rounded := roundHalfEven (|q| / ulp) * ulp
    if 2 ^ 1024 ≤ rounded then .inf (decide (q < 0))
    else .finite (if q < 0 then -rounded else rounded)

/-- `float(n)`; `none` is `OverflowError`. -/
def ofInt (n : Int) : Option PyFloat :=
  match nearest n with
  | .finite q => some (.finite q)
  | _ => none

example : ofInt (2 ^ 53 + 1) = some (.finite (2 ^ 53)) := by decide +kernel

example : ofInt (2 ^ 1024) = none := by decide +kernel

/-! ## Decimal text -/

/-- The natural number with these digits. -/
def digitsValue (digits : List Nat) : Nat := digits.foldl (fun n d => 10 * n + d) 0

/-- Sign, digits before and behind the point, exponent. -/
def ofDecimal (negative : Bool) (whole behind : List Nat) (exponent : Int) : PyFloat :=
  let size : ℚ := digitsValue (whole ++ behind) * 10 ^ (exponent - behind.length)
  nearest (if negative then -size else size)

/-- Digits with single underscores between them, and what follows. -/
def takeDigits (decimal : CodePoint → Option Nat) : PyStr → List Nat × PyStr
  | [] => ([], [])
  | c :: rest =>
      match decimal c with
      | none => ([], c :: rest)
      | some d =>
          match rest with
          | [] => ([d], [])
          | c' :: rest' =>
              if c' = 0x5F then
                match takeDigits decimal rest' with
                | ([], _) => ([d], c' :: rest')
                | (digits, tail) => (d :: digits, tail)
              else
                match takeDigits decimal (c' :: rest') with
                | (digits, tail) => (d :: digits, tail)

/-- A leading sign. -/
def takeSign : PyStr → Bool × PyStr
  | c :: rest => if c = 0x2D then (true, rest) else if c = 0x2B then (false, rest)
      else (false, c :: rest)
  | [] => (false, [])

/-- ASCII letters in lower case. -/
def lowerAscii (text : PyStr) : PyStr :=
  text.map fun c => if 0x41 ≤ c.val ∧ c.val ≤ 0x5A then c + 0x20 else c

/-- Behind the digits: nothing, or an exponent. -/
def takeExponent (decimal : CodePoint → Option Nat) : PyStr → Option Int
  | [] => some 0
  | c :: rest =>
      if c = 0x65 ∨ c = 0x45 then
        let (negative, tail) := takeSign rest
        match takeDigits decimal tail with
        | (d :: digits, []) =>
            some (if negative then -(digitsValue (d :: digits) : Int) else digitsValue (d :: digits))
        | _ => none
      else none

/-- A decimal without its sign. -/
def unsigned (decimal : CodePoint → Option Nat) (negative : Bool) (text : PyStr) : Option PyFloat :=
  let (whole, tail) := takeDigits decimal text
  let (behind, tail) :=
    match tail with
    | c :: rest => if c = 0x2E then takeDigits decimal rest else ([], c :: rest)
    | [] => ([], [])
  if whole = [] ∧ behind = [] then none
  else (takeExponent decimal tail).map fun exponent => ofDecimal negative whole behind exponent

/-- `float(text)`; `none` is `ValueError`. -/
def ofText (decimal : CodePoint → Option Nat) (text : PyStr) : Option PyFloat :=
  let stripped := ((text.dropWhile PyStr.isSpace).reverse.dropWhile PyStr.isSpace).reverse
  let (negative, body) := takeSign stripped
  let word := lowerAscii body
  if word = PyStr.lit "inf" ∨ word = PyStr.lit "infinity" then some (.inf negative)
  else if word = PyStr.lit "nan" then some .nan
  else unsigned decimal negative body

end PyFloat

/-- `0` to `9`. -/
def asciiDecimal (c : CodePoint) : Option Nat :=
  if 0x30 ≤ c.val ∧ c.val ≤ 0x39 then some (c.val - 0x30) else none

example : PyFloat.ofText asciiDecimal (PyStr.lit " -1_0.5e+1 ") = some (.finite (-105)) := by
  decide +kernel

end ControlPlane
