/-
  PYTHON STRINGS AS CODE POINTS.

  A Python `str` is a sequence of code points, and it may hold LONE SURROGATES, which JSON escapes can
  spell and UTF-8 cannot carry: `encode` raises on them.  Where text comes from outside and is encoded
  or stored again, that difference decides, so there a string is a list of code points.
-/
import Mathlib.Algebra.Group.Nat.Defs
import Mathlib.Algebra.GroupWithZero.Nat
import Mathlib.Data.List.Infix
import Mathlib.Data.List.Lex
import Mathlib.Order.Fin.Basic

namespace ControlPlane

instance neZero_codePoints : NeZero 0x110000 := ⟨by decide⟩

abbrev CodePoint := Fin 0x110000

abbrev PyStr := List CodePoint

instance lawfulBEq_codePoint : LawfulBEq CodePoint := inferInstance

instance lawfulBEq_pyStr : LawfulBEq PyStr := List.instLawfulBEq

namespace PyStr

/-- A literal of the source. -/
def lit (text : String) : PyStr := text.toList.map fun c => Fin.ofNat 0x110000 c.toNat

def isSurrogate (c : CodePoint) : Bool := decide (0xD800 ≤ c.val) && decide (c.val ≤ 0xDFFF)

/-- The UTF-8 encoding of one code point, by the number of its bits. -/
def utf8 (c : CodePoint) : List UInt8 :=
  let n := c.val
  let tail (k : Nat) : UInt8 := UInt8.ofNat (0x80 + n / 64 ^ k % 64)
  if n < 0x80 then [UInt8.ofNat n]
  else if n < 0x800 then [UInt8.ofNat (0xC0 + n / 64), tail 0]
  else if n < 0x10000 then [UInt8.ofNat (0xE0 + n / 4096), tail 1, tail 0]
  else [UInt8.ofNat (0xF0 + n / 262144), tail 2, tail 1, tail 0]

/-- `text.encode("utf-8")`; `none` is `UnicodeEncodeError`. -/
def encode (text : PyStr) : Option (List UInt8) :=
  if text.any isSurrogate then none else some (text.flatMap utf8)

/-- `text[-n:]` for positive `n`. -/
def takeLast (text : PyStr) (n : Nat) : PyStr := text.drop (text.length - n)

/-- One of `0123456789abcdef`. -/
def isHexDigit (c : CodePoint) : Bool :=
  (48 ≤ c.val && c.val ≤ 57) || (97 ≤ c.val && c.val ≤ 102)

/-- `is_sha256_digest`. -/
def isSha256Digest (value : PyStr) : Bool :=
  (lit "sha256:").isPrefixOf value &&
    (value.drop 7).length == 64 && (value.drop 7).all isHexDigit

/-- `c.isspace()`, the characters `strip` removes. -/
def isSpace (c : CodePoint) : Bool :=
  let n := c.val
  (9 ≤ n && n ≤ 13) || (28 ≤ n && n ≤ 32) || n == 0x85 || n == 0xA0 || n == 0x1680 ||
    (0x2000 ≤ n && n ≤ 0x200A) || n == 0x2028 || n == 0x2029 || n == 0x202F || n == 0x205F ||
    n == 0x3000

/-- `not text.strip()`. -/
def blank (text : PyStr) : Bool := text.all isSpace

/-- `text.rstrip()`. -/
def rstrip (text : PyStr) : PyStr := (text.reverse.dropWhile isSpace).reverse

/-- `text.strip()`. -/
def strip (text : PyStr) : PyStr := rstrip (text.dropWhile isSpace)

/-- `needle in text`. -/
def contains (needle text : PyStr) : Bool := decide (needle <:+: text)

/-- ` `, `~` and what lies between. -/
def isPlain (c : CodePoint) : Bool := decide (0x20 ≤ c.val) && decide (c.val ≤ 0x7E)

theorem encode_eq_none {text : PyStr} : encode text = none ↔ ∃ c ∈ text, isSurrogate c = true := by
  rw [encode]
  split
  · rename_i hany
    exact iff_of_true rfl (List.any_eq_true.mp hany)
  · rename_i hany
    exact iff_of_false nofun fun h => hany (List.any_eq_true.mpr h)

/-! ## Plain text -/

theorem lit_append (s t : String) : lit (s ++ t) = lit s ++ lit t := by
  rw [lit, String.toList_append, List.map_append]
  rfl

theorem char_lt (c : Char) : c.toNat < 0x110000 := by
  rcases c.valid with h | ⟨-, h⟩
  · exact Nat.lt_trans h (by decide)
  · exact h

theorem lit_injective : Function.Injective lit := by
  intro a b h
  have hchar : Function.Injective fun c : Char => (Fin.ofNat 0x110000 c.toNat : CodePoint) := by
    intro c d hcd
    have hval := congrArg Fin.val hcd
    simp only [Fin.ofNat, Nat.mod_eq_of_lt (char_lt _)] at hval
    exact Char.toNat_inj.mp hval
  exact String.toList_injective (List.map_injective_iff.mpr hchar h)

theorem digit_val {c : Char} (h : c.isDigit = true) :
    48 ≤ (Fin.ofNat 0x110000 c.toNat).val ∧ (Fin.ofNat 0x110000 c.toNat).val ≤ 57 := by
  have hc : 48 ≤ c.toNat ∧ c.toNat ≤ 57 := by
    simp only [Char.isDigit, Bool.and_eq_true, decide_eq_true_eq, ge_iff_le, UInt32.le_iff_toNat_le]
      at h
    exact h
  have hval : (Fin.ofNat 0x110000 c.toNat).val = c.toNat := Nat.mod_eq_of_lt (by omega)
  rwa [hval]

/-- A digit is a plain character. -/
theorem isPlain_digit {c : Char} (h : c.isDigit = true) :
    isPlain (Fin.ofNat 0x110000 c.toNat) = true := by
  obtain ⟨hlow, hhigh⟩ := digit_val h
  simp only [isPlain, Bool.and_eq_true, decide_eq_true_eq]
  omega

theorem lit_nat_plain (n : Nat) : (lit (toString n)).all isPlain = true := by
  rw [List.all_eq_true]
  intro c hc
  obtain ⟨d, hd, rfl⟩ := List.mem_map.mp hc
  have hdigits : d ∈ Nat.toDigits 10 n := by
    rw [← Nat.toList_repr]
    exact hd
  exact isPlain_digit (Nat.isDigit_of_mem_toDigits (by decide) (by decide) hdigits)

theorem lit_int_plain (n : Int) : (lit (toString n)).all isPlain = true := by
  cases n with
  | ofNat m => exact lit_nat_plain m
  | negSucc m =>
    show (lit ("-" ++ toString (m + 1))).all isPlain = true
    rw [lit_append, List.all_append, lit_nat_plain]
    decide

/-! ## The end of a text -/

section TakeLast

variable {a b : PyStr} {n : Nat} {p : CodePoint → Bool}

theorem takeLast_append :
    takeLast (a ++ b) n = a.drop (a.length + b.length - n) ++ takeLast b n := by
  have hlen : a.length + b.length - n - a.length = b.length - n := by omega
  rw [takeLast, takeLast, List.length_append, List.drop_append, hlen]

/-- Cutting before appending makes no difference. -/
theorem takeLast_takeLast_append : takeLast (takeLast a n ++ b) n = takeLast (a ++ b) n := by
  have hlen : a.length - n + (a.length - (a.length - n) + b.length - n) =
      a.length + b.length - n := by omega
  rw [takeLast_append, takeLast_append, takeLast, List.length_drop, List.drop_drop, hlen]

/-- What is kept of the text in front satisfies what all of it did. -/
theorem all_takeLast_append (h : a.all p = true) :
    (takeLast (a ++ b) n).all p = (takeLast b n).all p := by
  have hfront : (a.drop (a.length + b.length - n)).all p = true := by
    rw [List.all_eq_true] at h ⊢
    exact fun c hc => h c (List.mem_of_mem_drop hc)
  rw [takeLast_append, List.all_append, hfront, Bool.true_and]

theorem all_takeLast (h : a.all p = true) : (takeLast a n).all p = true := by
  rw [List.all_eq_true] at h ⊢
  exact fun c hc => h c (List.mem_of_mem_drop hc)

theorem all_rstrip (h : a.all p = true) : (rstrip a).all p = true := by
  rw [List.all_eq_true] at h ⊢
  intro c hc
  refine h c (List.mem_reverse.mp ?_)
  exact (List.dropWhile_sublist _).mem (List.mem_reverse.mp hc)

end TakeLast

example : encode (lit "é€") = some [0xC3, 0xA9, 0xE2, 0x82, 0xAC] := by decide +kernel

end PyStr

end ControlPlane
