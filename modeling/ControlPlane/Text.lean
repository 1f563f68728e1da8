/-
  PYTHON TEXT: the few `str` operations the control plane decides by.

  A Python string is a sequence of code points.  UTF-8 keeps prefixes, and an ASCII character is one
  byte that is part of no other character, so what is asked about prefixes and ASCII characters is
  asked of the `bytes`; the rest reads the list of characters.  `contains` is `needle in text`,
  `startswith` is `str.startswith`, `blank` is `not s.strip()` (`strip` removes exactly the characters
  `isSpace` accepts), `removeprefix` and `take` are `str.removeprefix` and a slice `[:n]`.  Strings
  compare by their code points, so `sorted` is a stable sort in Lean's own order; a `set` is a list
  without repetitions.
-/
import Mathlib.Data.List.Dedup
import Mathlib.Data.List.Infix
import Mathlib.Data.List.Sort
import Mathlib.Data.String.Basic

namespace ControlPlane.Text

/-- `needle in text`. -/
def contains (needle text : String) : Bool := decide (needle.toList <:+: text.toList)

/-- The UTF-8 encoding of a text. -/
def bytes (text : String) : List UInt8 := text.toByteArray.data.toList

def slash : UInt8 := 0x2F

def backslash : UInt8 := 0x5C

/-- `text.startswith(pre)`. -/
def startswith (text pre : String) : Bool := (bytes pre).isPrefixOf (bytes text)

/-- `len(text)`: one byte of every code point is no continuation byte. -/
def len (text : String) : Nat := (bytes text).countP fun b => b &&& 0xC0 != 0x80

/-- `text.removeprefix(pre)`. -/
def removeprefix (text pre : String) : String :=
  if startswith text pre then String.ofList (text.toList.drop pre.toList.length) else text

/-- `text[:n]`. -/
def take (text : String) (n : Nat) : String := String.ofList (text.toList.take n)

/-- `c.isspace()`, the characters `strip` removes. -/
def isSpace (c : Char) : Bool :=
  let n := c.toNat
  (9 ≤ n && n ≤ 13) || (28 ≤ n && n ≤ 32) || n == 0x85 || n == 0xA0 || n == 0x1680 ||
    (0x2000 ≤ n && n ≤ 0x200A) || n == 0x2028 || n == 0x2029 || n == 0x202F || n == 0x205F ||
    n == 0x3000

/-- `not text.strip()`. -/
def blank (text : String) : Bool := text.toList.all isSpace

/-- One of `0123456789abcdef`. -/
def isHexDigit (b : UInt8) : Bool := (48 ≤ b && b ≤ 57) || (97 ≤ b && b ≤ 102)

/-- Exactly sixty-four lower-case hexadecimal digits. -/
def areHex64 (digits : List UInt8) : Bool := digits.length == 64 && digits.all isHexDigit

def isHex64 (text : String) : Bool := areHex64 (bytes text)

theorem bytes_append (a b : String) : bytes (a ++ b) = bytes a ++ bytes b := by
  simp [bytes]

theorem startswith_append (pre text : String) : startswith (pre ++ text) pre = true := by
  simp [startswith, bytes_append]

/-- Nothing that is appended makes a visible text blank. -/
theorem not_blank_append {pre : String} (hpre : blank pre = false) (text : String) :
    blank (pre ++ text) = false := by
  rw [blank] at hpre
  rw [blank, String.toList_append, List.all_append, hpre, Bool.false_and]

theorem bytes_injective {a b : String} (h : bytes a = bytes b) : a = b :=
  String.toByteArray_inj.mp (ByteArray.ext (Array.toList_inj.mp h))

theorem removeprefix_append (pre text : String) : removeprefix (pre ++ text) pre = text := by
  unfold removeprefix
  rw [if_pos (startswith_append ..), String.toList_append, List.drop_left, String.ofList_toList]

/-- A text that ends in a digest has one digest at its end. -/
theorem hex64_of_append {pre pre' a b : String} (ha : isHex64 a = true) (hb : isHex64 b = true)
    (h : pre ++ a = pre' ++ b) : a = b := by
  simp only [isHex64, areHex64, Bool.and_eq_true, beq_iff_eq] at ha hb
  have hbytes : bytes pre ++ bytes a = bytes pre' ++ bytes b := by
    rw [← bytes_append, ← bytes_append, h]
  exact bytes_injective (List.append_inj_right' hbytes (ha.1.trans hb.1.symm))

/-! ## Sorting -/

/-- `sorted(items, key=key)`, which is stable. -/
def sortedBy {α : Type} (key : α → String) (items : List α) : List α :=
  items.insertionSort fun a b => key a ≤ key b

/-- `sorted(texts)`. -/
def sorted (texts : List String) : List String := texts.insertionSort (· ≤ ·)

/-- `sorted(set(texts))`. -/
def sortedSet (texts : List String) : List String := sorted texts.dedup

theorem sortedBy_perm {α : Type} (key : α → String) (items : List α) :
    (sortedBy key items).Perm items :=
  List.perm_insertionSort _ items

theorem sorted_perm (texts : List String) : (sorted texts).Perm texts :=
  List.perm_insertionSort _ texts

theorem mem_sortedSet {texts : List String} {text : String} :
    text ∈ sortedSet texts ↔ text ∈ texts := by
  rw [sortedSet, (sorted_perm _).mem_iff, List.mem_dedup]

/-- A sorted list without repetitions is the summary of its own elements; one with a repetition is
    not. -/
theorem sorted_eq_sortedSet_iff (texts : List String) :
    sorted texts = sortedSet (sorted texts) ↔ texts.Nodup := by
  constructor
  · intro h
    have hnodup : (sortedSet (sorted texts)).Nodup :=
      (sorted_perm _).nodup_iff.mpr (List.nodup_dedup _)
    exact (sorted_perm texts).nodup_iff.mp (h ▸ hnodup)
  · intro h
    have hnodup : (sorted texts).Nodup := (sorted_perm texts).nodup_iff.mpr h
    have hsorted : (sorted texts).Pairwise (· ≤ ·) := List.pairwise_insertionSort _ texts
    rw [sortedSet, hnodup.dedup]
    exact hsorted.insertionSort_eq.symm

end ControlPlane.Text
