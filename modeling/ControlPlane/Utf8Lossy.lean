/-
  LENIENT UTF-8: decoding that goes on behind what is malformed.

  `decodeLossy` reads a sequence as long as it can be one.  Where it stops short, the bytes read so far
  are ONE error, for which the handler's text is put: `U+FFFD` for `"replace"`, nothing for `"ignore"`.

  1. What is read has no lone surrogate, whatever the bytes are (`decodeLossy_scalar`).
  2. A text is read back from its bytes (`decodeLossy_encoded`), also where an error is ignored around it:
     bytes cut off at either end of a text's are read as the text without the characters that were cut
     (`decodeLossy_take`, `decodeLossy_drop`).
-/
import ControlPlane.Utf8
import Mathlib.Data.List.TakeWhile

namespace ControlPlane.PyStr

/-- How many continuation bytes go with a lead byte; `none`: it starts nothing. -/
def follows (a : UInt8) : Option Nat :=
  if a.toNat < 0x80 then some 0
  else if 0xC2 ≤ a.toNat ∧ a.toNat ≤ 0xDF then some 1
  else if 0xE0 ≤ a.toNat ∧ a.toNat ≤ 0xEF then some 2
  else if 0xF0 ≤ a.toNat ∧ a.toNat ≤ 0xF4 then some 3
  else none

/-- A continuation byte that can come second: no longer spelling than needed, no surrogate, no more than
    the last code point. -/
def isSecond (a b : UInt8) : Bool :=
  isTail b &&
    if a.toNat = 0xE0 then decide (0xA0 ≤ b.toNat)
    else if a.toNat = 0xED then decide (b.toNat < 0xA0)
    else if a.toNat = 0xF0 then decide (0x90 ≤ b.toNat)
    else if a.toNat = 0xF4 then decide (b.toNat < 0x90)
    else true

/-- The bits of the lead byte of a sequence with so many continuation bytes. -/
def leadBits (a : UInt8) : Nat → Nat
  | 0 => a.toNat
  | 1 => a.toNat % 32
  | 2 => a.toNat % 16
  | _ => a.toNat % 8

/-- The continuation bytes that are there, of so many. -/
def tailsOf (a : UInt8) (n : Nat) : List UInt8 → List UInt8
  | [] => []
  | b :: rest => if isSecond a b then (b :: rest.takeWhile isTail).take n else []

/-- `raw.decode("utf-8", errors=…)`, with what the handler puts for an error. -/
def decodeLossy (handled : PyStr) : List UInt8 → PyStr
  | [] => []
  | a :: rest =>
    match follows a with
    | none => handled ++ decodeLossy handled rest
    | some n =>
      let tails := tailsOf a n rest
      (if tails.length = n then [joined (leadBits a n) tails] else handled) ++
        decodeLossy handled (rest.drop tails.length)
termination_by raw => raw.length
decreasing_by
  · exact Nat.lt_succ_self _
  · rw [List.length_drop]
    exact Nat.lt_succ_of_le (Nat.sub_le _ _)

/-- `U+FFFD`. -/
def replacement : PyStr := [0xFFFD]

variable {handled t : PyStr} {c : CodePoint} {a b : UInt8} {tails rest raw : List UInt8} {n k : Nat}

/-! ## One sequence -/

theorem isTail_iff : isTail b = true ↔ 0x80 ≤ b.toNat ∧ b.toNat < 0xC0 := by
  rw [isTail, Bool.and_eq_true, decide_eq_true_eq, decide_eq_true_eq]

theorem isSecond_tail (h : isSecond a b = true) : isTail b = true :=
  (Bool.and_eq_true_iff.mp h).1

/-- A continuation byte starts nothing. -/
theorem follows_tail (h : isTail b = true) : follows b = none := by
  have hb := isTail_iff.mp h
  rw [follows, if_neg (by omega), if_neg (by omega), if_neg (by omega), if_neg (by omega)]

theorem tailsOf_length_le : (tailsOf a n rest).length ≤ n := by
  cases rest with
  | nil => exact Nat.zero_le n
  | cons b rest =>
    rw [tailsOf]
    split
    · exact List.length_take_le _ _
    · exact Nat.zero_le n

/-- A sequence: a lead byte and as many continuation bytes as go with it. -/
structure IsSequence (a : UInt8) (tails : List UInt8) (c : CodePoint) : Prop where
  length : follows a = some tails.length
  all : tails.all isTail = true
  second : ∀ b ∈ tails.head?, isSecond a b = true
  value : joined (leadBits a tails.length) tails = c

/-- Of a sequence, the bytes that are there are read. -/
theorem IsSequence.tailsOf_append (h : IsSequence a tails c) :
    tailsOf a tails.length (tails ++ rest) = tails := by
  cases tails with
  | nil =>
    cases rest with
    | nil => rfl
    | cons b rest =>
      rw [List.nil_append, tailsOf]
      split <;> rfl
  | cons b tails =>
    have hrest : (tails ++ rest).takeWhile isTail = tails ++ rest.takeWhile isTail :=
      List.takeWhile_append_of_pos (List.all_eq_true.mp (Bool.and_eq_true_iff.mp h.all).2)
    rw [List.cons_append, tailsOf, if_pos (h.second b rfl), hrest, ← List.cons_append,
      List.take_left']
    rfl

/-- Of the front of a sequence too. -/
theorem IsSequence.tailsOf_take (h : IsSequence a tails c) (hk : k ≤ tails.length) :
    tailsOf a tails.length (tails.take k) = tails.take k := by
  cases tails with
  | nil => rw [List.take_nil]; rfl
  | cons b tails =>
    cases k with
    | zero => rfl
    | succ k =>
      have hrest : (tails.take k).takeWhile isTail = tails.take k := by
        rw [List.takeWhile_eq_self_iff]
        intro d hd
        exact List.all_eq_true.mp (Bool.and_eq_true_iff.mp h.all).2 d (List.mem_of_mem_take hd)
      rw [List.take_succ_cons, tailsOf, if_pos (h.second b rfl), hrest]
      refine List.take_of_length_le ?_
      rw [List.length_cons, List.length_take, List.length_cons]
      omega

/-- **The bytes of a code point are a sequence**, by the number of its bits. -/
theorem utf8_isSequence (hc : isSurrogate c = false) :
    ∃ a tails, utf8 c = a :: tails ∧ IsSequence a tails c := by
  have hlt := c.isLt
  rw [isSurrogate, Bool.and_eq_false_iff, decide_eq_false_iff_not, decide_eq_false_iff_not] at hc
  have hlow : c.val % 64 < 64 := Nat.mod_lt _ (by decide)
  have hmid : c.val / 64 % 64 < 64 := Nat.mod_lt _ (by decide)
  have hhigh : c.val / 64 ^ 2 % 64 < 64 := Nat.mod_lt _ (by decide)
  rw [utf8]
  simp only [Nat.pow_zero, Nat.div_one, Nat.pow_one]
  split
  · have ha := toNat_byte (n := c.val) (by omega)
    refine ⟨_, _, rfl, ?_, rfl, ?_, joined_eq ha⟩
    · rw [follows, if_pos (by omega)]
      rfl
    · intro b hb
      cases hb
  split
  · have ha := toNat_byte (n := 0xC0 + c.val / 64) (by omega)
    have hb := toNat_byte (n := 0x80 + c.val % 64) (by omega)
    refine ⟨_, _, rfl, ?_, ?_, fun b hb' => ?_, joined_eq ?_⟩
    · rw [follows, if_neg (by omega), if_pos (by omega)]
      rfl
    · simp only [List.all_cons, List.all_nil, isTail_byte hlow, Bool.and_self]
    · obtain rfl := Option.some.inj hb'
      rw [isSecond, isTail_byte hlow, if_neg (by omega), if_neg (by omega), if_neg (by omega),
        if_neg (by omega)]
      rfl
    · simp only [List.length_singleton, leadBits, List.foldl_cons, List.foldl_nil, bits_byte hlow, ha]
      omega
  split
  · have ha := toNat_byte (n := 0xE0 + c.val / 4096) (by omega)
    have hb := toNat_byte (n := 0x80 + c.val / 64 % 64) (by omega)
    refine ⟨_, _, rfl, ?_, ?_, fun b hb' => ?_, joined_eq ?_⟩
    · rw [follows, if_neg (by omega), if_neg (by omega), if_pos (by omega)]
      rfl
    · simp only [List.all_cons, List.all_nil, isTail_byte hlow, isTail_byte hmid, Bool.and_self]
    · obtain rfl := Option.some.inj hb'
      rw [isSecond, isTail_byte hmid, ha, hb, Bool.true_and]
      split
      · exact decide_eq_true (by omega)
      split
      · exact decide_eq_true (by omega)
      rw [if_neg (by omega), if_neg (by omega)]
    · simp only [List.length_cons, List.length_nil, leadBits, List.foldl_cons, List.foldl_nil,
        bits_byte hlow, bits_byte hmid, ha]
      omega
  · have ha := toNat_byte (n := 0xF0 + c.val / 262144) (by omega)
    have hb := toNat_byte (n := 0x80 + c.val / 64 ^ 2 % 64) (by omega)
    refine ⟨_, _, rfl, ?_, ?_, fun b hb' => ?_, joined_eq ?_⟩
    · rw [follows, if_neg (by omega), if_neg (by omega), if_neg (by omega), if_pos (by omega)]
      rfl
    · simp only [List.all_cons, List.all_nil, isTail_byte hlow, isTail_byte hmid, isTail_byte hhigh,
        Bool.and_self]
    · obtain rfl := Option.some.inj hb'
      rw [isSecond, isTail_byte hhigh, ha, hb, Bool.true_and, if_neg (by omega), if_neg (by omega)]
      split
      · exact decide_eq_true (by omega)
      split
      · exact decide_eq_true (by omega)
      rfl
    · simp only [List.length_cons, List.length_nil, leadBits, List.foldl_cons, List.foldl_nil,
        bits_byte hlow, bits_byte hmid, bits_byte hhigh, ha]
      omega

/-! ## Reading back -/

theorem decodeLossy_nil : decodeLossy handled [] = [] := by
  rw [decodeLossy]

theorem decodeLossy_sequence (h : IsSequence a tails c) :
    decodeLossy handled (a :: tails ++ rest) = c :: decodeLossy handled rest := by
  rw [List.cons_append, decodeLossy, h.length]
  simp only [h.tailsOf_append, if_true, h.value, List.drop_left, List.singleton_append]

theorem decodeLossy_utf8 (hc : isSurrogate c = false) :
    decodeLossy handled (utf8 c ++ rest) = c :: decodeLossy handled rest := by
  obtain ⟨a, tails, hbytes, hsequence⟩ := utf8_isSequence hc
  rw [hbytes, decodeLossy_sequence hsequence]

/-- Continuation bytes without a lead byte are ignored. -/
theorem decodeLossy_tails (h : tails.all isTail = true) :
    decodeLossy [] (tails ++ rest) = decodeLossy [] rest := by
  induction tails with
  | nil => rfl
  | cons b tails ih =>
    obtain ⟨hb, htails⟩ := Bool.and_eq_true_iff.mp h
    rw [List.cons_append, decodeLossy, follows_tail hb]
    exact ih htails

/-- A sequence that was cut short is ignored. -/
theorem decodeLossy_cut (hc : isSurrogate c = false) (hk : k < (utf8 c).length) :
    decodeLossy [] ((utf8 c).take k) = [] := by
  obtain ⟨a, tails, hbytes, hsequence⟩ := utf8_isSequence hc
  rw [hbytes] at hk ⊢
  cases k with
  | zero => exact decodeLossy_nil
  | succ k =>
    have hshort : k < tails.length := Nat.lt_of_succ_lt_succ hk
    have hlength : (tails.take k).length = k := List.length_take_of_le hshort.le
    rw [List.take_succ_cons, decodeLossy, hsequence.length]
    simp only [hsequence.tailsOf_take hshort.le, hlength, hshort.ne, if_false, List.nil_append]
    rw [List.drop_eq_nil_of_le hlength.le, decodeLossy_nil]

theorem encoded_cons : encoded (c :: t) = utf8 c ++ encoded t := List.flatMap_cons

/-- **A text is read back.** -/
theorem decodeLossy_encoded (h : Scalar t) : decodeLossy handled (encoded t) = t := by
  induction t with
  | nil => exact decodeLossy_nil
  | cons c t ih =>
    obtain ⟨hc, ht⟩ := List.forall_mem_cons.mp h
    rw [encoded_cons, decodeLossy_utf8 hc, ih ht]

/-- **Cut off in front**: the end of the text whose bytes are all there. -/
theorem decodeLossy_drop (h : Scalar t) : ∃ t', t' <:+ t ∧
    decodeLossy [] ((encoded t).drop k) = t' ∧ (encoded t').length ≤ (encoded t).length - k := by
  induction t generalizing k with
  | nil => exact ⟨[], List.suffix_refl [], by rw [encoded, List.flatMap_nil, List.drop_nil, decodeLossy_nil],
      Nat.zero_le _⟩
  | cons c t ih =>
    obtain ⟨hc, ht⟩ := List.forall_mem_cons.mp h
    rw [encoded_cons, List.length_append]
    rcases Nat.eq_zero_or_pos k with rfl | hpos
    · refine ⟨c :: t, List.suffix_refl _, ?_, ?_⟩
      · rw [List.drop_zero, ← encoded_cons, decodeLossy_encoded h]
      · rw [encoded_cons, List.length_append, Nat.sub_zero]
    rcases Nat.lt_or_ge k (utf8 c).length with hshort | hlong
    · refine ⟨t, List.suffix_cons c t, ?_, by omega⟩
      obtain ⟨a, tails, hbytes, hsequence⟩ := utf8_isSequence hc
      obtain ⟨k, rfl⟩ := Nat.exists_eq_add_one_of_ne_zero hpos.ne'
      have htails : (tails.drop k).all isTail = true := by
        rw [List.all_eq_true]
        exact fun d hd => List.all_eq_true.mp hsequence.all d (List.mem_of_mem_drop hd)
      rw [List.drop_append_of_le_length hshort.le, hbytes, List.drop_succ_cons, decodeLossy_tails htails,
        decodeLossy_encoded ht]
    · obtain ⟨t', hsuffix, hdecode, hlength⟩ := @ih (k - (utf8 c).length) ht
      refine ⟨t', hsuffix.trans (List.suffix_cons c t), ?_, by omega⟩
      rw [List.drop_append, List.drop_eq_nil_of_le hlong, List.nil_append, hdecode]

/-- **Cut off behind**: the front of the text whose bytes are all there. -/
theorem decodeLossy_take (h : Scalar t) : ∃ t', t' <+: t ∧
    decodeLossy [] ((encoded t).take k) = t' ∧ (encoded t').length ≤ k := by
  induction t generalizing k with
  | nil => exact ⟨[], List.prefix_refl [], by rw [encoded, List.flatMap_nil, List.take_nil, decodeLossy_nil],
      Nat.zero_le _⟩
  | cons c t ih =>
    obtain ⟨hc, ht⟩ := List.forall_mem_cons.mp h
    rw [encoded_cons]
    rcases Nat.lt_or_ge k (utf8 c).length with hshort | hlong
    · refine ⟨[], List.nil_prefix, ?_, Nat.zero_le k⟩
      rw [List.take_append_of_le_length hshort.le, decodeLossy_cut hc hshort]
    · obtain ⟨t', hprefix, hdecode, hlength⟩ := @ih (k - (utf8 c).length) ht
      refine ⟨c :: t', List.cons_prefix_cons.mpr ⟨rfl, hprefix⟩, ?_, ?_⟩
      · rw [List.take_append, List.take_of_length_le hlong, decodeLossy_utf8 hc, hdecode]
      · rw [encoded_cons, List.length_append]
        omega

/-! ## No lone surrogates -/

theorem joined_val (h : tails.foldl (fun n b => n * 64 + b.toNat % 64) n < 0x110000) :
    (joined n tails).val = tails.foldl (fun n b => n * 64 + b.toNat % 64) n := Nat.mod_eq_of_lt h

theorem tailsOf_second (h : b ∈ (tailsOf a n rest).head?) : isSecond a b = true := by
  cases rest with
  | nil => cases h
  | cons d rest =>
    rw [tailsOf] at h
    split at h
    · rename_i hd
      cases n with
      | zero => cases h
      | succ n =>
        obtain rfl : d = b := Option.some.inj h
        exact hd
    · cases h

/-- **A sequence that is read is no surrogate**, by the number of its continuation bytes: only the lead
    bytes of two and three could spell one, or more than the last code point. -/
theorem sequence_scalar (hn : follows a = some n) (hlength : (tailsOf a n rest).length = n) :
    isSurrogate (joined (leadBits a n) (tailsOf a n rest)) = false := by
  rw [isSurrogate, Bool.and_eq_false_iff, decide_eq_false_iff_not, decide_eq_false_iff_not]
  have hsecond := fun b => @tailsOf_second a b rest n
  generalize tailsOf a n rest = tails at hlength hsecond
  unfold follows at hn
  split at hn
  · obtain rfl := Option.some.inj hn
    obtain rfl := List.length_eq_zero_iff.mp hlength
    rw [joined_val]
    all_goals
      simp only [leadBits, List.foldl_nil]
      omega
  split at hn
  · obtain rfl := Option.some.inj hn
    obtain ⟨b, rfl⟩ := List.length_eq_one_iff.mp hlength
    rw [joined_val]
    all_goals
      simp only [leadBits, List.foldl_cons, List.foldl_nil]
      omega
  split at hn
  · obtain rfl := Option.some.inj hn
    obtain ⟨b, c, rfl⟩ := List.length_eq_two.mp hlength
    obtain ⟨htail, hrange⟩ := Bool.and_eq_true_iff.mp (hsecond b rfl)
    rw [isTail_iff] at htail
    rw [joined_val]
    · simp only [leadBits, List.foldl_cons, List.foldl_nil]
      by_cases hed : a.toNat = 0xED
      · rw [if_neg (by omega), if_pos hed, decide_eq_true_eq] at hrange
        omega
      · omega
    · simp only [leadBits, List.foldl_cons, List.foldl_nil]
      omega
  split at hn
  · obtain rfl := Option.some.inj hn
    obtain ⟨b, c, d, rfl⟩ := List.length_eq_three.mp hlength
    obtain ⟨htail, hrange⟩ := Bool.and_eq_true_iff.mp (hsecond b rfl)
    rw [isTail_iff] at htail
    rw [joined_val]
    · simp only [leadBits, List.foldl_cons, List.foldl_nil]
      by_cases hf0 : a.toNat = 0xF0
      · rw [if_neg (by omega), if_neg (by omega), if_pos hf0, decide_eq_true_eq] at hrange
        omega
      · omega
    · simp only [leadBits, List.foldl_cons, List.foldl_nil]
      by_cases hf4 : a.toNat = 0xF4
      · rw [if_neg (by omega), if_neg (by omega), if_neg (by omega), if_pos hf4,
          decide_eq_true_eq] at hrange
        omega
      · omega
  · cases hn

/-- **What is read can be encoded**, if what is put for an error can. -/
theorem decodeLossy_scalar (h : Scalar handled) : Scalar (decodeLossy handled raw) := by
  induction raw using decodeLossy.induct with
  | case1 => rw [decodeLossy]; exact fun c hc => absurd hc List.not_mem_nil
  | case2 a rest hnone ih =>
    rw [decodeLossy, hnone]
    exact scalar_append.mpr ⟨h, ih⟩
  | case3 a rest n hn tails ih =>
    rw [decodeLossy, hn]
    refine scalar_append.mpr ⟨?_, ih⟩
    split
    · rename_i hlength
      exact fun c hc => List.mem_singleton.mp hc ▸ sequence_scalar hn hlength
    · exact h

end ControlPlane.PyStr
