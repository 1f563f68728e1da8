/-
  STRICT UTF-8: reading back what `encode` writes.

  `decode` takes only the SHORTEST spelling of a code point and no surrogate.  One code point in front
  of more bytes is read back as that code point in front of what the bytes read as (`decode_utf8`);
  from this, by induction on the text, the encoding is undone by `decode` (`decode_encoded`) and is
  one-to-one.  Encoding takes concatenations to concatenations, so a piece of a text is the piece of
  its bytes between the lengths of what is encoded around it (`slice_encoded`).
-/
import ControlPlane.PyStr

namespace ControlPlane.PyStr

/-! ## Decoding -/

/-- A continuation byte. -/
def isTail (b : UInt8) : Bool := decide (0x80 ≤ b.toNat) && decide (b.toNat < 0xC0)

/-- The code point of a lead byte's value followed by the bits of continuation bytes. -/
def joined (lead : Nat) (tails : List UInt8) : CodePoint :=
  Fin.ofNat 0x110000 (tails.foldl (fun n b => n * 64 + b.toNat % 64) lead)

/-- The joined bits are a code point that needs this many bytes, and no surrogate. -/
def isShortest (least : Nat) (lead : Nat) (tails : List UInt8) : Bool :=
  let n := tails.foldl (fun n b => n * 64 + b.toNat % 64) lead
  tails.all isTail && decide (least ≤ n) && decide (n < 0x110000) &&
    !(decide (0xD800 ≤ n) && decide (n ≤ 0xDFFF))

/-- `raw.decode("utf-8")`; `none` is `UnicodeDecodeError`. -/
def decode : List UInt8 → Option PyStr
  | [] => some []
  | a :: rest =>
    if a.toNat < 0x80 then (decode rest).map (List.cons (joined a.toNat []))
    else match rest with
      | [] => none
      | b :: rest =>
        if a.toNat / 32 = 6 ∧ isShortest 0x80 (a.toNat % 32) [b] = true then
          (decode rest).map (List.cons (joined (a.toNat % 32) [b]))
        else match rest with
          | [] => none
          | c :: rest =>
            if a.toNat / 16 = 14 ∧ isShortest 0x800 (a.toNat % 16) [b, c] = true then
              (decode rest).map (List.cons (joined (a.toNat % 16) [b, c]))
            else match rest with
              | [] => none
              | d :: rest =>
                if a.toNat / 8 = 30 ∧ isShortest 0x10000 (a.toNat % 8) [b, c, d] = true then
                  (decode rest).map (List.cons (joined (a.toNat % 8) [b, c, d]))
                else none

/-- The bytes of a text without surrogates. -/
def encoded (text : PyStr) : List UInt8 := text.flatMap utf8

/-- No lone surrogate: what UTF-8 can carry. -/
def Scalar (text : PyStr) : Prop := ∀ c ∈ text, isSurrogate c = false

instance decidableScalar (text : PyStr) : Decidable (Scalar text) :=
  List.decidableBAll (fun c => isSurrogate c = false) text

/-! ## Encoding -/

variable {s t : PyStr} {c : CodePoint} {rest : List UInt8}

theorem encode_of_scalar (h : Scalar t) : encode t = some (encoded t) := by
  have hany : ¬ t.any isSurrogate = true := by
    rw [List.any_eq_true]
    rintro ⟨c, hc, hs⟩
    exact Bool.false_ne_true ((h c hc).symm.trans hs)
  exact if_neg hany

theorem encode_eq_some {raw : List UInt8} :
    encode t = some raw ↔ Scalar t ∧ encoded t = raw := by
  constructor
  · intro h
    have hs : Scalar t := by
      intro c hc
      by_contra hsur
      rw [encode_eq_none.mpr ⟨c, hc, by simpa using hsur⟩] at h
      cases h
    rw [encode_of_scalar hs] at h
    exact ⟨hs, Option.some.inj h⟩
  · rintro ⟨hs, rfl⟩
    exact encode_of_scalar hs

theorem encoded_append : encoded (s ++ t) = encoded s ++ encoded t := List.flatMap_append

theorem scalar_append : Scalar (s ++ t) ↔ Scalar s ∧ Scalar t := List.forall_mem_append

/-- A character of a `String` is no surrogate. -/
theorem lit_scalar (text : String) : Scalar (lit text) := by
  intro c hc
  obtain ⟨ch, -, rfl⟩ := List.mem_map.mp hc
  have hval : (Fin.ofNat 0x110000 ch.toNat : CodePoint).val = ch.toNat := Nat.mod_eq_of_lt (char_lt ch)
  rw [isSurrogate, hval]
  rcases ch.valid with h | ⟨h, -⟩
  · have hlow : ch.toNat < 0xD800 := h
    simp only [Bool.and_eq_false_iff, decide_eq_false_iff_not]
    omega
  · have hhigh : 0xDFFF < ch.toNat := h
    simp only [Bool.and_eq_false_iff, decide_eq_false_iff_not]
    omega

theorem Scalar.infix (h : Scalar t) (hs : s <:+: t) : Scalar s := fun c hc => h c (hs.subset hc)

theorem utf8_pos : 0 < (utf8 c).length := by
  rw [utf8]
  repeat' split
  all_goals exact Nat.succ_pos _

/-! ## Reading back -/

theorem toNat_byte {n : Nat} (h : n < 256) : (UInt8.ofNat n).toNat = n := by
  rw [UInt8.toNat_ofNat']
  exact Nat.mod_eq_of_lt h

theorem isTail_byte {n : Nat} (h : n < 64) : isTail (UInt8.ofNat (0x80 + n)) = true := by
  rw [isTail, toNat_byte (by omega), Bool.and_eq_true, decide_eq_true_eq, decide_eq_true_eq]
  omega

theorem bits_byte {n : Nat} (h : n < 64) : (UInt8.ofNat (0x80 + n)).toNat % 64 = n := by
  rw [toNat_byte (by omega)]
  omega

theorem joined_eq {lead : Nat} {tails : List UInt8}
    (h : tails.foldl (fun n b => n * 64 + b.toNat % 64) lead = c.val) : joined lead tails = c := by
  rw [joined, h]
  exact Fin.ext (Nat.mod_eq_of_lt c.isLt)

theorem isShortest_eq {least lead : Nat} {tails : List UInt8}
    (h : tails.foldl (fun n b => n * 64 + b.toNat % 64) lead = c.val)
    (htails : tails.all isTail = true) (hleast : least ≤ c.val) (hc : isSurrogate c = false) :
    isShortest least lead tails = true := by
  have hlt := c.isLt
  rw [isSurrogate] at hc
  simp only [isShortest, h, htails, hc, decide_eq_true hleast, decide_eq_true hlt, Bool.not_false,
    Bool.and_true]

/-- **A code point is read back**, whatever follows it. -/
theorem decode_utf8 (hc : isSurrogate c = false) :
    decode (utf8 c ++ rest) = (decode rest).map (List.cons c) := by
  have hlt := c.isLt
  rw [utf8]
  simp only [Nat.pow_zero, Nat.div_one, Nat.pow_one]
  split
  · -- one byte
    rename_i h1
    have hbyte := toNat_byte (n := c.val) (by omega)
    have hjoin : joined (UInt8.ofNat c.val).toNat [] = c := joined_eq hbyte
    rw [List.cons_append, List.nil_append, decode.eq_def]
    dsimp only
    rw [if_pos (by omega), hjoin]
  split
  · -- two bytes
    rename_i h1 h2
    have ha := toNat_byte (n := 0xC0 + c.val / 64) (by omega)
    have hlow : c.val % 64 < 64 := Nat.mod_lt _ (by decide)
    have hjoin : [UInt8.ofNat (0x80 + c.val % 64)].foldl (fun n b => n * 64 + b.toNat % 64)
        ((UInt8.ofNat (0xC0 + c.val / 64)).toNat % 32) = c.val := by
      simp only [List.foldl_cons, List.foldl_nil, bits_byte hlow, ha]
      omega
    have hshort := @isShortest_eq _ 0x80 _ _ hjoin
      (by simp only [List.all_cons, List.all_nil, isTail_byte hlow, Bool.and_self]) (by omega) hc
    rw [List.cons_append, List.cons_append, List.nil_append, decode.eq_def]
    dsimp only
    rw [if_neg (by omega)]
    simp only [hshort, joined_eq hjoin, and_true]
    rw [if_pos (by omega)]
  split
  · -- three bytes
    rename_i h1 h2 h3
    have ha := toNat_byte (n := 0xE0 + c.val / 4096) (by omega)
    have hlow : c.val % 64 < 64 := Nat.mod_lt _ (by decide)
    have hmid : c.val / 64 % 64 < 64 := Nat.mod_lt _ (by decide)
    have hjoin : [UInt8.ofNat (0x80 + c.val / 64 % 64), UInt8.ofNat (0x80 + c.val % 64)].foldl
        (fun n b => n * 64 + b.toNat % 64)
        ((UInt8.ofNat (0xE0 + c.val / 4096)).toNat % 16) = c.val := by
      simp only [List.foldl_cons, List.foldl_nil, bits_byte hlow, bits_byte hmid, ha]
      omega
    have hshort := @isShortest_eq _ 0x800 _ _ hjoin
      (by simp only [List.all_cons, List.all_nil, isTail_byte hlow, isTail_byte hmid,
        Bool.and_self]) (by omega) hc
    rw [List.cons_append, List.cons_append, List.cons_append, List.nil_append, decode.eq_def]
    dsimp only
    rw [if_neg (by omega)]
    simp only [hshort, joined_eq hjoin, and_true]
    rw [if_neg (by omega), if_pos (by omega)]
  · -- four bytes
    rename_i h1 h2 h3
    have ha := toNat_byte (n := 0xF0 + c.val / 262144) (by omega)
    have hlow : c.val % 64 < 64 := Nat.mod_lt _ (by decide)
    have hmid : c.val / 64 % 64 < 64 := Nat.mod_lt _ (by decide)
    have hhigh : c.val / 64 ^ 2 % 64 < 64 := Nat.mod_lt _ (by decide)
    have hjoin : [UInt8.ofNat (0x80 + c.val / 64 ^ 2 % 64), UInt8.ofNat (0x80 + c.val / 64 % 64),
        UInt8.ofNat (0x80 + c.val % 64)].foldl (fun n b => n * 64 + b.toNat % 64)
        ((UInt8.ofNat (0xF0 + c.val / 262144)).toNat % 8) = c.val := by
      simp only [List.foldl_cons, List.foldl_nil, bits_byte hlow, bits_byte hmid, bits_byte hhigh,
        ha]
      omega
    have hshort := @isShortest_eq _ 0x10000 _ _ hjoin
      (by simp only [List.all_cons, List.all_nil, isTail_byte hlow, isTail_byte hmid,
        isTail_byte hhigh, Bool.and_self]) (by omega) hc
    rw [List.cons_append, List.cons_append, List.cons_append, List.cons_append, List.nil_append,
      decode.eq_def]
    dsimp only
    rw [if_neg (by omega)]
    simp only [hshort, joined_eq hjoin, and_true]
    rw [if_neg (by omega), if_neg (by omega), if_pos (by omega)]

/-- A text in front of more bytes is read back, by induction on the text. -/
theorem decode_encoded_append (h : Scalar t) :
    decode (encoded t ++ rest) = (decode rest).map (t ++ ·) := by
  induction t with
  | nil => simp [encoded]
  | cons c t ih =>
    have hc : isSurrogate c = false := h c List.mem_cons_self
    have ht : Scalar t := fun d hd => h d (List.mem_cons_of_mem c hd)
    have hsplit : encoded (c :: t) ++ rest = utf8 c ++ (encoded t ++ rest) := by
      rw [encoded, List.flatMap_cons, List.append_assoc]
      rfl
    rw [hsplit, decode_utf8 hc, ih ht, Option.map_map]
    rfl

/-- **Decoding undoes encoding.** -/
theorem decode_encoded (h : Scalar t) : decode (encoded t) = some t := by
  have happend := @decode_encoded_append _ [] h
  simpa [decode] using happend

theorem encoded_inj (hs : Scalar s) (ht : Scalar t) (h : encoded s = encoded t) : s = t := by
  have hdecode := decode_encoded hs
  rw [h, decode_encoded ht] at hdecode
  exact (Option.some.inj hdecode).symm

theorem encode_inj {raw : List UInt8} (hs : encode s = some raw) (ht : encode t = some raw) :
    s = t := by
  obtain ⟨hscalar, rfl⟩ := encode_eq_some.mp hs
  obtain ⟨htscalar, heq⟩ := encode_eq_some.mp ht
  exact encoded_inj hscalar htscalar heq.symm

/-! ## Pieces -/

/-- `raw[start:end]` for bounds that are not negative. -/
def slice {α : Type} (raw : List α) (start stop : Nat) : List α := (raw.take stop).drop start

/-- The middle piece of three, by the lengths around it. -/
theorem slice_append {α : Type} {a b d : List α} :
    slice (a ++ b ++ d) a.length (a.length + b.length) = b := by
  rw [slice, ← List.length_append, List.take_left, List.drop_left]

/-- **A piece of a text is a piece of its bytes**, between the encoded lengths. -/
theorem slice_encoded {a b d : PyStr} :
    slice (encoded (a ++ b ++ d)) (encoded a).length ((encoded a).length + (encoded b).length) =
      encoded b := by
  rw [encoded_append, encoded_append]
  exact slice_append

end ControlPlane.PyStr
