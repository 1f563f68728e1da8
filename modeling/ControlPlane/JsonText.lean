/-
  READING JSON STRINGS BACK: between quotes every character has an escape of its own.

  No escape begins another (`escape_read`), and none begins with a quote, so that a quoted string
  ends where it says (`quote_unique`).  UTF-8 is read back the same way (`encode_injective`).
-/
import ControlPlane.JsonLoads
import ControlPlane.Readable

namespace ControlPlane

namespace PyStr

/-! ## UTF-8 -/

theorem ofNat_inj {m n : Nat} (hm : m < 256) (hn : n < 256) (h : UInt8.ofNat m = UInt8.ofNat n) :
    m = n := by
  have hval := congrArg UInt8.toNat h
  rwa [UInt8.toNat_ofNat_of_lt' hm, UInt8.toNat_ofNat_of_lt' hn] at hval

/-- The four widths of an encoding. -/
theorem utf8_cases (c : CodePoint) :
    (c.val < 0x80 ∧ utf8 c = [UInt8.ofNat c.val]) ∨
      (0x80 ≤ c.val ∧ c.val < 0x800 ∧ utf8 c =
        [UInt8.ofNat (0xC0 + c.val / 64), UInt8.ofNat (0x80 + c.val % 64)]) ∨
      (0x800 ≤ c.val ∧ c.val < 0x10000 ∧ utf8 c = [UInt8.ofNat (0xE0 + c.val / 4096),
        UInt8.ofNat (0x80 + c.val / 64 % 64), UInt8.ofNat (0x80 + c.val % 64)]) ∨
      (0x10000 ≤ c.val ∧ utf8 c = [UInt8.ofNat (0xF0 + c.val / 262144),
        UInt8.ofNat (0x80 + c.val / 4096 % 64), UInt8.ofNat (0x80 + c.val / 64 % 64),
        UInt8.ofNat (0x80 + c.val % 64)]) := by
  unfold utf8
  by_cases h1 : c.val < 0x80
  · exact Or.inl ⟨h1, by simp [h1]⟩
  by_cases h2 : c.val < 0x800
  · exact Or.inr (Or.inl ⟨by omega, h2, by simp [h1, h2]⟩)
  by_cases h3 : c.val < 0x10000
  · exact Or.inr (Or.inr (Or.inl ⟨by omega, h3, by simp [h1, h2, h3]⟩))
  · exact Or.inr (Or.inr (Or.inr ⟨by omega, by simp [h1, h2, h3]⟩))

/-- No encoding of a code point begins another. -/
theorem utf8_read {c d : CodePoint} {r s : List UInt8} (h : utf8 c ++ r = utf8 d ++ s) :
    c = d ∧ r = s := by
  have hc := c.isLt
  have hd := d.isLt
  have hbyte : ∀ {m n : Nat} {u v : List UInt8}, UInt8.ofNat m :: u = UInt8.ofNat n :: v →
      m < 256 → n < 256 → m = n ∧ u = v := fun heq hm hn =>
    ⟨ofNat_inj hm hn (List.cons.inj heq).1, (List.cons.inj heq).2⟩
  -- the first byte tells the width, then byte after byte is the same
  rcases utf8_cases c with ⟨hlt, hcode⟩ | ⟨hle, hlt, hcode⟩ | ⟨hle, hlt, hcode⟩ | ⟨hle, hcode⟩ <;>
    rcases utf8_cases d with ⟨hlt', hcode'⟩ | ⟨hle', hlt', hcode'⟩ | ⟨hle', hlt', hcode'⟩ |
      ⟨hle', hcode'⟩ <;>
    rw [hcode, hcode'] at h <;> obtain ⟨hfirst, h⟩ := hbyte h (by omega) (by omega)
  · exact ⟨Fin.ext hfirst, h⟩
  all_goals try omega
  · obtain ⟨hlast, hrest⟩ := hbyte h (by omega) (by omega)
    exact ⟨Fin.ext (by omega), hrest⟩
  · obtain ⟨hmiddle, h⟩ := hbyte h (by omega) (by omega)
    obtain ⟨hlast, hrest⟩ := hbyte h (by omega) (by omega)
    exact ⟨Fin.ext (by omega), hrest⟩
  · obtain ⟨hsecond, h⟩ := hbyte h (by omega) (by omega)
    obtain ⟨hthird, h⟩ := hbyte h (by omega) (by omega)
    obtain ⟨hlast, hrest⟩ := hbyte h (by omega) (by omega)
    exact ⟨Fin.ext (by omega), hrest⟩

theorem encode_injective {a b : PyStr} {bytes : List UInt8} (ha : encode a = some bytes)
    (hb : encode b = some bytes) : a = b := by
  have hsome : ∀ text : PyStr, encode text = some bytes → text.flatMap utf8 = bytes := by
    intro text h
    unfold encode at h
    split at h
    · cases h
    · exact Option.some.inj h
  have hne : ∀ c, utf8 c ≠ [] := by
    intro c
    unfold utf8
    dsimp only
    repeat' split
    all_goals exact List.cons_ne_nil _ _
  exact Readable.flatMap_injective (fun c d r s _ _ => utf8_read) hne (fun _ _ => trivial)
    (fun _ _ => trivial) ((hsome a ha).trans (hsome b hb).symm)

end PyStr

namespace Json

open PyStr Readable

/-! ## Strings -/

/-- Hexadecimal digits tell their values apart. -/
theorem hexValue_hexDigit {n : Nat} (h : n < 16) : JsonReader.hexValue (hexDigit n) = some n := by
  have hall : ∀ k : Fin 16, JsonReader.hexValue (hexDigit k) = some k.val := by decide
  exact hall ⟨n, h⟩

/-- An escape is a backslash with a letter of its own, or `\u` with the number in four digits. -/
theorem escapeControl_cases {n : Nat} {text : PyStr} (h : escapeControl n = some text) :
    (∃ c, text = [0x5C, c] ∧ JsonReader.unescape c = some n ∧ c ≠ 0x75) ∨
      n < 0x20 ∧ text = hexEscape n := by
  unfold escapeControl at h
  iterate 7
    split at h
    · rename_i hn
      cases h
      subst hn
      exact Or.inl ⟨_, rfl, by decide, by decide⟩
  split at h
  · rename_i hlt
    cases h
    exact Or.inr ⟨hlt, rfl⟩
  · cases h

theorem hexEscape_eq (n : Nat) : hexEscape n = [0x5C, 0x75, hexDigit (n / 4096 % 16),
    hexDigit (n / 256 % 16), hexDigit (n / 16 % 16), hexDigit (n % 16)] := rfl

theorem hexDigit_inj {m n : Nat} (h : hexDigit (m % 16) = hexDigit (n % 16)) : m % 16 = n % 16 := by
  have hm := hexValue_hexDigit (Nat.mod_lt m (by decide : 0 < 16))
  rw [h, hexValue_hexDigit (Nat.mod_lt n (by decide))] at hm
  exact (Option.some.inj hm).symm

/-- An escape begins with a backslash and is read back. -/
theorem escapeControl_read {m n : Nat} {t u r s : PyStr} (ht : escapeControl m = some t)
    (hu : escapeControl n = some u) (h : t ++ r = u ++ s) : m = n ∧ r = s := by
  rcases escapeControl_cases ht with ⟨c, rfl, hc, hletter⟩ | ⟨hm, rfl⟩ <;>
    rcases escapeControl_cases hu with ⟨d, rfl, hd, hletter'⟩ | ⟨hn, rfl⟩
  · obtain ⟨-, htail⟩ := List.cons.inj h
    obtain ⟨rfl, hrest⟩ := List.cons.inj htail
    exact ⟨Option.some.inj (hc.symm.trans hd), hrest⟩
  · obtain ⟨-, htail⟩ := List.cons.inj h
    exact absurd (List.cons.inj htail).1 hletter
  · obtain ⟨-, htail⟩ := List.cons.inj h
    exact absurd (List.cons.inj htail).1.symm hletter'
  · simp only [hexEscape_eq, List.cons_append, List.nil_append, List.cons.injEq, true_and] at h
    obtain ⟨-, -, hsixteens, hones, hrest⟩ := h
    have hsixteens := hexDigit_inj hsixteens
    have hones := hexDigit_inj hones
    exact ⟨by omega, hrest⟩

theorem escapeControl_backslash {n : Nat} {text : PyStr} (h : escapeControl n = some text) :
    ∃ tail, text = 0x5C :: tail := by
  rcases escapeControl_cases h with ⟨c, rfl, -⟩ | ⟨-, rfl⟩
  · exact ⟨_, rfl⟩
  · exact ⟨_, hexEscape_eq n⟩

/-- A character without an escape is neither a quote nor a backslash. -/
theorem escapeControl_none_ne {c : CodePoint} (h : escapeControl c.val = none) :
    c ≠ 0x22 ∧ c ≠ 0x5C := by
  constructor <;> rintro rfl <;> exact absurd h (by decide)

theorem escape_none {c : CodePoint} (h : escapeControl c.val = none) : escape c = [c] := by
  rw [escape, h, Option.getD_none]

theorem escape_some {c : CodePoint} {text : PyStr} (h : escapeControl c.val = some text) :
    escape c = text := by
  rw [escape, h, Option.getD_some]

/-- No escape holds a NUL. -/
theorem nul_not_mem_escape (c : CodePoint) : 0x00 ∉ escape c := by
  cases h : escapeControl c.val with
  | none =>
    rw [escape_none h, List.mem_singleton]
    rintro rfl
    exact absurd h (by decide)
  | some text =>
    rw [escape_some h]
    rcases escapeControl_cases h with ⟨letter, rfl, hletter, -⟩ | ⟨-, rfl⟩
    · rw [List.mem_cons, List.mem_singleton, not_or]
      refine ⟨by decide, ?_⟩
      rintro rfl
      cases hletter
    · have hdigit : ∀ n, Json.hexDigit (n % 16) ≠ 0x00 := by
        intro n
        have hall : ∀ k : Fin 16, Json.hexDigit k ≠ 0x00 := by decide
        exact hall ⟨n % 16, Nat.mod_lt n (by decide)⟩
      simp only [hexEscape_eq, List.mem_cons, List.not_mem_nil, or_false, not_or]
      exact ⟨by decide, by decide, (hdigit _).symm, (hdigit _).symm, (hdigit _).symm,
        (hdigit _).symm⟩

theorem nul_not_mem_quote (text : PyStr) : 0x00 ∉ canonical.quote text := by
  show 0x00 ∉ [0x22] ++ text.flatMap escape ++ [0x22]
  simp only [List.mem_append, List.mem_flatMap, not_or, not_exists, not_and]
  exact ⟨⟨by decide, fun c _ => nul_not_mem_escape c⟩, by decide⟩

theorem escape_ne_quote (c : CodePoint) (r s : PyStr) : escape c ++ r ≠ 0x22 :: s := by
  cases h : escapeControl c.val with
  | none =>
    rw [escape_none h]
    exact fun heq => (escapeControl_none_ne h).1 (List.cons.inj heq).1
  | some text =>
    obtain ⟨tail, rfl⟩ := escapeControl_backslash h
    rw [escape_some h]
    exact fun heq => absurd (List.cons.inj heq).1 (by decide)

/-- No escape begins another. -/
theorem escape_read {c d : CodePoint} {r s : PyStr} (h : escape c ++ r = escape d ++ s) :
    c = d ∧ r = s := by
  cases hc : escapeControl c.val with
  | none =>
    rw [escape_none hc] at h
    cases hd : escapeControl d.val with
    | none =>
      rw [escape_none hd] at h
      exact List.cons.inj h
    | some text =>
      obtain ⟨tail, rfl⟩ := escapeControl_backslash hd
      rw [escape_some hd] at h
      exact absurd (List.cons.inj h).1 (escapeControl_none_ne hc).2
  | some text =>
    rw [escape_some hc] at h
    cases hd : escapeControl d.val with
    | none =>
      obtain ⟨tail, rfl⟩ := escapeControl_backslash hc
      rw [escape_none hd] at h
      exact absurd (List.cons.inj h).1.symm (escapeControl_none_ne hd).2
    | some text' =>
      rw [escape_some hd] at h
      obtain ⟨hval, hrest⟩ := escapeControl_read hc hd h
      exact ⟨Fin.ext hval, hrest⟩

/-- A quoted string ends at its closing quote, whatever is in it and behind it. -/
theorem quote_unique {a b r s : PyStr} (h : canonical.quote a ++ r = canonical.quote b ++ s) :
    a = b ∧ r = s := by
  have hbody : a.flatMap escape ++ 0x22 :: r = b.flatMap escape ++ 0x22 :: s := by
    simpa [Style.quote, canonical] using h
  exact flatMap_unique (fun c d r s _ _ => escape_read) (fun c r s _ => escape_ne_quote c r s)
    (fun _ _ => trivial) (fun _ _ => trivial) hbody

end Json

end ControlPlane
