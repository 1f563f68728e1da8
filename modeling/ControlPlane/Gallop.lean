/-
  GALLOPING SEARCH: how far a test holds from the start, found by doubling and then halving.

  `gallop fits limit` looks for the largest count `n ≤ limit` with `fits n`.  It doubles a count that
  fits until one does not (or passes the limit), then halves the interval in between.  What it
  finds needs no assumption about `fits`: the count fits, or is 0, and the next count is past the
  limit or does not fit (`gallop_fits`, `gallop_next`).  When `fits` is downward closed that is the
  largest count that fits (`le_gallop`).
-/
import Mathlib.Order.Basic

namespace ControlPlane.Gallop

variable {fits : Nat → Bool} {limit low high : Nat}

/-! ## The two loops -/

/-- The doubling loop.  `hhigh` makes every turn of it a step forward. -/
def double (fits : Nat → Bool) (limit low high : Nat) (hhigh : 0 < high) : Nat × Nat :=
  if _h : high ≤ limit ∧ fits high = true then
    double fits limit high (high * 2) (Nat.mul_pos hhigh (by decide))
  else (low, high)
termination_by limit + 1 - high
decreasing_by omega

/-- The halving loop. -/
def halve (fits : Nat → Bool) (low high : Nat) : Nat :=
  if low + 1 < high then
    if fits ((low + high) / 2) then halve fits ((low + high) / 2) high
    else halve fits low ((low + high) / 2)
  else low
termination_by high - low
decreasing_by all_goals omega

/-- The number of counts from 1 on that fit, up to the limit. -/
def gallop (fits : Nat → Bool) (limit : Nat) : Nat :=
  let reached := double fits limit 0 1 Nat.one_pos
  halve fits reached.1 (min reached.2 (limit + 1))

/-! ## What the loops keep -/

/-- The count is one that a loop may settle on. -/
def Settled (fits : Nat → Bool) (count : Nat) : Prop := count = 0 ∨ fits count = true

/-- The count is one that ends the search. -/
def Ends (fits : Nat → Bool) (limit count : Nat) : Prop := limit < count ∨ fits count = false

/-- The invariant of the doubling loop, carried to its exit. -/
theorem double_spec (hhigh : 0 < high) (hlow : low ≤ limit) (hlt : low < high)
    (hsettled : Settled fits low) :
    (double fits limit low high hhigh).1 ≤ limit ∧
      (double fits limit low high hhigh).1 < (double fits limit low high hhigh).2 ∧
      Settled fits (double fits limit low high hhigh).1 ∧
      Ends fits limit (double fits limit low high hhigh).2 := by
  fun_induction double fits limit low high hhigh with
  | case1 low high hhigh h ih => exact ih h.1 (by omega) (Or.inr h.2)
  | case2 low high hhigh h =>
    refine ⟨hlow, hlt, hsettled, ?_⟩
    rcases Nat.lt_or_ge limit high with hpast | hwithin
    · exact Or.inl hpast
    · exact Or.inr (Bool.eq_false_iff.mpr fun hfits => h ⟨hwithin, hfits⟩)

/-- The invariant of the halving loop, carried to its exit. -/
theorem halve_spec (hlt : low < high) (hsettled : Settled fits low) (hends : Ends fits limit high) :
    low ≤ halve fits low high ∧ halve fits low high < high ∧
      Settled fits (halve fits low high) ∧ Ends fits limit (halve fits low high + 1) := by
  fun_induction halve fits low high with
  | case1 low high hgap hfits ih =>
    -- the middle fits: it becomes the lower bound
    obtain ⟨hle, hrest⟩ := ih (by omega) (Or.inr hfits) hends
    exact ⟨by omega, hrest⟩
  | case2 low high hgap hfits ih =>
    -- the middle does not fit: it ends the search
    obtain ⟨hle, hltm, hrest⟩ := ih (by omega) hsettled (Or.inr (Bool.eq_false_iff.mpr hfits))
    exact ⟨hle, by omega, hrest⟩
  | case3 low high hgap =>
    have hnext : high = low + 1 := by omega
    exact ⟨Nat.le_refl _, hlt, hsettled, hnext ▸ hends⟩

theorem gallop_spec (fits : Nat → Bool) (limit : Nat) :
    gallop fits limit ≤ limit ∧ Settled fits (gallop fits limit) ∧
      Ends fits limit (gallop fits limit + 1) := by
  have hstart : Settled fits 0 := Or.inl rfl
  obtain ⟨hlimit, hlt, hsettled, hends⟩ :=
    double_spec Nat.one_pos (Nat.zero_le limit) Nat.one_pos hstart
  have hends' : Ends fits limit (min (double fits limit 0 1 Nat.one_pos).2 (limit + 1)) := by
    rcases Nat.lt_or_ge limit (double fits limit 0 1 Nat.one_pos).2 with hpast | hwithin
    · rw [Nat.min_eq_right (by omega)]
      exact Or.inl (Nat.lt_succ_self limit)
    · rw [Nat.min_eq_left (by omega)]
      exact hends
  obtain ⟨-, hbelow, hrest⟩ := halve_spec (by omega) hsettled hends'
  exact ⟨by rw [gallop]; omega, hrest⟩

/-! ## What is found -/

theorem gallop_le (fits : Nat → Bool) (limit : Nat) : gallop fits limit ≤ limit :=
  (gallop_spec fits limit).1

/-- The count that was found fits. -/
theorem gallop_fits (h : gallop fits limit ≠ 0) : fits (gallop fits limit) = true :=
  (gallop_spec fits limit).2.1.resolve_left h

/-- The next one does not, unless it is past the limit. -/
theorem gallop_next (h : gallop fits limit < limit) : fits (gallop fits limit + 1) = false :=
  (gallop_spec fits limit).2.2.resolve_left (by omega)

/-- Nothing is found exactly when not even one fits, whatever fits beyond. -/
theorem gallop_eq_zero_iff (hlimit : 0 < limit) : gallop fits limit = 0 ↔ fits 1 = false := by
  constructor
  · intro hzero
    have hnext : fits (gallop fits limit + 1) = false := gallop_next (by omega)
    rwa [hzero] at hnext
  · intro hone
    have hexit : double fits limit 0 1 Nat.one_pos = (0, 1) := by
      rw [double, dif_neg (by simp [hone])]
    rw [gallop, hexit, halve, if_neg (by omega)]

/-- Of a downward closed test the largest count is found. -/
theorem le_gallop (hclosed : ∀ m n, m ≤ n → fits n = true → fits m = true) {n : Nat}
    (hn : n ≤ limit) (hfits : fits n = true) : n ≤ gallop fits limit := by
  by_contra hlt
  have hnext : fits (gallop fits limit + 1) = false := gallop_next (by omega)
  rw [hclosed _ n (by omega) hfits] at hnext
  cases hnext

end ControlPlane.Gallop
