/-
  PYTHON FLOATS with exact arithmetic: a float is a rational number, an infinity or NaN.

  Rounding and overflow are left out, everything else is as IEEE 754 has it: NaN compares false with
  everything, `inf - inf` and `0 * inf` are NaN, and division by zero raises (`none`).  On finite
  floats every operation is the one of the rationals, which is what the `@[simp]` lemmas say.
-/
import Mathlib.Algebra.Order.Ring.Rat
import Mathlib.Tactic.Linarith

namespace ControlPlane

inductive PyFloat where
  | finite (q : ℚ)
  | inf (negative : Bool)
  | nan
  deriving DecidableEq

namespace PyFloat

/-! ## Operations -/

/-- `math.isfinite`. -/
def isfinite : PyFloat → Bool
  | .finite _ => true
  | _ => false

/-- `a < b`. -/
def lt : PyFloat → PyFloat → Bool
  | .finite a, .finite b => decide (a < b)
  | .inf negative, .finite _ => negative
  | .finite _, .inf negative => !negative
  | .inf a, .inf b => a && !b
  | _, _ => false

/-- `a <= b`. -/
def le : PyFloat → PyFloat → Bool
  | .finite a, .finite b => decide (a ≤ b)
  | .inf negative, .finite _ => negative
  | .finite _, .inf negative => !negative
  | .inf a, .inf b => a || !b
  | _, _ => false

/-- `a == b`. -/
def eq : PyFloat → PyFloat → Bool
  | .finite a, .finite b => decide (a = b)
  | .inf a, .inf b => a == b
  | _, _ => false

def neg : PyFloat → PyFloat
  | .finite a => .finite (-a)
  | .inf negative => .inf !negative
  | .nan => .nan

def abs : PyFloat → PyFloat
  | .finite a => .finite |a|
  | .inf _ => .inf false
  | .nan => .nan

def add : PyFloat → PyFloat → PyFloat
  | .finite a, .finite b => .finite (a + b)
  | .inf negative, .finite _ | .finite _, .inf negative => .inf negative
  | .inf a, .inf b => if a = b then .inf a else .nan
  | _, _ => .nan

def sub (a b : PyFloat) : PyFloat := a.add b.neg

/-- An infinity times a rational. -/
def scaleInf (negative : Bool) (q : ℚ) : PyFloat :=
  if q = 0 then .nan else .inf (if q < 0 then !negative else negative)

def mul : PyFloat → PyFloat → PyFloat
  | .finite a, .finite b => .finite (a * b)
  | .inf negative, .finite q | .finite q, .inf negative => scaleInf negative q
  | .inf a, .inf b => .inf (a != b)
  | _, _ => .nan

/-- `a / b`; `none` is `ZeroDivisionError`. -/
def div : PyFloat → PyFloat → Option PyFloat
  | .finite a, .finite b => if b = 0 then none else some (.finite (a / b))
  | .inf negative, .finite b =>
      if b = 0 then none else some (.inf (if b < 0 then !negative else negative))
  | .finite _, .inf _ => some (.finite 0)
  | .nan, .finite b => if b = 0 then none else some .nan
  | _, _ => some .nan

/-- `math.isclose(a, b, rel_tol=rel, abs_tol=tol)`. -/
def isclose (a b : PyFloat) (rel tol : ℚ) : Bool :=
  if a.eq b then true
  else if !a.isfinite || !b.isfinite then false
  else
    let diff := (b.sub a).abs
    diff.le ((mul (.finite rel) b).abs) || diff.le ((mul (.finite rel) a).abs) ||
      diff.le (.finite tol)

instance (n : Nat) : OfNat PyFloat n := ⟨.finite n⟩

/-! ## Finite floats -/

theorem isfinite_iff {a : PyFloat} : a.isfinite = true ↔ ∃ q, a = .finite q := by
  cases a <;> simp [isfinite]

@[simp] theorem isfinite_finite (q : ℚ) : (finite q).isfinite = true := rfl
@[simp] theorem add_finite (a b : ℚ) : (finite a).add (.finite b) = .finite (a + b) := rfl
@[simp] theorem mul_finite (a b : ℚ) : (finite a).mul (.finite b) = .finite (a * b) := rfl
@[simp] theorem sub_finite (a b : ℚ) : (finite a).sub (.finite b) = .finite (a - b) := by
  rw [sub, neg, add_finite, sub_eq_add_neg]
@[simp] theorem le_finite (a b : ℚ) : (finite a).le (.finite b) = decide (a ≤ b) := rfl
@[simp] theorem lt_finite (a b : ℚ) : (finite a).lt (.finite b) = decide (a < b) := rfl
@[simp] theorem zero_eq : (0 : PyFloat) = .finite 0 := rfl
@[simp] theorem one_eq : (1 : PyFloat) = .finite 1 := by
  show finite ((1 : Nat) : ℚ) = _
  rw [Nat.cast_one]

theorem div_finite {a b : ℚ} (hb : b ≠ 0) :
    (finite a).div (.finite b) = some (.finite (a / b)) := if_neg hb

end PyFloat

end ControlPlane
