/-
  RECTANGLES IN READING ORDER.

  Rectangles are placed on a grid row by row, and in a row each one goes to the FIRST FREE column: the
  first that nothing placed before it covers.

  1. What is placed later starts no higher, so two rectangles that overlap do so in the first row of the
     later one (`overlap_first_row`).
  2. In its own row nothing is run into (`Placed.beside`): a free column has everything that the row
     already holds to its left.  What is left to run into hangs down from above (`Placed.overlap_iff`).
-/
import Mathlib.Data.List.Basic
import Mathlib.Algebra.Order.Ring.Int

namespace ControlPlane

/-- The slots of `rows` rows and `cols` columns, from `row` and `col` on. -/
structure Rect where
  row : Int
  col : Int
  rows : Int
  cols : Int
  deriving DecidableEq, Repr

namespace Rect

def Covers (a : Rect) (s : Int × Int) : Prop :=
  a.row ≤ s.1 ∧ s.1 < a.row + a.rows ∧ a.col ≤ s.2 ∧ s.2 < a.col + a.cols

/-- At least one row and one column. -/
def Sized (a : Rect) : Prop := 1 ≤ a.rows ∧ 1 ≤ a.cols

def Overlap (a b : Rect) : Prop := ∃ s, a.Covers s ∧ b.Covers s

/-- The first column of a row that none of the rectangles covers. -/
structure FirstFree (before : List Rect) (row col : Int) : Prop where
  nonneg : 0 ≤ col
  free : ∀ a ∈ before, ¬ a.Covers (row, col)
  first : ∀ c, 0 ≤ c → c < col → ∃ a ∈ before, a.Covers (row, c)

/-- In reading order, each in the first free column. -/
def Placed (rects : List Rect) : Prop :=
  ∀ before b after, rects = before ++ b :: after →
    (∀ a ∈ before, a.row ≤ b.row) ∧ FirstFree before b.row b.col

/-- In its first row, the rectangle runs into one that hangs down from above. -/
def RunsInto (before : List Rect) (b : Rect) : Prop :=
  ∃ a ∈ before, a.row < b.row ∧ ∃ c, b.Covers (b.row, c) ∧ a.Covers (b.row, c)

variable {a b : Rect} {rects before after : List Rect}

theorem Sized.corner (h : a.Sized) : a.Covers (a.row, a.col) := by
  obtain ⟨hrows, hcols⟩ := h
  simp only [Covers]
  omega

theorem overlap_first_row (hrow : a.row ≤ b.row) (h : Overlap a b) :
    ∃ c, b.Covers (b.row, c) ∧ a.Covers (b.row, c) := by
  obtain ⟨s, ha, hb⟩ := h
  simp only [Covers] at *
  exact ⟨s.2, by omega, by omega⟩

theorem FirstFree.mono {more : List Rect} {row col : Int} (h : FirstFree before row col)
    (hfree : ∀ a ∈ more, ¬ a.Covers (row, col)) : FirstFree (before ++ more) row col where
  nonneg := h.nonneg
  free a ha := (List.mem_append.mp ha).elim (h.free a) (hfree a)
  first c hc hlt := by
    obtain ⟨a, ha, hcovers⟩ := h.first c hc hlt
    exact ⟨a, List.mem_append_left _ ha, hcovers⟩

theorem placed_nil : Placed [] := fun _ _ _ h => absurd h (by simp)

theorem Placed.snoc (h : Placed rects) (hrow : ∀ a ∈ rects, a.row ≤ b.row)
    (hfree : FirstFree rects b.row b.col) : Placed (rects ++ [b]) := by
  intro before b' after hsplit
  rcases List.eq_nil_or_concat after with rfl | ⟨after', last, rfl⟩
  · obtain ⟨rfl, hlast⟩ := List.append_inj' hsplit rfl
    obtain rfl := List.singleton_inj.mp hlast
    exact ⟨hrow, hfree⟩
  · rw [List.concat_eq_append, ← List.cons_append, ← List.append_assoc] at hsplit
    exact h before b' after' (List.append_inj' hsplit rfl).1

/-- What the row already holds, lies to the left. -/
theorem Placed.beside (h : Placed rects) (hsplit : rects = before ++ b :: after) (ha : a ∈ before)
    (hrow : a.row = b.row) (hsized : a.Sized) : a.col + a.cols ≤ b.col := by
  obtain ⟨-, hfree⟩ := h before b after hsplit
  obtain ⟨early, late, rfl⟩ := List.append_of_mem ha
  have hsplit' : rects = early ++ a :: (late ++ b :: after) := by rw [hsplit]; simp
  obtain ⟨-, hfree'⟩ := h early a _ hsplit'
  have hle : a.col ≤ b.col := by
    by_contra hlt
    obtain ⟨a', ha', hcovers⟩ := hfree'.first b.col hfree.nonneg (Int.not_le.mp hlt)
    exact hfree.free a' (List.mem_append_left _ ha') (hrow ▸ hcovers)
  have hnot := hfree.free a ha
  obtain ⟨hrows, hcols⟩ := hsized
  simp only [Covers] at hnot
  omega

/-- **A rectangle overlaps an earlier one exactly when it runs into one from above.** -/
theorem Placed.overlap_iff (h : Placed rects) (hsized : ∀ a ∈ rects, a.Sized)
    (hsplit : rects = before ++ b :: after) :
    (∃ a ∈ before, Overlap a b) ↔ RunsInto before b := by
  constructor
  · rintro ⟨a, ha, hoverlap⟩
    have hle := (h before b after hsplit).1 a ha
    obtain ⟨c, hb, hac⟩ := overlap_first_row hle hoverlap
    rcases Int.lt_or_eq_of_le hle with hlt | heq
    · exact ⟨a, ha, hlt, c, hb, hac⟩
    · have hmem : a ∈ rects := hsplit ▸ List.mem_append_left _ ha
      have hbeside := h.beside hsplit ha heq (hsized a hmem)
      simp only [Covers] at hb hac
      omega
  · rintro ⟨a, ha, -, c, hb, hac⟩
    exact ⟨a, ha, (b.row, c), hac, hb⟩

/-- What holds between each item and those behind it, read off the places where the list can be cut. -/
theorem pairwise_of_cuts {α : Type} {R : α → α → Prop} {l : List α}
    (h : ∀ before b after, l = before ++ b :: after → ∀ a ∈ before, R a b) : l.Pairwise R := by
  induction l with
  | nil => exact List.Pairwise.nil
  | cons x l ih =>
    refine List.pairwise_cons.mpr ⟨fun y hy => ?_, ih fun before b after hcut a ha => ?_⟩
    · obtain ⟨before, after, rfl⟩ := List.append_of_mem hy
      exact h (x :: before) y after rfl x List.mem_cons_self
    · exact h (x :: before) b after (by rw [hcut]; rfl) a (List.mem_cons_of_mem _ ha)

end Rect

end ControlPlane
