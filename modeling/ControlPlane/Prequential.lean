/-
  ONLINE LEARNING: a model learns from one example after the other, and is TESTED on each before.

  The error of such tests is called prequential.  It is an error on unseen examples: what an example
  is tested with was trained on those before it, and on no other (`tests_eq_mapIdx`).
-/
import Mathlib.Data.List.Basic

namespace ControlPlane.Prequential

/-- A model to start with, and what it becomes by an example. -/
structure Learner (σ χ υ : Type) where
  fresh : σ
  learn : σ → χ → υ → σ

namespace Learner

variable {σ χ υ : Type} (L : Learner σ χ υ)

def trainedFrom (model : σ) (examples : List (χ × υ)) : σ :=
  examples.foldl (fun model e => L.learn model e.1 e.2) model

/-- The model after these examples. -/
def trained (examples : List (χ × υ)) : σ := L.trainedFrom L.fresh examples

def testsFrom : σ → List (χ × υ) → List (σ × χ × υ)
  | _, [] => []
  | model, e :: examples => (model, e) :: testsFrom (L.learn model e.1 e.2) examples

/-- Each example with the model that it is tested with. -/
def tests (examples : List (χ × υ)) : List (σ × χ × υ) := L.testsFrom L.fresh examples

variable {L} {examples : List (χ × υ)} {e : χ × υ} {model : σ}

@[simp] theorem trained_nil : L.trained [] = L.fresh := rfl

@[simp] theorem tests_nil : L.tests [] = [] := rfl

theorem trained_append : L.trained (examples ++ [e]) = L.learn (L.trained examples) e.1 e.2 :=
  List.foldl_append

theorem testsFrom_append : L.testsFrom model (examples ++ [e]) =
    L.testsFrom model examples ++ [(L.trainedFrom model examples, e)] := by
  induction examples generalizing model with
  | nil => rfl
  | cons e' examples ih =>
    rw [List.cons_append, testsFrom, ih]
    rfl

/-- One more example is tested with what the others have made. -/
theorem tests_append : L.tests (examples ++ [e]) = L.tests examples ++ [(L.trained examples, e)] :=
  testsFrom_append

theorem tests_getElem? (i : Nat) :
    (L.tests examples)[i]? = (examples[i]?).map fun e => (L.trained (examples.take i), e) := by
  have hfrom : ∀ model (i : Nat), (L.testsFrom model examples)[i]? =
      (examples[i]?).map fun e => (L.trainedFrom model (examples.take i), e) := by
    induction examples with
    | nil => exact fun model i => rfl
    | cons e examples ih =>
      intro model i
      cases i with
      | zero => rfl
      | succ i => exact ih _ i
  exact hfrom _ i

/-- **No example is tested with a model that has seen it.** -/
theorem tests_eq_mapIdx :
    L.tests examples = examples.mapIdx fun i e => (L.trained (examples.take i), e) := by
  apply List.ext_getElem?
  intro i
  rw [tests_getElem?, List.getElem?_mapIdx]

end Learner

end ControlPlane.Prequential
