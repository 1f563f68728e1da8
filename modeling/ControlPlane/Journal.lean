/-
  JOURNALS: what a keyed store has carried out, the newest entry in front.

  An entry puts a value under a key, or takes away what is there.  `get` reads off what the store holds,
  and what it held before is still to be seen.

  1. A journal that goes on grows in front, so what was put stays put; what every entry keeps holds of
     it (`Fits`, `Keeps`).
  2. What is there was put, as it is (`mem_of_get`).
  3. A key that was put and is never taken away has something (`exists_get`).
-/
import Mathlib.Data.List.Basic

namespace ControlPlane.Journal

variable {κ β : Type}

/-- An entry `(key, some value)` puts, an entry `(key, none)` takes away. -/
abbrev Entries (κ β : Type) : Type := List (κ × Option β)

/-- Every value that was put is as `fits` says. -/
def Fits (fits : κ → β → Prop) (journal : Entries κ β) : Prop :=
  ∀ key value, (key, some value) ∈ journal → fits key value

/-- Nothing was ever taken away from such a key. -/
def Keeps (kept : κ → Prop) (journal : Entries κ β) : Prop := ∀ key, kept key → (key, none) ∉ journal

variable {journal : Entries κ β} {key : κ} {value : β} {fits : κ → β → Prop} {kept : κ → Prop}

/-! ## One more entry -/

theorem Fits.nil : Fits fits [] := fun _ _ h => absurd h List.not_mem_nil

theorem Fits.put (h : Fits fits journal) (hnew : fits key value) :
    Fits fits ((key, some value) :: journal) := by
  intro key' value' hmem
  rcases List.mem_cons.mp hmem with heq | hmem
  · obtain ⟨rfl, hvalue⟩ := Prod.mk.inj heq
    obtain rfl := Option.some.inj hvalue
    exact hnew
  · exact h key' value' hmem

theorem Fits.drop (h : Fits fits journal) : Fits fits ((key, none) :: journal) := by
  intro key' value' hmem
  rcases List.mem_cons.mp hmem with heq | hmem
  · cases heq
  · exact h key' value' hmem

theorem Keeps.nil : Keeps kept ([] : Entries κ β) := fun _ _ => List.not_mem_nil

theorem Keeps.put (h : Keeps kept journal) : Keeps kept ((key, some value) :: journal) := by
  intro key' hkept hmem
  rcases List.mem_cons.mp hmem with heq | hmem
  · cases heq
  · exact h key' hkept hmem

theorem Keeps.drop (h : Keeps kept journal) (hfree : ¬ kept key) :
    Keeps kept ((key, none) :: journal) := by
  intro key' hkept hmem
  rcases List.mem_cons.mp hmem with heq | hmem
  · obtain ⟨rfl, -⟩ := Prod.mk.inj heq
    exact hfree hkept
  · exact h key' hkept hmem

/-! ## What is there -/

section Get

variable [DecidableEq κ]

/-- What is there under a key. -/
def get (journal : Entries κ β) (key : κ) : Option β := (journal.lookup key).join

theorem get_put : get ((key, some value) :: journal) key = some value := by
  rw [get, List.lookup_cons_self, Option.join_some]

theorem mem_of_get (h : get journal key = some value) : (key, some value) ∈ journal := by
  unfold get at h
  induction journal with
  | nil => cases h
  | cons entry journal ih =>
    rw [List.lookup_cons] at h
    split at h
    · rename_i heq
      have hentry : entry = (key, some value) := Prod.ext (eq_of_beq heq).symm h
      exact hentry ▸ List.mem_cons_self
    · exact List.mem_cons_of_mem _ (ih h)

/-- **What was put and never taken away is there**, perhaps as something newer. -/
theorem exists_get (hput : (key, some value) ∈ journal) (hkept : (key, none) ∉ journal) :
    ∃ newer, get journal key = some newer := by
  unfold get
  induction journal with
  | nil => exact absurd hput List.not_mem_nil
  | cons entry journal ih =>
    rw [List.mem_cons, not_or] at hkept
    rw [List.lookup_cons]
    split
    · rename_i heq
      cases hentry : entry.2 with
      | none => exact absurd (Prod.ext (eq_of_beq heq) hentry.symm) hkept.1
      | some newer => exact ⟨newer, rfl⟩
    · rename_i hne
      rcases List.mem_cons.mp hput with rfl | hput
      · rw [beq_self_eq_true] at hne
        cases hne
      · exact ih hput hkept.2

/-- What is there fits. -/
theorem Fits.get (h : Fits fits journal) (hget : get journal key = some value) : fits key value :=
  h key value (mem_of_get hget)

end Get

end ControlPlane.Journal
