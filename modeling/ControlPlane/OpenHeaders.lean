/-
  OPEN HEADERS: the outline of a flat list of headings.

  Headings come one after the other, each with a LEVEL.  A heading is closed by a later one of an equal
  or smaller level; `opened` are those that are not.  Their levels increase (`opened_increasing`), so the
  last ones are exactly what a stack gives up when the next heading arrives (`pop_opened`), and a stack
  that pops and pushes holds the open headings, the last one on top (`push_opened`).
-/
import Mathlib.Algebra.Order.Ring.Int
import Mathlib.Data.List.Pairwise

namespace ControlPlane.OpenHeaders

variable {α β : Type}

/-- The headings that no later one closes, nor any of the levels behind them all. -/
def opened (closing : List Int) : List (Int × α) → List (Int × α)
  | [] => []
  | h :: later =>
      if ∀ l ∈ later.map Prod.fst ++ closing, h.1 < l then h :: opened closing later
      else opened closing later

variable {closing : List Int} {headers stack : List (Int × α)} {h : Int × α} {l : Int}

theorem mem_opened (hmem : h ∈ opened closing headers) : h ∈ headers ∧ ∀ l ∈ closing, h.1 < l := by
  induction headers with
  | nil => cases hmem
  | cons k later ih =>
    rw [opened] at hmem
    split at hmem
    · rename_i hopen
      rcases List.mem_cons.mp hmem with rfl | hmem
      · exact ⟨List.mem_cons_self, fun l hl => hopen l (List.mem_append_right _ hl)⟩
      · exact ⟨List.mem_cons_of_mem _ (ih hmem).1, (ih hmem).2⟩
    · exact ⟨List.mem_cons_of_mem _ (ih hmem).1, (ih hmem).2⟩

theorem opened_increasing : (opened closing headers).Pairwise fun a b => a.1 < b.1 := by
  induction headers with
  | nil => exact List.Pairwise.nil
  | cons k later ih =>
    rw [opened]
    split
    · rename_i hopen
      refine List.pairwise_cons.mpr ⟨fun b hb => ?_, ih⟩
      exact hopen b.1 (List.mem_append_left _ (List.mem_map_of_mem (mem_opened hb).1))
    · exact ih

/-- One more level closes what is not smaller. -/
theorem opened_closing :
    opened (l :: closing) headers = (opened closing headers).filter fun h => h.1 < l := by
  induction headers with
  | nil => rfl
  | cons k later ih =>
    have hsplit : (∀ m ∈ later.map Prod.fst ++ l :: closing, k.1 < m) ↔
        (∀ m ∈ later.map Prod.fst ++ closing, k.1 < m) ∧ k.1 < l := by
      simp only [List.forall_mem_append, List.forall_mem_cons]
      tauto
    rw [opened, opened, ih]
    by_cases hopen : ∀ m ∈ later.map Prod.fst ++ closing, k.1 < m
    · by_cases hlt : k.1 < l
      · rw [if_pos (hsplit.mpr ⟨hopen, hlt⟩), if_pos hopen, List.filter_cons_of_pos (by simpa using hlt)]
      · rw [if_neg fun hall => hlt (hsplit.mp hall).2, if_pos hopen,
          List.filter_cons_of_neg (by simpa using hlt)]
    · rw [if_neg fun hall => hopen (hsplit.mp hall).1, if_neg hopen]

theorem opened_snoc : opened [] (headers ++ [h]) = opened [h.1] headers ++ [h] := by
  induction headers with
  | nil => simp [opened]
  | cons k later ih =>
    rw [List.cons_append, opened, opened, ih]
    have hsame : (∀ m ∈ (later ++ [h]).map Prod.fst ++ [], k.1 < m) ↔
        ∀ m ∈ later.map Prod.fst ++ [h.1], k.1 < m := by
      rw [List.append_nil, List.map_append, List.map_singleton]
    by_cases hopen : ∀ m ∈ later.map Prod.fst ++ [h.1], k.1 < m
    · rw [if_pos (hsame.mpr hopen), if_pos hopen, List.cons_append]
    · rw [if_neg fun hall => hopen (hsame.mp hall), if_neg hopen]

/-- Where levels decrease, what is popped is what is not smaller. -/
theorem dropWhile_decreasing (h : stack.Pairwise fun a b => b.1 < a.1) :
    stack.dropWhile (fun s => l ≤ s.1) = stack.filter fun s => s.1 < l := by
  induction stack with
  | nil => rfl
  | cons s stack ih =>
    obtain ⟨hbelow, hrest⟩ := List.pairwise_cons.mp h
    by_cases hle : l ≤ s.1
    · rw [List.dropWhile_cons_of_pos (by simpa using hle), ih hrest,
        List.filter_cons_of_neg (by simpa using hle)]
    · have hall : ∀ b ∈ s :: stack, decide (b.1 < l) = true := by
        rw [List.forall_mem_cons]
        refine ⟨decide_eq_true (by omega), fun b hb => decide_eq_true ?_⟩
        have := hbelow b hb
        omega
      rw [List.dropWhile_cons_of_neg (by simpa using hle), List.filter_eq_self.mpr hall]

/-- **Popping** leaves what the new level does not close. -/
theorem pop_opened : (opened [] headers).reverse.dropWhile (fun s => l ≤ s.1) =
    (opened [l] headers).reverse := by
  rw [dropWhile_decreasing (List.pairwise_reverse.mpr opened_increasing), List.filter_reverse,
    ← opened_closing]

/-- **Popping and pushing** leave the headings that are open. -/
theorem push_opened : h :: (opened [] headers).reverse.dropWhile (fun s => h.1 ≤ s.1) =
    (opened [] (headers ++ [h])).reverse := by
  rw [pop_opened, opened_snoc, List.reverse_append, List.reverse_singleton, List.singleton_append]

/-- Which headings are open is a matter of their levels. -/
theorem opened_map {f : α → β} : opened closing (headers.map fun h => (h.1, f h.2)) =
    (opened closing headers).map fun h => (h.1, f h.2) := by
  induction headers with
  | nil => rfl
  | cons k later ih =>
    have hlevels : (later.map fun h => (h.1, f h.2)).map Prod.fst = later.map Prod.fst := by
      rw [List.map_map]
      rfl
    rw [List.map_cons, opened, opened, ih, hlevels]
    split <;> rfl

end ControlPlane.OpenHeaders
