/-
  SUBSTITUTION: a text with words replaced by a marker, by the leftmost scan.

  The scan goes over the text once.  Where a word starts, the first such word of the list is replaced and
  the scan goes on behind it; any other character is kept.

  What is left has none of the words in it, whatever they are and however they overlap, if the marker is
  FENCED: a word holds neither its first nor its last character, and is no part of it (`scan_avoids`).
  The two lemmas behind it: a prefix of what is left that does not reach a marker is a prefix of the text
  (`prefix_of_scan`), and a word across the end of a marker would hold its last character
  (`infix_append_of_fence`).
-/
import Mathlib.Data.List.Infix

namespace ControlPlane.Substitution

variable {α : Type} [DecidableEq α]

/-- The scan, with so many characters of the last word still to be passed. -/
def scan (words : List (List α)) (marker : List α) : Nat → List α → List α
  | _, [] => []
  | skip + 1, _ :: rest => scan words marker skip rest
  | 0, c :: rest =>
      match words.find? fun word => word.isPrefixOf (c :: rest) with
      | some word => marker ++ scan words marker (word.length - 1) rest
      | none => c :: scan words marker 0 rest

variable {words : List (List α)} {marker word text a b : List α} {first last c : α} {skip : Nat}

/-- A word that starts here is found. -/
theorem find_none (h : words.find? (fun word => word.isPrefixOf text) = none) (hword : word ∈ words) :
    ¬ word <+: text := by
  intro hprefix
  have hnot := List.find?_eq_none.mp h word hword
  exact hnot (List.isPrefixOf_iff_prefix.mpr hprefix)

omit [DecidableEq α] in
/-- **A word without the last character of the marker does not lie across its end.** -/
theorem infix_append_of_fence (hlast : last ∉ word) (h : word <:+: (a ++ [last]) ++ b) :
    word <:+: a ++ [last] ∨ word <:+: b := by
  rcases List.infix_append_iff.mp h with hleft | hright | ⟨x, y, rfl, hx, hy⟩
  · exact Or.inl hleft
  · exact Or.inr hright
  · rcases List.eq_nil_or_concat x with rfl | ⟨x', d, rfl⟩
    · exact Or.inr hy.isInfix
    · obtain ⟨front, hfront⟩ := hx
      rw [List.concat_eq_append, ← List.append_assoc] at hfront
      obtain ⟨-, hd⟩ := List.append_inj' hfront rfl
      obtain rfl := List.singleton_inj.mp hd
      refine absurd (List.mem_append_left y ?_) hlast
      rw [List.concat_eq_append]
      exact List.mem_append_right x' List.mem_cons_self

/-- **What starts before a marker is as it was**, by induction on the text. -/
theorem prefix_of_scan (hmarker : marker.head? = some first) (hfirst : first ∉ word)
    (h : word <+: scan words marker 0 text) : word <+: text := by
  induction text generalizing word with
  | nil => exact h
  | cons c rest ih =>
    rw [scan] at h
    split at h
    · obtain ⟨tail, rfl⟩ : ∃ tail, marker = first :: tail := by
        cases marker with
        | nil => cases hmarker
        | cons d tail => exact ⟨tail, by rw [Option.some.inj hmarker]⟩
      cases word with
      | nil => exact List.nil_prefix
      | cons d word' =>
        obtain ⟨hhead, -⟩ := List.cons_prefix_cons.mp h
        exact absurd (hhead ▸ List.mem_cons_self) hfirst
    · cases word with
      | nil => exact List.nil_prefix
      | cons d word' =>
        obtain ⟨rfl, hrest⟩ := List.cons_prefix_cons.mp h
        exact List.cons_prefix_cons.mpr ⟨rfl, ih (fun hmem => hfirst (List.mem_cons_of_mem _ hmem)) hrest⟩

/-- **NO WORD IS LEFT**, by induction on the text: where a word would start, the scan has found one. -/
theorem scan_avoids (hword : word ∈ words) (hhead : marker.head? = some first)
    (hend : marker.getLast? = some last) (hfirst : first ∉ word) (hlast : last ∉ word)
    (hapart : ¬ word <:+: marker) : ¬ word <:+: scan words marker skip text := by
  have hne : word ≠ [] := fun hnil => hapart (hnil ▸ List.nil_infix)
  obtain ⟨front, rfl⟩ := List.getLast?_eq_some_iff.mp hend
  induction text generalizing skip with
  | nil =>
    rw [scan]
    exact fun h => hne (List.infix_nil.mp h)
  | cons c rest ih =>
    cases skip with
    | succ skip =>
      rw [scan]
      exact ih
    | zero =>
      rw [scan]
      split
      · intro h
        rcases infix_append_of_fence hlast h with hmarker | hrest
        · exact hapart hmarker
        · exact ih hrest
      · rename_i hnone
        intro h
        rcases List.infix_cons_iff.mp h with hprefix | hrest
        · have hscan : word <+: scan words (front ++ [last]) 0 (c :: rest) := by
            rw [scan, hnone]
            exact hprefix
          exact find_none hnone hword (prefix_of_scan hhead hfirst hscan)
        · exact ih hrest

/-- What is kept of the text is of the text, and the rest is of the marker. -/
theorem mem_scan (h : c ∈ scan words marker skip text) : c ∈ marker ∨ c ∈ text := by
  induction text generalizing skip with
  | nil => exact absurd h List.not_mem_nil
  | cons d rest ih =>
    cases skip with
    | succ skip => exact (ih h).imp_right (List.mem_cons_of_mem d)
    | zero =>
      rw [scan] at h
      split at h
      · rcases List.mem_append.mp h with h | h
        · exact Or.inl h
        · exact (ih h).imp_right (List.mem_cons_of_mem d)
      · rcases List.mem_cons.mp h with rfl | h
        · exact Or.inr List.mem_cons_self
        · exact (ih h).imp_right (List.mem_cons_of_mem d)

end ControlPlane.Substitution
