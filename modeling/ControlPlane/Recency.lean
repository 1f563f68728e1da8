/-
  ENTRIES IN THE ORDER OF THEIR USE: what an eviction from the front says.

  A list of keyed entries has the least recently used one in front.  Using a key puts its entry at the
  end (`bump`), and a list that is too long loses what stands in front (`evict`).

  Fix a key and the keys that were used since it was: only these stand BEHIND it.  Using one of them,
  or dropping another entry, keeps that (`behind_bump`, `behind_pop`); and when the key is evicted, as
  many of them stand behind it as the list may hold (`behind_evict`).
-/
import Mathlib.Data.List.Nodup

namespace ControlPlane.Recency

variable {κ α : Type} [DecidableEq κ]

/-- The entries without a key. -/
def pop (entries : List (κ × α)) (k : κ) : List (κ × α) := entries.filter fun e => e.1 ≠ k

/-- The entry of a key at the end. -/
def bump (entries : List (κ × α)) (k : κ) (a : α) : List (κ × α) := pop entries k ++ [(k, a)]

/-- The last `n` entries. -/
def evict (n : Nat) (entries : List (κ × α)) : List (κ × α) := entries.drop (entries.length - n)

/-- The key has an entry, and only recent keys stand behind it. -/
def Behind (recent : κ → Prop) (k : κ) (entries : List (κ × α)) : Prop :=
  ∃ front a back, entries = front ++ (k, a) :: back ∧ ∀ b ∈ back, recent b.1

/-- So many other keys are recent. -/
def Crowded (n : Nat) (recent : κ → Prop) (k : κ) : Prop :=
  ∃ keys : List κ, keys.Nodup ∧ n ≤ keys.length ∧ ∀ k' ∈ keys, k' ≠ k ∧ recent k'

variable {entries : List (κ × α)} {k k' : κ} {a : α} {n : Nat} {recent recent' : κ → Prop}

/-! ## Keys -/

theorem keys_pop : (pop entries k).map Prod.fst = (entries.map Prod.fst).filter fun k' => k' ≠ k := by
  rw [pop, List.filter_map]
  rfl

theorem nodup_pop (h : (entries.map Prod.fst).Nodup) : ((pop entries k).map Prod.fst).Nodup :=
  h.sublist (List.filter_sublist.map _)

theorem nodup_bump (h : (entries.map Prod.fst).Nodup) : ((bump entries k a).map Prod.fst).Nodup := by
  rw [bump, List.map_append, List.map_singleton]
  refine List.nodup_append_comm.mp (List.nodup_cons.mpr ⟨fun hk => ?_, nodup_pop h⟩)
  have hk : k ∈ (pop entries k).map Prod.fst := hk
  rw [keys_pop, List.mem_filter] at hk
  exact of_decide_eq_true hk.2 rfl

omit [DecidableEq κ] in
theorem nodup_evict (h : (entries.map Prod.fst).Nodup) : ((evict n entries).map Prod.fst).Nodup :=
  h.sublist ((List.drop_sublist _ _).map _)

theorem mem_bump {e : κ × α} : e ∈ bump entries k a ↔ (e ∈ entries ∧ e.1 ≠ k) ∨ e = (k, a) := by
  rw [bump, List.mem_append, pop, List.mem_filter, List.mem_singleton, decide_eq_true_eq]

omit [DecidableEq κ] in
theorem length_evict : (evict n entries).length ≤ n := by
  rw [evict, List.length_drop]
  omega

/-- Where a key is bumped, no more entries than before, or one more. -/
theorem length_bump_of_mem (h : (k, a) ∈ entries) : (bump entries k a).length ≤ entries.length := by
  have hlt : (pop entries k).length < entries.length :=
    List.length_filter_lt_length_iff_exists.mpr ⟨(k, a), h, by simp⟩
  rw [bump, List.length_append, List.length_singleton]
  exact hlt

/-! ## What stands behind a key -/

omit [DecidableEq κ] in
theorem Behind.mem (h : Behind recent k entries) : k ∈ entries.map Prod.fst := by
  obtain ⟨front, a, back, rfl, -⟩ := h
  exact List.mem_map.mpr ⟨(k, a), List.mem_append_right _ List.mem_cons_self, rfl⟩

omit [DecidableEq κ] in
theorem Behind.mono (h : Behind recent k entries) (hrecent : ∀ k', recent k' → recent' k') :
    Behind recent' k entries := by
  obtain ⟨front, a, back, heq, hback⟩ := h
  exact ⟨front, a, back, heq, fun b hb => hrecent _ (hback b hb)⟩

omit [DecidableEq κ] in
theorem Crowded.mono (h : Crowded n recent k) (hrecent : ∀ k', recent k' → recent' k') :
    Crowded n recent' k := by
  obtain ⟨keys, hnodup, hlength, hkeys⟩ := h
  exact ⟨keys, hnodup, hlength, fun k' hk' => ⟨(hkeys k' hk').1, hrecent _ (hkeys k' hk').2⟩⟩

/-- Nothing stands behind the key that was used last. -/
theorem behind_bump_self : Behind recent k (bump entries k a) :=
  ⟨pop entries k, a, [], rfl, fun _ hb => absurd hb List.not_mem_nil⟩

theorem behind_pop (h : Behind recent k entries) (hne : k' ≠ k) : Behind recent k (pop entries k') := by
  obtain ⟨front, a, back, rfl, hback⟩ := h
  refine ⟨pop front k', a, pop back k', ?_, fun b hb => hback b (List.mem_of_mem_filter hb)⟩
  rw [pop, List.filter_append, List.filter_cons_of_pos (by simpa using hne.symm)]
  rfl

theorem behind_bump (h : Behind recent k entries) (hne : k' ≠ k) (hrecent : recent k') :
    Behind recent k (bump entries k' a) := by
  obtain ⟨front, b, back, heq, hback⟩ := behind_pop h hne
  refine ⟨front, b, back ++ [(k', a)], by rw [bump, heq, List.append_assoc, List.cons_append], ?_⟩
  intro e he
  rcases List.mem_append.mp he with he | he
  · exact hback e he
  · exact List.mem_singleton.mp he ▸ hrecent

omit [DecidableEq κ] in
/-- A key is evicted only from in front of as many recent keys as there may be entries. -/
theorem behind_evict (hkeys : (entries.map Prod.fst).Nodup) (h : Behind recent k entries) :
    Behind recent k (evict n entries) ∨ Crowded n recent k := by
  obtain ⟨front, a, back, rfl, hback⟩ := h
  by_cases hkept : (front ++ (k, a) :: back).length - n ≤ front.length
  · refine Or.inl ⟨front.drop ((front ++ (k, a) :: back).length - n), a, back, ?_, hback⟩
    rw [evict, List.drop_append_of_le_length hkept]
  · refine Or.inr ⟨back.map Prod.fst, ?_, ?_, fun k' hk' => ?_⟩
    · rw [List.map_append, List.map_cons] at hkeys
      exact (List.nodup_cons.mp (List.nodup_append.mp hkeys).2.1).2
    · rw [List.length_append, List.length_cons] at hkept
      rw [List.length_map]
      omega
    · obtain ⟨b, hb, rfl⟩ := List.mem_map.mp hk'
      rw [List.map_append, List.map_cons] at hkeys
      have hne : k ∉ back.map Prod.fst := (List.nodup_cons.mp (List.nodup_append.mp hkeys).2.1).1
      exact ⟨fun heq => hne (heq ▸ hk'), hback b hb⟩

end ControlPlane.Recency
