/-
  ONE AT A TIME: the proof rule for a pool in which at most one process is AT WORK.

  Many tasks read a row, take it over, and then work as if it were theirs.  Nothing but the order of
  steps makes that sound, so the rule has the order as its condition `C`: a step that takes the work
  up happens only while nobody is at work.  What is left of the pool is then the store together with
  the one process at work, if any, and an invariant of THAT pair is all a proof needs:

  * `work`    the process at work takes a step, and goes on or stops,
  * `enter`   a process takes the work up while nobody has it,
  * `aside`   any other process takes a step beside whoever is at work,
  * `env`     the store moves by itself.

  The list of all processes is met once, in `atWork_set_*`.
-/
import ControlPlane.Interleave

namespace ControlPlane.Interleave

variable {δ π χ ω : Type}

/-! ## The processes at work in a pool -/

/-- `o` is the only process of `l` at work; `none` when there is no such process. -/
def AtWork (working : π → Bool) (l : List π) (o : Option π) : Prop :=
  l.filter working = o.toList

section AtWork

variable {working : π → Bool} {l : List π} {o : Option π} {i : Nat} {p q : π}

theorem AtWork.mem (h : AtWork working l (some p)) : p ∈ l := by
  have hp : p ∈ l.filter working := by rw [h]; exact List.mem_singleton.mpr rfl
  exact (List.mem_filter.mp hp).1

theorem AtWork.works (h : AtWork working l (some p)) : working p = true := by
  have hp : p ∈ l.filter working := by rw [h]; exact List.mem_singleton.mpr rfl
  exact (List.mem_filter.mp hp).2

/-- Whoever is at work is the one. -/
theorem AtWork.eq (h : AtWork working l o) (hp : p ∈ l) (hw : working p = true) : o = some p := by
  have hmem : p ∈ o.toList := by
    rw [← h]
    exact List.mem_filter.mpr ⟨hp, hw⟩
  exact Option.mem_toList.mp hmem

theorem AtWork.append_idle (h : AtWork working l o) (hp : working p = false) :
    AtWork working (l ++ [p]) o := by
  simpa [AtWork, hp] using h

/-- The pool around position `i`. -/
theorem filter_around (hi : l[i]? = some p) (f : π → Bool) :
    l.filter f = (l.take i).filter f ++ ((if f p then [p] else []) ++ (l.drop (i + 1)).filter f) := by
  have hlt : i < l.length := (List.getElem?_eq_some_iff.mp hi).1
  have hget : l[i] = p := (List.getElem?_eq_some_iff.mp hi).2
  have hl : l = l.take i ++ p :: l.drop (i + 1) := by
    rw [← hget, List.getElem_cons_drop, List.take_append_drop]
  have hfilter := congrArg (List.filter f) hl
  rw [List.filter_append, List.filter_cons] at hfilter
  rw [hfilter]
  split <;> rfl

theorem filter_set_around (hi : l[i]? = some p) (f : π → Bool) :
    (l.set i q).filter f =
      (l.take i).filter f ++ ((if f q then [q] else []) ++ (l.drop (i + 1)).filter f) := by
  have hlt : i < l.length := (List.getElem?_eq_some_iff.mp hi).1
  rw [List.set_eq_take_append_cons_drop, if_pos hlt, List.filter_append, List.filter_cons]
  split <;> rfl

/-- An idle process that stays idle changes nothing. -/
theorem atWork_set_aside (h : AtWork working l o) (hi : l[i]? = some p) (hp : working p = false)
    (hq : working q = false) : AtWork working (l.set i q) o := by
  have hl := filter_around hi working
  rw [h] at hl
  rw [AtWork, filter_set_around hi, hl]
  simp [hp, hq]

/-- The process at work goes on or stops. -/
theorem atWork_set_work (h : AtWork working l o) (hi : l[i]? = some p) (hp : working p = true) :
    AtWork working (l.set i q) (if working q = true then some q else none) := by
  obtain rfl : o = some p := h.eq (List.mem_of_getElem? hi) hp
  have hl := filter_around hi working
  rw [h, if_pos hp] at hl
  -- the other processes, before and after position `i`, are all idle
  have hlen : ((l.take i).filter working).length + ((l.drop (i + 1)).filter working).length = 0 := by
    have hlen := congrArg List.length hl
    simp only [Option.toList_some, List.length_append, List.length_singleton] at hlen
    omega
  have hbefore : (l.take i).filter working = [] := List.length_eq_zero_iff.mp (by omega)
  have hafter : (l.drop (i + 1)).filter working = [] := List.length_eq_zero_iff.mp (by omega)
  rw [AtWork, filter_set_around hi, hbefore, hafter]
  split <;> rfl

/-- A process takes the work up while nobody has it. -/
theorem atWork_set_enter (h : AtWork working l none) (hi : l[i]? = some p)
    (hq : working q = true) : AtWork working (l.set i q) (some q) := by
  have hp : working p = false := by
    cases hw : working p with
    | false => rfl
    | true => cases h.eq (List.mem_of_getElem? hi) hw
  have hl := filter_around hi working
  rw [h, hp] at hl
  have hempty := List.append_eq_nil_iff.mp hl.symm
  rw [AtWork, filter_set_around hi, hempty.1, if_pos hq, (List.append_eq_nil_iff.mp hempty.2).2]
  rfl

end AtWork

/-! ## The rule -/

/-- An invariant of the store and the one process at work, for steps that meet `C`. -/
structure Solo (P : Program δ π χ ω) (C : Config δ π → Event π χ ω → Prop) where
  working : π → Bool
  inv : δ → Option π → Prop
  start : ∀ {p}, P.start p = true → working p = false
  work : ∀ {s : Config δ π} {i c p d' p'}, AtWork working s.procs (some p) →
    inv s.store (some p) → C s (.act i c) → s.procs[i]? = some p →
    P.act s.store p c = some (d', p') → inv d' (if working p' = true then some p' else none)
  enter : ∀ {s : Config δ π} {i c p d' p' o}, AtWork working s.procs o → inv s.store o →
    C s (.act i c) → s.procs[i]? = some p → working p = false → working p' = true →
    P.act s.store p c = some (d', p') → o = none ∧ inv d' (some p')
  aside : ∀ {s : Config δ π} {i c p d' p' o}, AtWork working s.procs o → inv s.store o →
    C s (.act i c) → s.procs[i]? = some p → working p = false → working p' = false →
    P.act s.store p c = some (d', p') → inv d' o
  env : ∀ {d w d' o}, inv d o → P.env d w = some d' → inv d' o

namespace Solo

variable {P : Program δ π χ ω} {C : Config δ π → Event π χ ω → Prop} (S : Solo P C)

/-- At most one process is at work, and the invariant holds of the store and that process. -/
def Holds (s : Config δ π) : Prop := ∃ o, AtWork S.working s.procs o ∧ S.inv s.store o

theorem step {s s' : Config δ π} {e : Event π χ ω} (hs : S.Holds s) (hC : C s e)
    (h : P.step s e = some s') : S.Holds s' := by
  obtain ⟨o, hwork, hinv⟩ := hs
  cases e with
  | spawn p =>
    obtain ⟨hp, rfl⟩ := P.step_spawn h
    exact ⟨o, hwork.append_idle (S.start hp), hinv⟩
  | act i c =>
    obtain ⟨p, d', p', hi, hact, rfl⟩ := P.step_act h
    cases hp : S.working p with
    | true =>
      obtain rfl : o = some p := hwork.eq (List.mem_of_getElem? hi) hp
      exact ⟨_, atWork_set_work hwork hi hp, S.work hwork hinv hC hi hact⟩
    | false =>
      cases hp' : S.working p' with
      | true =>
        obtain ⟨rfl, hinv'⟩ := S.enter hwork hinv hC hi hp hp' hact
        exact ⟨some p', atWork_set_enter hwork hi hp', hinv'⟩
      | false =>
        exact ⟨o, atWork_set_aside hwork hi hp hp', S.aside hwork hinv hC hi hp hp' hact⟩
  | env w =>
    obtain ⟨d', henv, rfl⟩ := P.step_env h
    exact ⟨o, hwork, S.env hinv henv⟩

/-- **The rule.**  What holds at the start holds wherever steps that meet `C` lead. -/
theorem reach {s s' : Config δ π} (h : P.Reach C s s') (hs : S.Holds s) : S.Holds s' :=
  Program.Reach.invariant P (fun _ _ _ hI hC he => S.step hI hC he) h hs

end Solo

end ControlPlane.Interleave
