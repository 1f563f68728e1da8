/-
  LOCKED CELLS: jobs that read and write a cell while they hold its LOCK.

  A job waits for the lock of its key, looks at the cell, writes it or leaves it, and gives the lock
  back; it may die at every point, and then whoever keeps the locks takes its lock away.  Nothing of
  this is atomic but the single steps, and any number of jobs are on their way.

  1. `Jobs.exclusive`: a key has one holder, and what the holder has seen is what is there (`inside`).
  2. `Jobs.replayed`: a cell is what the written jobs make of it, one after the other.
  3. `Jobs.counted`: the jobs that were written are those whose process got past its write.
  4. `Jobs.seen_earlier`: what a job has seen is what some of them, up to then, had made.
  5. `Jobs.ran`: each of them ran without an exception on what the ones before it had made.
-/
import ControlPlane.Solo
import Mathlib.Data.List.Perm.Basic

namespace ControlPlane.Locked

open Interleave (AtWork Config Event Program Solo)

/-! ## Jobs -/

/-- The key that a job locks, and what it makes of the cell: an exception, or what it writes, if it
    writes anything. -/
structure Jobs (κ α ι ε : Type) where
  key : ι → κ
  run : ι → α → Except ε (Option α)

/-- The cells, the locks that are taken, and the jobs that were written. -/
structure Store (κ α ι : Type) where
  cells : κ → α
  locked : κ → Bool
  written : List ι

inductive Outcome (ε : Type) where
  /-- It has died, before its write or behind it. -/
  | crashed (wrote : Bool)
  | raised (e : ε)
  | unchanged
  | updated

inductive Proc (α ι ε : Type) where
  | waiting (job : ι)
  | holding (job : ι)
  | looking (job : ι) (seen : α)
  | wrote (job : ι) (seen : α)
  | ended (job : ι) (seen : Option α) (outcome : Outcome ε)

inductive Reply where
  | go
  | crash

variable {κ α ι ε : Type} [DecidableEq κ]

def Store.lock (s : Store κ α ι) (k : κ) : Store κ α ι :=
  { s with locked := fun k' => if k' = k then true else s.locked k' }

def Store.unlock (s : Store κ α ι) (k : κ) : Store κ α ι :=
  { s with locked := fun k' => if k' = k then false else s.locked k' }

def Store.write (s : Store κ α ι) (k : κ) (cell : α) (job : ι) : Store κ α ι :=
  { s with
    cells := fun k' => if k' = k then cell else s.cells k'
    written := s.written ++ [job] }

namespace Jobs

variable (J : Jobs κ α ι ε)

/-- One step of a job. -/
def act (s : Store κ α ι) : Proc α ι ε → Reply → Option (Store κ α ι × Proc α ι ε)
  | .waiting job, .go =>
      if s.locked (J.key job) then none else some (s.lock (J.key job), .holding job)
  | .waiting job, .crash => some (s, .ended job none (.crashed false))
  | .holding job, .go => some (s, .looking job (s.cells (J.key job)))
  | .holding job, .crash => some (s.unlock (J.key job), .ended job none (.crashed false))
  | .looking job seen, .go => match J.run job seen with
      | .error e => some (s.unlock (J.key job), .ended job (some seen) (.raised e))
      | .ok none => some (s.unlock (J.key job), .ended job (some seen) .unchanged)
      | .ok (some cell) => some (s.write (J.key job) cell job, .wrote job seen)
  | .looking job seen, .crash =>
      some (s.unlock (J.key job), .ended job (some seen) (.crashed false))
  | .wrote job seen, .go => some (s.unlock (J.key job), .ended job (some seen) .updated)
  | .wrote job seen, .crash =>
      some (s.unlock (J.key job), .ended job (some seen) (.crashed true))
  | .ended .., _ => none

def starts : Proc α ι ε → Bool
  | .waiting _ => true
  | _ => false

def program : Program (Store κ α ι) (Proc α ι ε) Reply Empty where
  start := starts
  act := J.act
  env _ w := w.elim

/-- Nothing is locked, nothing written, nobody at work. -/
def fresh (cells : κ → α) : Config (Store κ α ι) (Proc α ι ε) := ⟨⟨cells, fun _ => false, []⟩, []⟩

/-! ## What the jobs make of a cell -/

/-- A job makes this of a cell. -/
def apply (job : ι) (cell : α) : α :=
  match J.run job cell with
  | .ok (some cell) => cell
  | _ => cell

/-- The jobs make this of the cell of a key, one after the other. -/
def value (k : κ) (cell : α) (log : List ι) : α :=
  (log.filter fun job => J.key job = k).foldl (fun cell job => J.apply job cell) cell

/-- The process has the lock of this key. -/
def inside (k : κ) : Proc α ι ε → Bool
  | .holding job | .looking job _ | .wrote job _ => J.key job = k
  | .waiting _ | .ended .. => false

/-- The job of a process that got past its write. -/
def committed : Proc α ι ε → Option ι
  | .wrote job _ | .ended job _ .updated | .ended job _ (.crashed true) => some job
  | _ => none

/-- What the job of a process has seen. -/
def seen : Proc α ι ε → Option (ι × α)
  | .looking job cell | .wrote job cell | .ended job (some cell) _ => some (job, cell)
  | _ => none

variable {J} {k : κ} {cell : α} {cells : κ → α} {job : ι} {log : List ι} {s : Store κ α ι}

theorem value_append : J.value k cell (log ++ [job]) =
    if J.key job = k then J.apply job (J.value k cell log) else J.value k cell log := by
  unfold value
  rw [List.filter_append]
  by_cases hkey : J.key job = k
  · simp [hkey]
  · simp [hkey]

omit [DecidableEq κ] in
theorem apply_of_run {cell' : α} (h : J.run job cell = .ok (some cell')) : J.apply job cell = cell' := by
  unfold apply
  rw [h]

@[simp] theorem lock_cells : (s.lock k).cells = s.cells := rfl
@[simp] theorem lock_written : (s.lock k).written = s.written := rfl
@[simp] theorem unlock_cells : (s.unlock k).cells = s.cells := rfl
@[simp] theorem unlock_written : (s.unlock k).written = s.written := rfl
@[simp] theorem write_locked : (s.write k cell job).locked = s.locked := rfl
@[simp] theorem write_written : (s.write k cell job).written = s.written ++ [job] := rfl

theorem lock_locked {k' : κ} : (s.lock k').locked k = if k = k' then true else s.locked k := rfl

theorem unlock_locked {k' : κ} : (s.unlock k').locked k = if k = k' then false else s.locked k := rfl

theorem write_cells {k' : κ} : (s.write k' cell job).cells k = if k = k' then cell else s.cells k :=
  rfl

/-! ## One key -/

/-- What holds of a key and the process that has its lock. -/
structure Kept (J : Jobs κ α ι ε) (cells : κ → α) (k : κ) (s : Store κ α ι)
    (o : Option (Proc α ι ε)) : Prop where
  locked : s.locked k = o.isSome
  replayed : s.cells k = J.value k (cells k) s.written
  looked : ∀ job seen, o = some (.looking job seen) → seen = s.cells k

/-- A step beside the holder leaves the key alone. -/
theorem Kept.aside {s s' : Store κ α ι} {o : Option (Proc α ι ε)} (h : Kept J cells k s o)
    (hlocked : s'.locked k = s.locked k) (hcells : s'.cells k = s.cells k)
    (hvalue : J.value k (cells k) s'.written = J.value k (cells k) s.written) : Kept J cells k s' o where
  locked := hlocked.trans h.locked
  replayed := hcells.trans (h.replayed.trans hvalue.symm)
  looked job seen ho := (h.looked job seen ho).trans hcells.symm

/-- The holder gives the lock back. -/
theorem Kept.unlock {p : Proc α ι ε} (h : Kept J cells k s (some p)) :
    Kept J cells k (s.unlock k) none where
  locked := by rw [unlock_locked, if_pos rfl, Option.isSome_none]
  replayed := h.replayed
  looked _ _ ho := nomatch ho

/-- What a process does to the key that it has the lock of. -/
theorem kept_work {p p' : Proc α ι ε} {s' : Store κ α ι} {c : Reply} (hp : J.inside k p = true)
    (h : Kept J cells k s (some p)) (hact : J.act s p c = some (s', p')) :
    Kept J cells k s' (if J.inside k p' = true then some p' else none) := by
  cases p with
  | waiting job => cases hp
  | ended job seen outcome => cases hp
  | holding job =>
    obtain rfl : J.key job = k := of_decide_eq_true hp
    cases c with
    | go =>
      cases hact
      rw [inside, if_pos (by simp)]
      refine ⟨h.locked, h.replayed, fun job' seen heq => ?_⟩
      cases heq
      rfl
    | crash =>
      cases hact
      exact h.unlock
  | looking job seen =>
    obtain rfl : J.key job = k := of_decide_eq_true hp
    cases c with
    | crash =>
      cases hact
      exact h.unlock
    | go =>
      unfold act at hact
      cases hrun : J.run job seen with
      | error e =>
        simp only [hrun] at hact
        cases hact
        exact h.unlock
      | ok result =>
        cases result with
        | none =>
          simp only [hrun] at hact
          cases hact
          exact h.unlock
        | some cell =>
          simp only [hrun] at hact
          cases hact
          rw [inside, if_pos (by simp)]
          refine ⟨h.locked, ?_, fun job' seen heq => nomatch heq⟩
          rw [write_cells, if_pos rfl, write_written, value_append, if_pos rfl, ← h.replayed,
            ← h.looked job seen rfl, apply, hrun]
  | wrote job seen =>
    obtain rfl : J.key job = k := of_decide_eq_true hp
    cases c with
    | go =>
      cases hact
      exact h.unlock
    | crash =>
      cases hact
      exact h.unlock

/-- Only a waiting process takes a lock, and it takes the lock of its own key. -/
theorem act_enter {p p' : Proc α ι ε} {s' : Store κ α ι} {c : Reply} (hp : J.inside k p = false)
    (hp' : J.inside k p' = true) (hact : J.act s p c = some (s', p')) :
    ∃ job, J.key job = k ∧ s.locked k = false ∧ s' = s.lock k ∧ p' = .holding job := by
  cases p with
  | waiting job =>
    cases c with
    | crash =>
      cases hact
      cases hp'
    | go =>
      simp only [act] at hact
      split at hact
      · cases hact
      · rename_i hfree
        cases hact
        obtain rfl : J.key job = k := of_decide_eq_true hp'
        exact ⟨job, rfl, Bool.eq_false_iff.mpr hfree, rfl, rfl⟩
  | ended job seen outcome => cases hact
  | holding job =>
    have hkey : J.key job ≠ k := of_decide_eq_false hp
    cases c with
    | go =>
      cases hact
      exact absurd (of_decide_eq_true hp') hkey
    | crash =>
      cases hact
      cases hp'
  | wrote job seen =>
    cases c with
    | go =>
      cases hact
      cases hp'
    | crash =>
      cases hact
      cases hp'
  | looking job seen =>
    have hkey : J.key job ≠ k := of_decide_eq_false hp
    cases c with
    | crash =>
      cases hact
      cases hp'
    | go =>
      simp only [act] at hact
      split at hact
      · cases hact
        cases hp'
      · cases hact
        cases hp'
      · cases hact
        exact absurd (of_decide_eq_true hp') hkey

/-- Who takes the lock of a key finds nobody there. -/
theorem kept_enter {p p' : Proc α ι ε} {s' : Store κ α ι} {c : Reply} {o : Option (Proc α ι ε)}
    (hp : J.inside k p = false) (hp' : J.inside k p' = true) (h : Kept J cells k s o)
    (hact : J.act s p c = some (s', p')) : o = none ∧ Kept J cells k s' (some p') := by
  obtain ⟨job, -, hfree, rfl, rfl⟩ := act_enter hp hp' hact
  have hnone : o = none := by
    rw [h.locked] at hfree
    exact Option.not_isSome_iff_eq_none.mp (Bool.eq_false_iff.mp hfree)
  refine ⟨hnone, ?_, h.replayed, fun _ _ heq => nomatch heq⟩
  rw [lock_locked, if_pos rfl, Option.isSome_some]

/-- A step of a process that does not have the lock of a key leaves its lock and its cell alone, and
    what the jobs make of it. -/
theorem act_aside {p p' : Proc α ι ε} {s' : Store κ α ι} {c : Reply} (hp : J.inside k p = false)
    (hp' : J.inside k p' = false) (hact : J.act s p c = some (s', p')) :
    s'.locked k = s.locked k ∧ s'.cells k = s.cells k ∧
      J.value k cell s'.written = J.value k cell s.written := by
  cases p with
  | waiting job =>
    cases c with
    | crash =>
      cases hact
      exact ⟨rfl, rfl, rfl⟩
    | go =>
      simp only [act] at hact
      split at hact
      · cases hact
      · cases hact
        have hkey : J.key job ≠ k := of_decide_eq_false hp'
        exact ⟨if_neg hkey.symm, rfl, rfl⟩
  | ended job seen outcome => cases hact
  | holding job =>
    have hkey : J.key job ≠ k := of_decide_eq_false hp
    cases c with
    | go =>
      cases hact
      exact ⟨rfl, rfl, rfl⟩
    | crash =>
      cases hact
      exact ⟨if_neg hkey.symm, rfl, rfl⟩
  | wrote job seen =>
    have hkey : J.key job ≠ k := of_decide_eq_false hp
    cases c with
    | go =>
      cases hact
      exact ⟨if_neg hkey.symm, rfl, rfl⟩
    | crash =>
      cases hact
      exact ⟨if_neg hkey.symm, rfl, rfl⟩
  | looking job seen =>
    have hkey : J.key job ≠ k := of_decide_eq_false hp
    cases c with
    | crash =>
      cases hact
      exact ⟨if_neg hkey.symm, rfl, rfl⟩
    | go =>
      simp only [act] at hact
      split at hact
      · cases hact
        exact ⟨if_neg hkey.symm, rfl, rfl⟩
      · cases hact
        exact ⟨if_neg hkey.symm, rfl, rfl⟩
      · cases hact
        exact ⟨rfl, if_neg hkey.symm, by rw [write_written, value_append, if_neg hkey]⟩

/-- What a process does to a key that it does not have the lock of. -/
theorem kept_aside {p p' : Proc α ι ε} {s' : Store κ α ι} {c : Reply} {o : Option (Proc α ι ε)}
    (hp : J.inside k p = false) (hp' : J.inside k p' = false) (h : Kept J cells k s o)
    (hact : J.act s p c = some (s', p')) : Kept J cells k s' o := by
  have haside : s'.locked k = s.locked k ∧ s'.cells k = s.cells k ∧
      J.value k (cells k) s'.written = J.value k (cells k) s.written := act_aside hp hp' hact
  obtain ⟨hlocked, hcells, hvalue⟩ := haside
  exact h.aside hlocked hcells hvalue

variable (J k cells) in
/-- At most one process has the lock of a key, and the key is what the written jobs make of it. -/
def solo : Solo J.program Program.Any where
  working := J.inside k
  inv := Kept J cells k
  start {p} hp := by
    cases p with
    | waiting job => rfl
    | _ => cases hp
  work hwork hinv _ _ hact := kept_work hwork.works hinv hact
  enter _ hinv _ _ hp hp' hact := kept_enter hp hp' hinv hact
  aside _ hinv _ _ hp hp' hact := kept_aside hp hp' hinv hact
  env {_ w} _ _ := w.elim

/-! ## Whole runs -/

variable {st : Config (Store κ α ι) (Proc α ι ε)}

theorem held (hst : J.program.Reach Program.Any (fresh cells) st) (k : κ) :
    (solo J k cells).Holds st :=
  (solo J k cells).reach hst ⟨none, rfl, rfl, rfl, fun _ _ heq => nomatch heq⟩

/-- **A key has one holder**, and what the holder has seen is what is there. -/
theorem exclusive (hst : J.program.Reach Program.Any (fresh cells) st) (k : κ) :
    ∃ o, AtWork (J.inside k) st.procs o ∧ st.store.locked k = o.isSome ∧
      ∀ job seen, o = some (.looking job seen) → seen = st.store.cells k := by
  obtain ⟨o, hwork, hkept⟩ := held hst k
  exact ⟨o, hwork, hkept.locked, hkept.looked⟩

/-- **A cell is what the written jobs make of it**, one after the other. -/
theorem replayed (hst : J.program.Reach Program.Any (fresh cells) st) (k : κ) :
    st.store.cells k = J.value k (cells k) st.store.written := by
  obtain ⟨o, -, hkept⟩ := held hst k
  exact hkept.replayed

theorem looks {seen : α} (hst : J.program.Reach Program.Any (fresh cells) st)
    (hp : .looking job seen ∈ st.procs) : seen = st.store.cells (J.key job) := by
  obtain ⟨o, hwork, hkept⟩ := held hst (J.key job)
  exact hkept.looked job seen (hwork.eq hp (decide_eq_true rfl))

/-! ## Who was written -/

section FilterMap

variable {f : Proc α ι ε → Option ι} {l : List (Proc α ι ε)} {i : Nat} {p p' : Proc α ι ε}

theorem filterMap_set_same (hi : l[i]? = some p) (hf : f p' = f p) :
    (l.set i p').filterMap f = l.filterMap f := by
  induction l generalizing i with
  | nil => rfl
  | cons q l ih =>
    cases i with
    | zero =>
      obtain rfl : q = p := Option.some.inj hi
      rw [List.set_cons_zero, List.filterMap_cons, List.filterMap_cons, hf]
    | succ i => rw [List.set_cons_succ, List.filterMap_cons, List.filterMap_cons, ih hi]

theorem filterMap_set_new (hi : l[i]? = some p) (hp : f p = none) (hp' : f p' = some job) :
    ((l.set i p').filterMap f).Perm (job :: l.filterMap f) := by
  induction l generalizing i with
  | nil => cases hi
  | cons q l ih =>
    cases i with
    | zero =>
      obtain rfl : q = p := Option.some.inj hi
      rw [List.set_cons_zero, List.filterMap_cons_some hp', List.filterMap_cons_none hp]
    | succ i =>
      rw [List.set_cons_succ]
      cases hq : f q with
      | none =>
        rw [List.filterMap_cons_none hq, List.filterMap_cons_none hq]
        exact ih hi
      | some job' =>
        rw [List.filterMap_cons_some hq, List.filterMap_cons_some hq]
        exact ((ih hi).cons job').trans (List.Perm.swap job job' _)

end FilterMap

/-- A step gets past a write exactly when it writes. -/
theorem act_committed {p p' : Proc α ι ε} {s' : Store κ α ι} {c : Reply}
    (hact : J.act s p c = some (s', p')) :
    (committed p' = committed p ∧ s'.written = s.written) ∨
      (∃ job seen, p = .looking job seen ∧ p' = .wrote job seen ∧ s'.written = s.written ++ [job]) := by
  cases p with
  | waiting job =>
    cases c with
    | crash =>
      cases hact
      exact .inl ⟨rfl, rfl⟩
    | go =>
      simp only [act] at hact
      split at hact
      · cases hact
      · cases hact
        exact .inl ⟨rfl, rfl⟩
  | ended job seen outcome => cases hact
  | holding job =>
    cases c <;>
    · cases hact
      exact .inl ⟨rfl, rfl⟩
  | wrote job seen =>
    cases c <;>
    · cases hact
      exact .inl ⟨rfl, rfl⟩
  | looking job seen =>
    cases c with
    | crash =>
      cases hact
      exact .inl ⟨rfl, rfl⟩
    | go =>
      simp only [act] at hact
      split at hact
      · cases hact
        exact .inl ⟨rfl, rfl⟩
      · cases hact
        exact .inl ⟨rfl, rfl⟩
      · cases hact
        exact .inr ⟨job, seen, rfl, rfl, rfl⟩

/-- **The jobs that were written are those whose process got past its write**, each as often. -/
theorem counted (hst : J.program.Reach Program.Any (fresh cells) st) :
    st.store.written.Perm (st.procs.filterMap committed) := by
  induction hst with
  | refl => exact List.Perm.nil
  | tail _ hnext ih =>
    obtain ⟨e, -, he⟩ := hnext
    cases e with
    | spawn p =>
      obtain ⟨hp, rfl⟩ := J.program.step_spawn he
      cases p with
      | waiting job =>
        have hnone : [Proc.waiting job].filterMap (@committed α ι ε) = [] := rfl
        rw [List.filterMap_append, hnone, List.append_nil]
        exact ih
      | _ => cases hp
    | env w => exact w.elim
    | act i c =>
      obtain ⟨p, s', p', hi, hact, rfl⟩ := J.program.step_act he
      rcases act_committed hact with ⟨hsame, hwritten⟩ | ⟨job, seen, rfl, rfl, hwritten⟩
      · rw [hwritten, filterMap_set_same hi hsame]
        exact ih
      · rw [hwritten]
        exact (List.perm_append_singleton job _).trans
          ((ih.cons job).trans (filterMap_set_new hi rfl rfl).symm)

/-! ## What a job has seen -/

/-- What the process has seen is what some of the written jobs had made, up to then; its own job, if
    it was written, comes right behind them. -/
def Placed (J : Jobs κ α ι ε) (cells : κ → α) (written : List ι) (p : Proc α ι ε) : Prop :=
  ∀ job cell, seen p = some (job, cell) →
    ∃ earlier, cell = J.value (J.key job) (cells (J.key job)) earlier ∧
      earlier ++ (committed p).toList <+: written

/-- What a process has come to is what its job makes of what it has seen. -/
def Told (J : Jobs κ α ι ε) : Proc α ι ε → Prop
  | .wrote job seen | .ended job (some seen) .updated | .ended job (some seen) (.crashed true) =>
      ∃ cell, J.run job seen = .ok (some cell)
  | .ended job (some seen) .unchanged => J.run job seen = .ok none
  | .ended job (some seen) (.raised e) => J.run job seen = .error e
  | .ended _ none outcome => outcome = .crashed false
  | .ended _ (some _) (.crashed false) | .waiting _ | .holding _ | .looking .. => True

theorem Placed.mono {written written' : List ι} {p : Proc α ι ε} (h : Placed J cells written p)
    (hwritten : written <+: written') : Placed J cells written' p := by
  intro job cell hseen
  obtain ⟨earlier, hcell, hearlier⟩ := h job cell hseen
  exact ⟨earlier, hcell, hearlier.trans hwritten⟩

theorem told_act {p p' : Proc α ι ε} {s' : Store κ α ι} {c : Reply} (h : Told J p)
    (hact : J.act s p c = some (s', p')) : Told J p' := by
  cases p with
  | waiting job =>
    cases c with
    | crash =>
      cases hact
      exact rfl
    | go =>
      simp only [act] at hact
      split at hact
      · cases hact
      · cases hact
        trivial
  | ended job seen outcome => cases hact
  | holding job =>
    cases c with
    | go =>
      cases hact
      trivial
    | crash =>
      cases hact
      exact rfl
  | wrote job seen =>
    cases c <;>
    · cases hact
      exact h
  | looking job seen =>
    cases c with
    | crash =>
      cases hact
      trivial
    | go =>
      simp only [act] at hact
      split at hact
      · rename_i hrun
        cases hact
        exact hrun
      · rename_i hrun
        cases hact
        exact hrun
      · rename_i cell hrun
        cases hact
        exact ⟨cell, hrun⟩

/-- Only a look at the cell sees something new. -/
theorem act_seen {p p' : Proc α ι ε} {s' : Store κ α ι} {c : Reply}
    (hact : J.act s p c = some (s', p')) (hseen : seen p' = some (job, cell)) :
    seen p = some (job, cell) ∨ (p' = .looking job cell ∧ cell = s.cells (J.key job)) := by
  cases p with
  | waiting job =>
    cases c with
    | crash =>
      cases hact
      cases hseen
    | go =>
      simp only [act] at hact
      split at hact
      · cases hact
      · cases hact
        cases hseen
  | ended job seen outcome => cases hact
  | holding job =>
    cases c with
    | go =>
      cases hact
      cases hseen
      exact .inr ⟨rfl, rfl⟩
    | crash =>
      cases hact
      cases hseen
  | wrote job seen =>
    cases c <;>
    · cases hact
      exact .inl hseen
  | looking job seen =>
    cases c with
    | crash =>
      cases hact
      exact .inl hseen
    | go =>
      simp only [act] at hact
      split at hact <;>
      · cases hact
        exact .inl hseen

theorem placed_act {p p' : Proc α ι ε} {s' : Store κ α ι} {c : Reply}
    (hcells : ∀ k, s.cells k = J.value k (cells k) s.written)
    (hlooked : ∀ job seen, p = .looking job seen → seen = s.cells (J.key job))
    (h : Placed J cells s.written p) (hact : J.act s p c = some (s', p')) :
    Placed J cells s'.written p' := by
  rcases act_committed hact with ⟨hsame, hwritten⟩ | ⟨job, seen, rfl, rfl, hwritten⟩
  · rw [hwritten]
    intro job cell hseen
    rcases act_seen hact hseen with hold | ⟨rfl, rfl⟩
    · rw [hsame]
      exact h job cell hold
    · have hnone : @committed α ι ε (.looking job (s.cells (J.key job))) = none := rfl
      exact ⟨s.written, hcells _, [], by rw [hnone, Option.toList_none, List.append_nil, List.append_nil]⟩
  · intro job' cell heq
    cases heq
    refine ⟨s.written, (hlooked job seen rfl).trans (hcells _), ?_⟩
    rw [hwritten]
    exact List.prefix_rfl

/-- **What a job has seen** is what some of the written jobs had made, up to then, and it comes to
    what the job makes of that. -/
theorem seen_earlier (hst : J.program.Reach Program.Any (fresh cells) st) :
    ∀ p ∈ st.procs, Placed J cells st.store.written p ∧ Told J p := by
  induction hst with
  | refl => exact fun p hp => nomatch hp
  | @tail st st' hreach hnext ih =>
    obtain ⟨e, -, he⟩ := hnext
    cases e with
    | spawn p =>
      obtain ⟨hp, rfl⟩ := J.program.step_spawn he
      intro q hq
      rcases List.mem_append.mp hq with hq | hq
      · exact ih q hq
      · obtain rfl : q = p := List.mem_singleton.mp hq
        cases q with
        | waiting job => exact ⟨(fun _ _ heq => nomatch heq), trivial⟩
        | _ => cases hp
    | env w => exact w.elim
    | act i c =>
      obtain ⟨p, s', p', hi, hact, rfl⟩ := J.program.step_act he
      have hmem : p ∈ st.procs := List.mem_of_getElem? hi
      have hlooked : ∀ job seen, p = .looking job seen → seen = st.store.cells (J.key job) := by
        rintro job seen rfl
        exact looks hreach hmem
      have hwritten : st.store.written <+: s'.written := by
        rcases act_committed hact with ⟨-, hsame⟩ | ⟨job, -, -, -, hnew⟩
        · exact ⟨[], by rw [hsame, List.append_nil]⟩
        · rw [hnew]
          exact List.prefix_append _ _
      intro q hq
      rcases List.mem_or_eq_of_mem_set hq with hq | rfl
      · exact ⟨(ih q hq).1.mono hwritten, (ih q hq).2⟩
      · exact ⟨placed_act (replayed hreach) hlooked (ih p hmem).1 hact, told_act (ih p hmem).2 hact⟩

/-! ## Every written job ran -/

/-- Each job of the log writes, on what the ones before it make of its cell. -/
inductive Ran (J : Jobs κ α ι ε) (cells : κ → α) : List ι → Prop where
  | nil : Ran J cells []
  | snoc {log : List ι} {job : ι} {cell : α} (earlier : Ran J cells log)
      (run : J.run job (J.value (J.key job) (cells (J.key job)) log) = .ok (some cell)) :
      Ran J cells (log ++ [job])

theorem Ran.earlier {earlier : List ι} (h : Ran J cells log) (hearlier : earlier <+: log) :
    Ran J cells earlier := by
  induction h with
  | nil =>
    rw [List.prefix_nil.mp hearlier]
    exact .nil
  | snoc hlog hrun ih =>
    rcases List.prefix_concat_iff.mp hearlier with rfl | hearlier
    · exact .snoc hlog hrun
    · exact ih hearlier

/-- **Every written job ran** on what the ones before it had made. -/
theorem ran (hst : J.program.Reach Program.Any (fresh cells) st) : Ran J cells st.store.written := by
  induction hst with
  | refl => exact .nil
  | @tail st st' hreach hnext ih =>
    obtain ⟨e, -, he⟩ := hnext
    cases e with
    | spawn p =>
      obtain ⟨-, rfl⟩ := J.program.step_spawn he
      exact ih
    | env w => exact w.elim
    | act i c =>
      obtain ⟨p, s', p', hi, hact, rfl⟩ := J.program.step_act he
      rcases act_committed hact with ⟨-, hwritten⟩ | ⟨job, seen, rfl, rfl, hwritten⟩
      · rw [hwritten]
        exact ih
      · obtain ⟨cell, hrun⟩ : Told J (.wrote job seen) :=
          told_act (p := .looking job seen) trivial hact
        rw [looks hreach (List.mem_of_getElem? hi), replayed hreach] at hrun
        rw [hwritten]
        exact .snoc ih hrun

/-! ## One job alone -/

/-- Where a job that writes has got to when nobody disturbed it. -/
def alone (J : Jobs κ α ι ε) (cells : κ → α) (job : ι) (cell : α) :
    Config (Store κ α ι) (Proc α ι ε) :=
  ⟨(((Store.mk cells (fun _ => false) []).lock (J.key job)).write (J.key job) cell job).unlock
      (J.key job), [.ended job (some (cells (J.key job))) .updated]⟩

theorem next_alone {s s' : Store κ α ι} {p p' : Proc α ι ε} (h : J.act s p .go = some (s', p')) :
    J.program.Next Program.Any ⟨s, [p]⟩ ⟨s', [p']⟩ := by
  refine ⟨.act 0 .go, trivial, ?_⟩
  change (J.act s p .go).map (fun r => (⟨r.1, [r.2]⟩ : Config (Store κ α ι) (Proc α ι ε))) = _
  rw [h]
  rfl

theorem alone_reach (hrun : J.run job (cells (J.key job)) = .ok (some cell)) :
    J.program.Reach Program.Any (fresh cells) (alone J cells job cell) := by
  have hwrite : J.act ((Store.mk cells (fun _ => false) []).lock (J.key job))
      (.looking job (cells (J.key job))) .go =
      some (((Store.mk cells (fun _ => false) []).lock (J.key job)).write (J.key job) cell job,
        .wrote job (cells (J.key job))) := by
    rw [act, hrun]
  have hspawn : J.program.Next Program.Any (fresh cells)
      ⟨Store.mk cells (fun _ => false) [], [.waiting job]⟩ := ⟨.spawn (.waiting job), trivial, rfl⟩
  exact ((((Relation.ReflTransGen.single hspawn).tail (next_alone rfl)).tail (next_alone rfl)).tail
    (next_alone hwrite)).tail (next_alone rfl)

end Jobs

end ControlPlane.Locked
