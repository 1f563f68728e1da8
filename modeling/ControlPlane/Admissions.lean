/-
  ADMISSION TABLES: rows that are admitted once for every key, and dispatched.

  A submission route looks its key up, and either answers with the row that is there (a REUSE) or
  admits a new row and dispatches it.  What a row was admitted with never changes; its progress may
  change at any time.  `Later` is all that a route may count on between two of its calls: rows and
  dispatches are only added.

  Two laws are stated here for routes over such a table:

  * an idempotency key FAILS CLOSED when a second call under it is a reuse of the same computation,
    or a refusal that changes nothing (`FailsClosed`),
  * a call that ends between the commit of its row and the dispatch LOSES it: after any sequence of
    calls, the rows that are not dispatched are exactly the lost ones (`dispatched_iff`).
-/
import Mathlib.Data.List.Nodup
import Mathlib.Data.List.Basic

namespace ControlPlane

/-! ## Tables -/

/-- A row: its key, what it was admitted with, and its progress. -/
structure Admitted (κ ν ω : Type) where
  key : κ
  content : ν
  progress : ω
  deriving DecidableEq

/-- The table with the rows dispatched so far; a row is named by its place. -/
structure Admissions (κ ν ω : Type) where
  rows : List (Admitted κ ν ω)
  dispatches : List Nat
  /-- The unique constraint on the key. -/
  unique : (rows.map Admitted.key).Nodup

namespace Admissions

variable {κ ν ω : Type}

def empty : Admissions κ ν ω := ⟨[], [], List.nodup_nil⟩

/-- The row changes in its progress. -/
def update (s : Admissions κ ν ω) (i : Nat) (f : ω → ω) : Admissions κ ν ω where
  rows := s.rows.modify i fun row => { row with progress := f row.progress }
  dispatches := s.dispatches
  unique := by
    have hkeys : (s.rows.modify i fun row => { row with progress := f row.progress }).map
        Admitted.key = s.rows.map Admitted.key := by
      refine List.ext_getElem? fun j => ?_
      rw [List.getElem?_map, List.getElem?_map, List.getElem?_modify]
      cases s.rows[j]? with
      | none => rfl
      | some row =>
        by_cases hij : i = j
        · simp [hij]
        · simp [hij]
    exact hkeys ▸ s.unique

def dispatch (s : Admissions κ ν ω) (i : Nat) : Admissions κ ν ω :=
  { s with dispatches := s.dispatches ++ [i] }

/-! ## What stays -/

variable {s s' s'' : Admissions κ ν ω} {key : κ} {content : ν} {row : Admitted κ ν ω} {i : Nat}

/-- Rows keep their place, key and content, and dispatches are not taken back. -/
structure Later (s s' : Admissions κ ν ω) : Prop where
  rows : ∀ (i : Nat) (row : Admitted κ ν ω), s.rows[i]? = some row → ∃ row' : Admitted κ ν ω,
    s'.rows[i]? = some row' ∧ row'.key = row.key ∧ row'.content = row.content
  dispatches : ∀ i ∈ s.dispatches, i ∈ s'.dispatches

theorem Later.refl (s : Admissions κ ν ω) : Later s s :=
  ⟨fun _ row h => ⟨row, h, rfl, rfl⟩, fun _ h => h⟩

theorem Later.trans (h : Later s s') (h' : Later s' s'') : Later s s'' := by
  refine ⟨fun i row hrow => ?_, fun i hi => h'.dispatches i (h.dispatches i hi)⟩
  obtain ⟨row', hrow', hkey, hcontent⟩ := h.rows i row hrow
  obtain ⟨row'', hrow'', hkey', hcontent'⟩ := h'.rows i row' hrow'
  exact ⟨row'', hrow'', hkey'.trans hkey, hcontent'.trans hcontent⟩

theorem later_update (f : ω → ω) : Later s (s.update i f) := by
  refine ⟨fun j row hrow => ?_, fun _ h => h⟩
  by_cases hij : i = j
  · exact ⟨{ row with progress := f row.progress }, by simp [update, hij, hrow],
      rfl, rfl⟩
  · exact ⟨row, by simp [update, hij, hrow], rfl, rfl⟩

theorem later_dispatch : Later s (s.dispatch i) :=
  ⟨fun _ row h => ⟨row, h, rfl, rfl⟩, fun _ h => List.mem_append_left _ h⟩

/-! ## Looking up and admitting -/

variable [DecidableEq κ]

/-- The row with this key, and its place. -/
def find? (s : Admissions κ ν ω) (key : κ) : Option (Admitted κ ν ω × Nat) :=
  s.rows.zipIdx.find? fun p => decide (p.1.key = key)

theorem find?_eq_some : s.find? key = some (row, i) ↔ s.rows[i]? = some row ∧ row.key = key := by
  constructor
  · intro h
    have hmem := List.mem_of_find?_eq_some h
    have hkey := List.find?_some h
    exact ⟨List.mem_zipIdx_iff_getElem?.mp hmem, by simpa using hkey⟩
  · rintro ⟨hrow, hkey⟩
    have hmem : (row, i) ∈ s.rows.zipIdx := List.mem_zipIdx_iff_getElem?.mpr hrow
    have hsome : (s.find? key).isSome = true := by
      refine List.find?_isSome.mpr ⟨(row, i), hmem, by simp [hkey]⟩
    obtain ⟨⟨row', j⟩, hfind⟩ := Option.isSome_iff_exists.mp hsome
    have hrow' : s.rows[j]? = some row' :=
      List.mem_zipIdx_iff_getElem?.mp (List.mem_of_find?_eq_some hfind)
    have hkey' : row'.key = key := by simpa using List.find?_some hfind
    -- two places with one key are one place
    obtain ⟨hi, rfl⟩ := List.getElem?_eq_some_iff.mp hrow
    obtain ⟨hj, rfl⟩ := List.getElem?_eq_some_iff.mp hrow'
    have hlen : i < (s.rows.map Admitted.key).length := by rwa [List.length_map]
    have hlen' : j < (s.rows.map Admitted.key).length := by rwa [List.length_map]
    have hsame : (s.rows.map Admitted.key)[i] = (s.rows.map Admitted.key)[j] := by
      rw [List.getElem_map, List.getElem_map, hkey, hkey']
    obtain rfl : i = j := s.unique.getElem_inj_iff.mp hsame
    exact hfind

theorem find?_eq_none : s.find? key = none ↔ key ∉ s.rows.map Admitted.key := by
  rw [find?, List.find?_eq_none]
  constructor
  · rintro h hmem
    obtain ⟨row, hrow, hkey⟩ := List.mem_map.mp hmem
    obtain ⟨i, hi⟩ := List.mem_iff_getElem?.mp hrow
    have hne := h (row, i) (List.mem_zipIdx_iff_getElem?.mpr hi)
    simp [hkey] at hne
  · rintro h ⟨row, i⟩ hmem
    have hrow := List.mem_of_getElem? (List.mem_zipIdx_iff_getElem?.mp hmem)
    have hne : row.key ≠ key := fun hkey => h (hkey ▸ List.mem_map_of_mem hrow)
    simpa using hne

/-- Admit a row under a key that is not in the table; its place is the last. -/
def enrol (s : Admissions κ ν ω) (key : κ) (content : ν) (progress : ω) (h : s.find? key = none) :
    Admissions κ ν ω where
  rows := s.rows ++ [⟨key, content, progress⟩]
  dispatches := s.dispatches
  unique := by
    rw [List.map_append, List.nodup_append]
    refine ⟨s.unique, List.nodup_singleton _, ?_⟩
    rintro k hk k' hk' rfl
    obtain rfl : k = key := by simpa using hk'
    exact find?_eq_none.mp h hk

/-! ## What is admitted stays -/

theorem later_enrol {progress : ω} (h : s.find? key = none) :
    Later s (s.enrol key content progress h) := by
  refine ⟨fun j row hrow => ⟨row, ?_, rfl, rfl⟩, fun _ h => h⟩
  have hj : j < s.rows.length := (List.getElem?_eq_some_iff.mp hrow).1
  simpa [enrol, List.getElem?_append_left hj] using hrow

/-- A row is found at its place, with its content, ever after. -/
theorem Later.find? (h : Later s s') (hfind : s.find? key = some (row, i)) :
    ∃ row', s'.find? key = some (row', i) ∧ row'.content = row.content := by
  obtain ⟨hrow, hkey⟩ := find?_eq_some.mp hfind
  obtain ⟨row', hrow', hkey', hcontent⟩ := h.rows i row hrow
  exact ⟨row', find?_eq_some.mpr ⟨hrow', hkey'.trans hkey⟩, hcontent⟩

theorem find?_enrol {progress : ω} (h : s.find? key = none) :
    (s.enrol key content progress h).find? key = some (⟨key, content, progress⟩, s.rows.length) :=
  find?_eq_some.mpr ⟨by simp [enrol], rfl⟩

/-! ## Idempotency keys -/

end Admissions

/-- What a submission route answers.  `raised` is an exception that nobody catches, or the death of
    the process: an error, or no answer at all. -/
inductive Answer (ι ρ : Type) where
  | submitted (job : ι) (reused : Bool) (body : ρ)
  | refused (status : Nat) (detail : String)
  | raised
  deriving DecidableEq

/-- **The law of an idempotency key**, for a second call under the key of job `first`: a reuse of that
    job for the same computation, or a refusal that changes nothing. -/
def FailsClosed {σ ι ρ : Type} (first : ι) (same : Prop) (s : σ) : σ × Answer ι ρ → Prop
  | (_, .submitted job reused _) => reused = true ∧ job = first ∧ same
  | (s', .refused _ _) | (s', .raised) => s' = s

/-! ## Sequences of calls -/

/-- How far a call gets. -/
inductive Fate (α : Type) where
  /-- The database refuses a statement, or the process dies before the commit. -/
  | rolledBack
  /-- The row is committed; then enqueueing raises, or the process dies before it. -/
  | notDispatched
  /-- The task is enqueued, and the process dies before it answers. -/
  | unanswered
  /-- The call runs to its end, and reads `result` after enqueueing. -/
  | answered (result : α)
  deriving DecidableEq

/-- A call of the route, or a change of one row's progress by whoever works on it. -/
inductive Traffic (β ω : Type) where
  | call (b : β)
  | work (i : Nat) (progress : ω)

namespace Admissions

variable {κ ν ω β ρ : Type} (route : β → Admissions κ ν ω → Admissions κ ν ω × Answer Nat ρ)
  (givesUp : β → Bool)

def step (s : Admissions κ ν ω) : Traffic β ω → Admissions κ ν ω
  | .call b => (route b s).1
  | .work i progress => s.update i fun _ => progress

/-- The row, if any, that the event commits without a dispatch to follow. -/
def lost (s : Admissions κ ν ω) : Traffic β ω → List Nat
  | .call b =>
      if givesUp b ∧ s.rows.length < (route b s).1.rows.length then [s.rows.length] else []
  | .work _ _ => []

/-- All rows that a sequence of events loses. -/
def abandoned : Admissions κ ν ω → List (Traffic β ω) → List Nat
  | _, [] => []
  | s, e :: es => lost route givesUp s e ++ abandoned (step route s e) es

/-- What a call does to the table: nothing, or one new row, dispatched unless the call gives up. -/
inductive Effect (gaveUp : Bool) (s s' : Admissions κ ν ω) : Prop where
  | nothing (rows : s'.rows.length = s.rows.length) (dispatches : s'.dispatches = s.dispatches)
  | admitted (rows : s'.rows.length = s.rows.length + 1)
      (dispatches : s'.dispatches = if gaveUp then s.dispatches else s.dispatches ++ [s.rows.length])

/-- The dispatched rows are those that are not in the list. -/
structure Account (s : Admissions κ ν ω) (gone : List Nat) : Prop where
  stored : ∀ i ∈ s.dispatches ++ gone, i < s.rows.length
  iff : ∀ i < s.rows.length, i ∈ s.dispatches ↔ i ∉ gone

variable {route givesUp} {s : Admissions κ ν ω} {gone : List Nat}

theorem account_step (heffect : ∀ b s, Effect (givesUp b) s (route b s).1) (h : Account s gone)
    (e : Traffic β ω) : Account (step route s e) (gone ++ lost route givesUp s e) := by
  have hsame : ∀ s' : Admissions κ ν ω, s'.rows.length = s.rows.length →
      s'.dispatches = s.dispatches → Account s' gone := by
    intro s' hrows hdispatches
    exact ⟨fun i hi => hrows ▸ h.stored i (hdispatches ▸ hi),
      fun i hi => hdispatches ▸ h.iff i (hrows ▸ hi)⟩
  cases e with
  | work i progress =>
    rw [lost, List.append_nil]
    exact hsame _ (List.length_modify ..) rfl
  | call b =>
    have hb := heffect b s
    simp only [step, lost]
    generalize (route b s).1 = s' at hb ⊢
    cases hb with
    | nothing hrows hdispatches =>
      rw [if_neg (by omega), List.append_nil]
      exact hsame s' hrows hdispatches
    | admitted hrows hdispatches =>
      have hold : ∀ i ∈ s.dispatches ++ gone, i ≠ s.rows.length := fun i hi =>
        Nat.ne_of_lt (h.stored i hi)
      cases hgave : givesUp b with
      | true =>
        -- the new row is lost
        rw [hgave, if_pos rfl] at hdispatches
        rw [if_pos ⟨rfl, by omega⟩]
        refine ⟨fun i hi => ?_, fun i hi => ?_⟩
        · rw [hdispatches, ← List.append_assoc] at hi
          rcases List.mem_append.mp hi with hi | hi
          · have := h.stored i hi
            omega
          · have := List.mem_singleton.mp hi
            omega
        · rw [hdispatches, List.mem_append, List.mem_singleton]
          by_cases hlast : i = s.rows.length
          · refine iff_of_false (fun hi => ?_) (fun hnot => hnot (Or.inr hlast))
            exact hold i (List.mem_append_left _ hi) hlast
          · simpa [hlast] using h.iff i (by omega)
      | false =>
        rw [hgave, if_neg nofun] at hdispatches
        rw [if_neg (by simp), List.append_nil]
        refine ⟨fun i hi => ?_, fun i hi => ?_⟩
        · rw [hdispatches, List.append_assoc, List.mem_append, List.mem_append] at hi
          rcases hi with hi | hi | hi
          · have := h.stored i (List.mem_append_left _ hi)
            omega
          · have := List.mem_singleton.mp hi
            omega
          · have := h.stored i (List.mem_append_right _ hi)
            omega
        · rw [hdispatches, List.mem_append, List.mem_singleton]
          by_cases hlast : i = s.rows.length
          · refine iff_of_true (Or.inr hlast) fun hi => ?_
            exact hold i (List.mem_append_right _ hi) hlast
          · simpa [hlast] using h.iff i (by omega)

theorem account_run (heffect : ∀ b s, Effect (givesUp b) s (route b s).1) (h : Account s gone)
    (es : List (Traffic β ω)) :
    Account (es.foldl (step route) s) (gone ++ abandoned route givesUp s es) := by
  induction es generalizing s gone with
  | nil => simpa [abandoned] using h
  | cons e es ih =>
    have hrest := ih (account_step heffect h e)
    rwa [List.append_assoc] at hrest

/-- **A row is dispatched if and only if no call gave it up**, after any sequence of events. -/
theorem dispatched_iff (heffect : ∀ b s, Effect (givesUp b) s (route b s).1)
    (es : List (Traffic β ω)) {i : Nat} (hi : i < (es.foldl (step route) empty).rows.length) :
    i ∈ (es.foldl (step route) empty).dispatches ↔ i ∉ abandoned route givesUp empty es := by
  have hempty : Account (empty : Admissions κ ν ω) [] :=
    ⟨fun _ h => (nomatch h), fun _ h => (nomatch h)⟩
  exact (account_run heffect hempty es).iff i hi

end Admissions

end ControlPlane
