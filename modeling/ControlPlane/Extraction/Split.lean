/-
  CUTTING A TABLE: `_split_table` of `apps/extraction/planner.py`.

  From each cut point the loop gallops for the number of rows whose encoding fits
  `EXTRACTION_MAX_INPUT_BYTES`, and cuts there.  The encoder is any function from rows to bytes:

  * the shards concatenate to the table, none is empty, and each fits (`splitTable_ok`),
  * the cut is refused exactly when a single row at a cut point does not fit
    (`splitTable_refused_iff`),
  * when more rows never encode to fewer bytes, each shard is the longest prefix of what is left
    that fits (`splitTable_longest`).
-/
import ControlPlane.Gallop
import Mathlib.Data.List.TakeDrop

namespace ControlPlane.Extraction

open ControlPlane.Gallop

variable {ρ : Type}

/-- What a planner may raise: the four classes that the tasks know, or any other `Exception`. -/
inductive PlanError where
  | planning (detail : String)
  | configuration (detail : String)
  | storage (detail : String)
  | validation (detail : String)
  | other (detail : String)
  deriving DecidableEq, Repr

/-! ## The loop -/

/-- `table.slice(start, count)`. -/
def slice (table : List ρ) (start count : Nat) : List ρ := (table.drop start).take count

/-- What `fits` of `_split_table` asks. -/
def fits (byteLength : List ρ → Nat) (maxInputBytes : Int) (table : List ρ) (start count : Nat) :
    Bool :=
  (byteLength (slice table start count) : Int) ≤ maxInputBytes

/-- `best_count`: how many rows the shard that starts here gets. -/
def bestCount (byteLength : List ρ → Nat) (maxInputBytes : Int) (table : List ρ) (start : Nat) :
    Nat :=
  gallop (fits byteLength maxInputBytes table start) (table.length - start)

theorem bestCount_le (byteLength : List ρ → Nat) (maxInputBytes : Int) (table : List ρ)
    (start : Nat) : bestCount byteLength maxInputBytes table start ≤ table.length - start :=
  gallop_le ..

def rowTooLarge (start : Nat) : PlanError :=
  .planning ("passage row " ++ toString start ++ " exceeds EXTRACTION_MAX_INPUT_BYTES")

/-- The outer loop of `_split_table`, from a cut point on. -/
def splitFrom (byteLength : List ρ → Nat) (maxInputBytes : Int) (table : List ρ) (start : Nat) :
    Except PlanError (List (List ρ)) :=
  if _hstart : start < table.length then
    if _hcount : bestCount byteLength maxInputBytes table start = 0 then .error (rowTooLarge start)
    else
      (splitFrom byteLength maxInputBytes table
        (start + bestCount byteLength maxInputBytes table start)).map
          (slice table start (bestCount byteLength maxInputBytes table start) :: ·)
  else .ok []
termination_by table.length - start
decreasing_by omega

/-- `_split_table`. -/
def splitTable (byteLength : List ρ → Nat) (maxInputBytes : Int) (table : List ρ) :
    Except PlanError (List (List ρ)) :=
  if maxInputBytes ≤ 0 then .error (.planning "max_input_bytes must be positive")
  else splitFrom byteLength maxInputBytes table 0

variable {byteLength : List ρ → Nat} {maxInputBytes : Int} {table : List ρ} {start : Nat}
  {shards : List (List ρ)}

theorem map_ok {ε α β : Type} {x : Except ε α} {f : α → β} {b : β} (h : x.map f = .ok b) :
    ∃ a, x = .ok a ∧ f a = b := by
  cases x with
  | error e => cases h
  | ok a => exact ⟨a, rfl, Except.ok.inj h⟩

/-! ## What is cut -/

/-- A cut that succeeds cuts one shard, or is at the end. -/
theorem splitFrom_step (h : splitFrom byteLength maxInputBytes table start = .ok shards) :
    (table.length ≤ start ∧ shards = []) ∨
      ∃ rest, start < table.length ∧ bestCount byteLength maxInputBytes table start ≠ 0 ∧
        splitFrom byteLength maxInputBytes table
          (start + bestCount byteLength maxInputBytes table start) = .ok rest ∧
        shards = slice table start (bestCount byteLength maxInputBytes table start) :: rest := by
  rw [splitFrom] at h
  split at h
  · rename_i hstart
    split at h
    · cases h
    · rename_i hcount
      obtain ⟨rest, hrest, rfl⟩ := map_ok h
      exact Or.inr ⟨rest, hstart, hcount, hrest, rfl⟩
  · rename_i hend
    cases h
    exact Or.inl ⟨Nat.le_of_not_lt hend, rfl⟩

theorem slice_append_drop (table : List ρ) (start count : Nat) :
    slice table start count ++ table.drop (start + count) = table.drop start := by
  rw [slice, ← List.drop_drop, List.take_append_drop]

theorem length_slice {count : Nat} (hcount : count ≤ table.length - start) :
    (slice table start count).length = count := by
  rw [slice, List.length_take, List.length_drop]
  omega

/-- The shard that is cut is not empty, and fits. -/
theorem slice_bestCount (hcount : bestCount byteLength maxInputBytes table start ≠ 0) :
    slice table start (bestCount byteLength maxInputBytes table start) ≠ [] ∧
      (byteLength (slice table start (bestCount byteLength maxInputBytes table start)) : Int) ≤
        maxInputBytes := by
  have hlength := length_slice (bestCount_le byteLength maxInputBytes table start)
  refine ⟨fun hnil => hcount ?_, ?_⟩
  · rw [hnil] at hlength
    exact hlength.symm
  · have hfits : fits byteLength maxInputBytes table start
        (bestCount byteLength maxInputBytes table start) = true := gallop_fits hcount
    simpa only [fits, decide_eq_true_eq] using hfits

theorem splitFrom_ok (h : splitFrom byteLength maxInputBytes table start = .ok shards) :
    shards.flatten = table.drop start ∧
      ∀ s ∈ shards, s ≠ [] ∧ (byteLength s : Int) ≤ maxInputBytes := by
  induction shards generalizing start with
  | nil =>
    rcases splitFrom_step h with ⟨hend, -⟩ | ⟨rest, -, -, -, hcons⟩
    · exact ⟨(List.drop_eq_nil_of_le hend).symm, fun s hs => absurd hs List.not_mem_nil⟩
    · cases hcons
  | cons s rest ih =>
    rcases splitFrom_step h with ⟨-, hnil⟩ | ⟨rest', -, hcount, hrest, hcons⟩
    · cases hnil
    · obtain ⟨rfl, rfl⟩ := List.cons.inj hcons
      obtain ⟨hflatten, hfit⟩ := ih hrest
      refine ⟨?_, fun t ht => ?_⟩
      · rw [List.flatten_cons, hflatten, slice_append_drop]
      · rcases List.mem_cons.mp ht with rfl | ht
        · exact slice_bestCount hcount
        · exact hfit t ht

/-- **The cut loses nothing**: the shards concatenate to the table, none is empty, each fits. -/
theorem splitTable_ok (h : splitTable byteLength maxInputBytes table = .ok shards) :
    shards.flatten = table ∧ ∀ s ∈ shards, s ≠ [] ∧ (byteLength s : Int) ≤ maxInputBytes := by
  unfold splitTable at h
  split at h
  · cases h
  · simpa using splitFrom_ok h

/-! ## When the cut is refused -/

/-- The cut points that the loop comes to, from `start` on. -/
inductive Cut (byteLength : List ρ → Nat) (maxInputBytes : Int) (table : List ρ) : Nat → Nat → Prop
    where
  | here (start : Nat) : Cut byteLength maxInputBytes table start start
  | next {start point : Nat} (hstart : start < table.length)
      (hcount : bestCount byteLength maxInputBytes table start ≠ 0)
      (h : Cut byteLength maxInputBytes table
        (start + bestCount byteLength maxInputBytes table start) point) :
      Cut byteLength maxInputBytes table start point

/-- A shard gets no row exactly when its first row alone does not fit. -/
theorem bestCount_eq_zero_iff (hstart : start < table.length) :
    bestCount byteLength maxInputBytes table start = 0 ↔
      maxInputBytes < byteLength (slice table start 1) := by
  rw [bestCount, gallop_eq_zero_iff (by omega), fits, decide_eq_false_iff_not, Int.not_le]

theorem splitFrom_refused_iff (byteLength : List ρ → Nat) (maxInputBytes : Int) (table : List ρ)
    (start : Nat) : (∃ e, splitFrom byteLength maxInputBytes table start = .error e) ↔
      ∃ point, Cut byteLength maxInputBytes table start point ∧ point < table.length ∧
        maxInputBytes < byteLength (slice table point 1) := by
  fun_induction splitFrom byteLength maxInputBytes table start with
  | case1 start hstart hcount =>
    have hlarge := (bestCount_eq_zero_iff hstart).mp hcount
    exact iff_of_true ⟨_, rfl⟩ ⟨start, .here start, hstart, hlarge⟩
  | case2 start hstart hcount ih =>
    have hmap : (∃ e, (splitFrom byteLength maxInputBytes table
        (start + bestCount byteLength maxInputBytes table start)).map
          (slice table start (bestCount byteLength maxInputBytes table start) :: ·) = .error e) ↔
        ∃ e, splitFrom byteLength maxInputBytes table
          (start + bestCount byteLength maxInputBytes table start) = .error e := by
      cases splitFrom byteLength maxInputBytes table
        (start + bestCount byteLength maxInputBytes table start) <;> simp [Except.map]
    rw [hmap, ih]
    constructor
    · rintro ⟨point, hcut, hpoint, hlarge⟩
      exact ⟨point, .next hstart hcount hcut, hpoint, hlarge⟩
    · rintro ⟨point, hcut, hpoint, hlarge⟩
      cases hcut with
      | here => exact absurd ((bestCount_eq_zero_iff hstart).mpr hlarge) hcount
      | next _ _ hcut => exact ⟨point, hcut, hpoint, hlarge⟩
  | case3 start hend =>
    refine iff_of_false nofun ?_
    rintro ⟨point, hcut, hpoint, -⟩
    cases hcut with
    | here => exact hend hpoint
    | next hstart => exact hend hstart

/-- **The cut is refused** exactly when one row alone, at a cut point, is over the limit. -/
theorem splitTable_refused_iff (hmax : 0 < maxInputBytes) :
    (∃ e, splitTable byteLength maxInputBytes table = .error e) ↔
      ∃ point, Cut byteLength maxInputBytes table 0 point ∧ point < table.length ∧
        maxInputBytes < byteLength (slice table point 1) := by
  rw [splitTable, if_neg (by omega)]
  exact splitFrom_refused_iff ..

/-! ## How much a shard gets -/

/-- More rows never encode to fewer bytes. -/
def Monotone (byteLength : List ρ → Nat) (table : List ρ) : Prop :=
  ∀ start m n, m ≤ n → byteLength (slice table start m) ≤ byteLength (slice table start n)

/-- No longer prefix of what is left fits. -/
theorem le_bestCount (hmono : Monotone byteLength table) {n : Nat} (hn : n ≤ table.length - start)
    (hfits : (byteLength (slice table start n) : Int) ≤ maxInputBytes) :
    n ≤ bestCount byteLength maxInputBytes table start := by
  refine le_gallop (fun m n hmn h => ?_) hn (decide_eq_true hfits)
  have hle := hmono start m n hmn
  simp only [fits, decide_eq_true_eq] at h ⊢
  omega

theorem splitFrom_longest (hmono : Monotone byteLength table)
    (h : splitFrom byteLength maxInputBytes table start = .ok shards) {before after : List (List ρ)}
    {s : List ρ} (hshards : shards = before ++ s :: after) {n : Nat}
    (hn : n ≤ (s :: after).flatten.length)
    (hfits : (byteLength ((s :: after).flatten.take n) : Int) ≤ maxInputBytes) : n ≤ s.length := by
  induction before generalizing start shards with
  | nil =>
    -- the shard is the first: what is left is the table from `start` on
    rcases splitFrom_step h with ⟨-, hnil⟩ | ⟨rest, -, hcount, hrest, hcons⟩
    · rw [hnil] at hshards
      cases hshards
    · obtain ⟨rfl, rfl⟩ := List.cons.inj (hshards.symm.trans hcons)
      have hleft := (splitFrom_ok h).1
      rw [hcons] at hleft
      rw [hleft] at hn hfits
      rw [length_slice (bestCount_le ..)]
      exact le_bestCount hmono (by rwa [List.length_drop] at hn) hfits
  | cons t before ih =>
    rcases splitFrom_step h with ⟨-, hnil⟩ | ⟨rest, -, hcount, hrest, hcons⟩
    · rw [hnil] at hshards
      cases hshards
    · exact ih hrest (List.cons.inj (hcons.symm.trans hshards)).2

/-- **Each shard is the longest prefix that fits** of the rows not yet cut. -/
theorem splitTable_longest (hmono : Monotone byteLength table)
    (h : splitTable byteLength maxInputBytes table = .ok shards) {before after : List (List ρ)}
    {s : List ρ} (hshards : shards = before ++ s :: after) {n : Nat}
    (hn : n ≤ (s :: after).flatten.length)
    (hfits : (byteLength ((s :: after).flatten.take n) : Int) ≤ maxInputBytes) : n ≤ s.length := by
  unfold splitTable at h
  split at h
  · cases h
  · exact splitFrom_longest hmono h hshards hn hfits

end ControlPlane.Extraction
