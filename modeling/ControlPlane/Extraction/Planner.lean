/-
  PLANNING: `plan_shards`, `discard_plans` and `replan_shard` of `apps/extraction/planner.py`, with the
  objects they put into the bucket and delete again.

  What goes wrong is a parameter: `Faults` says which cut, which write and which deletion fails, and a
  `Source` yields some tables and then ends or raises.  A write that fails stores nothing; a deletion
  that fails may have deleted.  The ids of a planning attempt are new, so nothing is stored under
  its keys yet.

  * A plan that is returned CONSERVES its source: its tables concatenate to the source rows
    (`planning_conserves`), and it is a `Plan` of the ledger (`planShards_plan`).
  * A call that raises LEAVES the bucket as it was and raises what went wrong, unless a deletion
    failed (`failed_planning_undone`).
-/
import ControlPlane.Bucket
import ControlPlane.Extraction.Split
import ControlPlane.Extraction.Program

namespace ControlPlane.Extraction

open ControlPlane.Bucket

variable {ρ : Type}

/-! ## What is fixed, and what goes wrong -/

/-- One planning attempt: whose it is, what the Arrow encoder makes of a table, and the limit. -/
structure Planning (ρ : Type) where
  tenantId : String
  jobId : String
  planningId : String
  /-- `len(encode_arrow_ipc(table))`. -/
  byteLength : List ρ → Nat
  /-- `sha256_digest(encode_arrow_ipc(table))`. -/
  payloadDigest : List ρ → String
  /-- `arrow_schema_json(table.schema)`. -/
  schemaJson : List ρ → String
  maxInputBytes : Int

/-- `_input_key`. -/
def Planning.inputKey (c : Planning ρ) (index : Nat) : String :=
  "tenants/" ++ c.tenantId ++ "/extraction/" ++ c.jobId ++ "/in/" ++ c.planningId ++ "/" ++
    toString index ++ ".arrow"

structure ShardPlan where
  index : Nat
  artifactKey : String
  payloadDigest : String
  schemaJson : String
  rows : Nat
  byteLength : Nat
  deriving DecidableEq, Repr

/-- What `_write_plan` returns. -/
def Planning.shardPlan (c : Planning ρ) (index : Nat) (table : List ρ) : ShardPlan where
  index := index
  artifactKey := c.inputKey index
  payloadDigest := c.payloadDigest table
  schemaJson := c.schemaJson table
  rows := table.length
  byteLength := c.byteLength table

/-- What the store answers to a deletion; one that fails may have had its effect. -/
inductive Deletion where
  | done
  | failed (effect : Bool)
  deriving DecidableEq, Repr

/-- Which calls fail: the cut of the n-th table (its encoder raises), the n-th write (its encoder
    or the store raises, and nothing is stored), the deletion of the artifact with this index. -/
structure Faults where
  cut : Nat → Option PlanError
  write : Nat → Option PlanError
  delete : Nat → Deletion

/-- What `_source_tables` yields, and what it raises then. -/
structure Source (ρ : Type) where
  tables : List (List ρ)
  ending : Option PlanError

/-- The plans written so far, and the bucket. -/
structure Attempt (ρ : Type) where
  plans : List ShardPlan
  objects : Objects (List ρ)

/-! ## plan_shards -/

/-- `plans.append(_write_plan(…))`. -/
def Attempt.write (c : Planning ρ) (a : Attempt ρ) (index : Nat) (table : List ρ) : Attempt ρ where
  plans := a.plans ++ [c.shardPlan index table]
  objects := put a.objects (c.inputKey index) table

/-- The inner loop: the shards of one table, each under the next index. -/
def writeShards (c : Planning ρ) (f : Faults) (a : Attempt ρ) :
    List (List ρ) → Attempt ρ × Option PlanError
  | [] => (a, none)
  | table :: rest => match f.write a.plans.length with
    | some e => (a, some e)
    | none => writeShards c f (a.write c a.plans.length table) rest

/-- `_split_table` on the table number `position`. -/
def cutTable (c : Planning ρ) (f : Faults) (position : Nat) (table : List ρ) :
    Except PlanError (List (List ρ)) :=
  match f.cut position with
  | some e => .error e
  | none => splitTable c.byteLength c.maxInputBytes table

/-- The outer loop. -/
def planTables (c : Planning ρ) (f : Faults) (ending : Option PlanError) (a : Attempt ρ)
    (position : Nat) : List (List ρ) → Attempt ρ × Option PlanError
  | [] => (a, ending)
  | table :: rest => match cutTable c f position table with
    | .error e => (a, some e)
    | .ok shards => match writeShards c f a shards with
      | (a, some e) => (a, some e)
      | (a, none) => planTables c f ending a (position + 1) rest

/-- The body of the `try`: what was planned, and what was raised. -/
def planAttempt (c : Planning ρ) (f : Faults) (source : Source ρ) (objects : Objects (List ρ)) :
    Attempt ρ × Option PlanError :=
  match planTables c f source.ending ⟨[], objects⟩ 0 source.tables with
  | (a, some e) => (a, some e)
  | (a, none) => if a.plans = [] then writeShards c f a [[]] else (a, none)

/-- The loop of `discard_plans`, over the plans in the order it deletes them; `true` says that a
    deletion failed. -/
def discardLoop (f : Faults) : List ShardPlan → Objects (List ρ) → Objects (List ρ) × Bool
  | [], objects => (objects, false)
  | plan :: rest, objects => match f.delete plan.index with
    | .done => discardLoop f rest (delete objects plan.artifactKey)
    | .failed effect =>
        ((discardLoop f rest (if effect then delete objects plan.artifactKey else objects)).1, true)

/-- `discard_plans` in an `except` clause, which raises what it handles or that it could not. -/
def discardPlans (f : Faults) (a : Attempt ρ) (original : PlanError) (failure : String) :
    PlanError × Objects (List ρ) :=
  match discardLoop f a.plans.reverse a.objects with
  | (objects, false) => (original, objects)
  | (objects, true) => (.storage failure, objects)

/-- `plan_shards`. -/
def planShards (c : Planning ρ) (f : Faults) (source : Source ρ) (objects : Objects (List ρ)) :
    Except PlanError (List ShardPlan) × Objects (List ρ) :=
  match planAttempt c f source objects with
  | (a, none) => (.ok a.plans, a.objects)
  | (a, some original) =>
      let (e, objects) := discardPlans f a original
        "artifact storage cleanup failed after extraction planning"
      (.error e, objects)

/-! ## replan_shard -/

/-- What fails besides: reading the refused artifact, the locks, the creation of the n-th row, and
    the last save or the commit. -/
structure ReplanFaults extends Faults where
  read : Option PlanError
  lock : Option PlanError
  create : Nat → Option PlanError
  commit : Option PlanError

/-- The loop over the two replacements: an artifact, then a row. -/
def writeReplacements (c : Planning Nat) (f : ReplanFaults) (a : Attempt Nat) :
    List Shard → Attempt Nat × Option PlanError
  | [] => (a, none)
  | s :: rest => match f.write a.plans.length with
    | some e => (a, some e)
    | none =>
        let a := a.write c s.index s.input
        match f.create a.plans.length with
        | some e => (a, some e)
        | none => writeReplacements c f a rest

/-- The body of the `try`: the transaction, which commits the ledger it returns. -/
def replanAttempt (c : Planning Nat) (cfg : Settings) (f : ReplanFaults) (l : Ledger) (s : Shard)
    (objects : Objects (List Nat)) : Attempt Nat × Except PlanError (Ledger × List Shard) :=
  match f.lock, l.shard? s.index with
  | some e, _ => (⟨[], objects⟩, .error e)
  | none, none => (⟨[], objects⟩, .error (.other "ExtractionShard matching query does not exist."))
  | none, some locked =>
      if locked.status = .superseded then (⟨[], objects⟩, .ok (l, []))
      else match writeReplacements c f ⟨[], objects⟩ (l.replacements s) with
        | (a, some e) => (a, .error e)
        | (a, none) => match f.commit with
          | some e => (a, .error e)
          | none => (a, .ok (l.apply cfg (.replan s), l.replacements s))

/-- What `replan_shard` raises before its `try`. -/
def replanRefusal (f : ReplanFaults) (s : Shard) : Option PlanError :=
  match f.read with
  | some e => some e
  | none =>
      if s.input.length < 2 then some (.planning "a one-row shard cannot be split further")
      else none

/-- `replan_shard`: the rows it returns, the ledger and the bucket. -/
def replanShard (c : Planning Nat) (cfg : Settings) (f : ReplanFaults) (l : Ledger) (s : Shard)
    (objects : Objects (List Nat)) :
    Except PlanError (List Shard) × Ledger × Objects (List Nat) :=
  match replanRefusal f s with
  | some e => (.error e, l, objects)
  | none => match replanAttempt c cfg f l s objects with
    | (a, .ok (l', created)) => (.ok created, l', a.objects)
    | (a, .error original) =>
        let (e, objects) := discardPlans f.toFaults a original
          "artifact storage cleanup failed after shard replanning"
        (.error e, l, objects)

variable {c : Planning ρ} {f : Faults} {a a' : Attempt ρ} {shards : List (List ρ)}
  {objects objects' : Objects (List ρ)}

/-! ## What is planned is stored -/

/-- Index and key determine each other. -/
theorem inputKey_inj {i j : Nat} (h : c.inputKey i = c.inputKey j) : i = j := by
  have hrepr := (String.append_right_inj _).mp ((String.append_left_inj _).mp h)
  have hdigits := congrArg String.toList hrepr
  rw [Nat.toString_eq_repr, Nat.toString_eq_repr, Nat.toList_repr, Nat.toList_repr] at hdigits
  rw [← Nat.ofDigitChars_ten_toDigits (n := i), hdigits, Nat.ofDigitChars_ten_toDigits]

/-- The plans are those of these tables, in order, and each table is stored under its key. -/
structure Stored (c : Planning ρ) (plans : List ShardPlan) (objects : Objects (List ρ))
    (shards : List (List ρ)) : Prop where
  plans : plans = shards.mapIdx c.shardPlan
  stored : ∀ i table, shards[i]? = some table → get objects (c.inputKey i) = some table

theorem Stored.length {plans : List ShardPlan} (h : Stored c plans objects shards) :
    plans.length = shards.length := by
  rw [h.plans, List.length_mapIdx]

theorem Stored.write (h : Stored c a.plans a.objects shards) (table : List ρ) :
    Stored c (a.write c a.plans.length table).plans (a.write c a.plans.length table).objects
      (shards ++ [table]) := by
  constructor
  · rw [Attempt.write, h.plans, List.mapIdx_append, List.length_mapIdx]
    simp
  · intro i t hi
    rw [Attempt.write, h.length]
    rcases Nat.lt_trichotomy i shards.length with hlt | rfl | hgt
    · -- an earlier shard is stored under another key
      rw [List.getElem?_append_left hlt] at hi
      rw [get_put_of_ne fun hkey => absurd (inputKey_inj hkey) (Nat.ne_of_lt hlt)]
      exact h.stored i t hi
    · obtain rfl : table = t := by simpa using hi
      exact get_put
    · rw [List.getElem?_eq_none (by simp; omega)] at hi
      cases hi

theorem writeShards_stored {tables : List (List ρ)} (h : writeShards c f a tables = (a', none))
    (hstored : Stored c a.plans a.objects shards) :
    Stored c a'.plans a'.objects (shards ++ tables) := by
  induction tables generalizing a shards with
  | nil =>
    cases h
    rwa [List.append_nil]
  | cons table rest ih =>
    rw [writeShards] at h
    split at h
    · cases h
    · simpa using ih h (hstored.write table)

theorem cutTable_ok {position : Nat} {table : List ρ} (h : cutTable c f position table = .ok shards) :
    splitTable c.byteLength c.maxInputBytes table = .ok shards := by
  unfold cutTable at h
  split at h
  · cases h
  · exact h

theorem planTables_stored {ending : Option PlanError} {position : Nat} {tables : List (List ρ)}
    (h : planTables c f ending a position tables = (a', none))
    (hstored : Stored c a.plans a.objects shards) :
    ∃ more, Stored c a'.plans a'.objects (shards ++ more) ∧ more.flatten = tables.flatten ∧
      ∀ s ∈ more, s ≠ [] := by
  induction tables generalizing a shards position with
  | nil =>
    cases h
    exact ⟨[], by rwa [List.append_nil], rfl, fun _ hs => absurd hs List.not_mem_nil⟩
  | cons table rest ih =>
    rw [planTables] at h
    split at h
    · cases h
    · rename_i cut hcut
      obtain ⟨hflatten, hfit⟩ := splitTable_ok (cutTable_ok hcut)
      split at h
      · cases h
      · rename_i hwrite
        obtain ⟨more, hmore, hrest, hnonempty⟩ := ih h (writeShards_stored hwrite hstored)
        refine ⟨cut ++ more, by rwa [← List.append_assoc], ?_, fun s hs => ?_⟩
        · rw [List.flatten_append, List.flatten_cons, hflatten, hrest]
        · rcases List.mem_append.mp hs with hs | hs
          · exact (hfit s hs).1
          · exact hnonempty s hs

/-- What an attempt that raises nothing has planned. -/
theorem planAttempt_stored {source : Source ρ}
    (h : planAttempt c f source objects = (a', none)) :
    ∃ shards, Stored c a'.plans a'.objects shards ∧ shards.flatten = source.tables.flatten ∧
      shards ≠ [] ∧ (source.tables.flatten = [] → shards = [[]]) := by
  have hnone : Stored c [] objects ([] : List (List ρ)) := ⟨rfl, fun i table hi => by simp at hi⟩
  unfold planAttempt at h
  split at h
  · cases h
  · rename_i mid htables
    obtain ⟨shards, hstored, hflatten, hnonempty⟩ := planTables_stored htables hnone
    rw [List.nil_append] at hstored
    have hempty : shards = [] ↔ source.tables.flatten = [] := by
      rw [← hflatten, List.flatten_eq_nil_iff]
      constructor
      · rintro rfl
        exact fun s hs => absurd hs List.not_mem_nil
      · intro hall
        exact List.eq_nil_iff_forall_not_mem.mpr fun s hs => hnonempty s hs (hall s hs)
    split at h
    · rename_i hplans
      have hnil : shards = [] := List.length_eq_zero_iff.mp (by rw [← hstored.length, hplans]; rfl)
      subst hnil
      refine ⟨[[]], writeShards_stored h hstored, ?_, by simp, fun _ => rfl⟩
      exact (hempty.mp rfl).symm
    · rename_i hplans
      cases h
      have hne : shards ≠ [] := by
        rintro rfl
        exact hplans hstored.plans
      exact ⟨shards, hstored, hflatten, hne, fun hnil => absurd (hempty.mpr hnil) hne⟩

theorem planShards_ok {source : Source ρ} {plans : List ShardPlan}
    (h : planShards c f source objects = (.ok plans, objects')) :
    planAttempt c f source objects = (⟨plans, objects'⟩, none) := by
  unfold planShards at h
  split at h
  · rename_i hattempt
    cases h
    exact hattempt
  · cases h

/-- Two rows that encode to a byte each; a byte is all that fits. -/
def toyPlanning : Planning Nat where
  tenantId := "tenant"
  jobId := "job"
  planningId := "planning"
  byteLength := List.length
  payloadDigest _ := ""
  schemaJson _ := ""
  maxInputBytes := 1

def noFaults : Faults := ⟨fun _ => none, fun _ => none, fun _ => .done⟩

/-- A replan in which nothing goes wrong. -/
def noReplanFaults : ReplanFaults :=
  { noFaults with read := none, lock := none, create := fun _ => none, commit := none }

/-- What `plan_shards` returns for a source of `n` rows is a plan of the ledger. -/
theorem planShards_plan {c : Planning Nat} {source : Source Nat} {objects objects' : Objects (List Nat)}
    {plans : List ShardPlan} {n : Nat} (hrows : source.tables.flatten = List.range n)
    (h : planShards c f source objects = (.ok plans, objects')) :
    ∃ plan : Plan, plan.rows = n ∧ Stored c plans objects' plan.tables := by
  obtain ⟨shards, hstored, hflatten, hne, -⟩ := planAttempt_stored (planShards_ok h)
  exact ⟨⟨n, shards, hne, hflatten.trans hrows⟩, rfl, hstored⟩

/-! ## What a failed call leaves -/

/-- The keys of the plans written so far. -/
def Attempt.keys (a : Attempt ρ) : List String := a.plans.map ShardPlan.artifactKey

/-- The attempt has changed the bucket at its own keys only. -/
structure Within (c : Planning ρ) (objects : Objects (List ρ)) (a : Attempt ρ) : Prop where
  own : ∀ plan ∈ a.plans, plan.artifactKey = c.inputKey plan.index
  same : clear a.objects a.keys = clear objects a.keys

theorem clear_append (objects : Objects (List ρ)) (keys more : List String) :
    clear objects (keys ++ more) = clear (clear objects keys) more := by
  rw [clear, clear, clear, List.filter_filter]
  refine List.filter_congr fun o _ => ?_
  simp [not_or, Bool.and_comm]

theorem Within.write (h : Within c objects a) (index : Nat) (table : List ρ) :
    Within c objects (a.write c index table) := by
  constructor
  · intro plan hplan
    rcases List.mem_append.mp hplan with hplan | hplan
    · exact h.own plan hplan
    · rw [List.mem_singleton.mp hplan]
      rfl
  · have hkeys : (a.write c index table).keys = a.keys ++ [c.inputKey index] := by
      simp [Attempt.keys, Attempt.write, Planning.shardPlan]
    rw [hkeys, Attempt.write, clear_put (by simp), clear_append, clear_append, h.same]

theorem writeShards_within {tables : List (List ρ)} {raised : Option PlanError}
    (h : writeShards c f a tables = (a', raised)) (hwithin : Within c objects a) :
    Within c objects a' := by
  induction tables generalizing a with
  | nil =>
    cases h
    exact hwithin
  | cons table rest ih =>
    rw [writeShards] at h
    split at h
    · cases h
      exact hwithin
    · exact ih h (hwithin.write _ table)

theorem planTables_within {ending raised : Option PlanError} {position : Nat}
    {tables : List (List ρ)} (h : planTables c f ending a position tables = (a', raised))
    (hwithin : Within c objects a) : Within c objects a' := by
  induction tables generalizing a position with
  | nil =>
    cases h
    exact hwithin
  | cons table rest ih =>
    rw [planTables] at h
    split at h
    · cases h
      exact hwithin
    · split at h
      · rename_i hwrite
        cases h
        exact writeShards_within hwrite hwithin
      · rename_i hwrite
        exact ih h (writeShards_within hwrite hwithin)

theorem Within.empty (c : Planning ρ) (objects : Objects (List ρ)) : Within c objects ⟨[], objects⟩ :=
  ⟨fun _ h => absurd h List.not_mem_nil, rfl⟩

theorem planAttempt_within {source : Source ρ} {raised : Option PlanError}
    (h : planAttempt c f source objects = (a', raised)) : Within c objects a' := by
  unfold planAttempt at h
  split at h
  · rename_i htables
    cases h
    exact planTables_within htables (.empty c objects)
  · rename_i htables
    have hmid := planTables_within htables (.empty c objects)
    split at h
    · exact writeShards_within h hmid
    · cases h
      exact hmid

theorem writeReplacements_within {c : Planning Nat} {f : ReplanFaults} {a a' : Attempt Nat}
    {objects : Objects (List Nat)} {created : List Shard} {raised : Option PlanError}
    (h : writeReplacements c f a created = (a', raised)) (hwithin : Within c objects a) :
    Within c objects a' := by
  induction created generalizing a with
  | nil =>
    cases h
    exact hwithin
  | cons s rest ih =>
    rw [writeReplacements] at h
    split at h
    · cases h
      exact hwithin
    · dsimp only at h
      split at h
      · cases h
        exact hwithin.write ..
      · exact ih h (hwithin.write ..)

theorem replanAttempt_within {c : Planning Nat} {cfg : Settings} {f : ReplanFaults} {l : Ledger}
    {s : Shard} {objects : Objects (List Nat)} {a : Attempt Nat}
    {outcome : Except PlanError (Ledger × List Shard)}
    (h : replanAttempt c cfg f l s objects = (a, outcome)) : Within c objects a := by
  unfold replanAttempt at h
  split at h
  · cases h
    exact .empty c objects
  · cases h
    exact .empty c objects
  · split at h
    · cases h
      exact .empty c objects
    · split at h
      · rename_i hwrite
        cases h
        exact writeReplacements_within hwrite (.empty c objects)
      · rename_i hwrite
        have hwithin := writeReplacements_within hwrite (.empty c objects)
        split at h
        · cases h
          exact hwithin
        · cases h
          exact hwithin

/-! ## What the cleanup takes back -/

/-- The loop keeps all that is not under its keys; under them it leaves what it failed to delete,
    and when no deletion failed, nothing. -/
theorem discardLoop_spec {plans : List ShardPlan} {failed : Bool}
    (h : discardLoop f plans objects = (objects', failed)) :
    (failed = false → objects' = clear objects (plans.map ShardPlan.artifactKey)) ∧
      (failed = true ↔ ∃ plan ∈ plans, f.delete plan.index ≠ .done) ∧
      clear objects (plans.map ShardPlan.artifactKey) ⊆ objects' ∧
      ∀ o ∈ objects', o ∈ objects ∧ ∀ plan ∈ plans, plan.artifactKey = o.1 →
        ∃ left ∈ plans, left.artifactKey = o.1 ∧ f.delete left.index ≠ .done := by
  induction plans generalizing objects failed with
  | nil =>
    cases h
    exact ⟨fun _ => clear_nil.symm, by simp, fun o ho => (List.mem_filter.mp ho).1,
      fun o ho => ⟨ho, fun _ hplan => absurd hplan List.not_mem_nil⟩⟩
  | cons plan rest ih =>
    rw [discardLoop] at h
    cases hdelete : f.delete plan.index with
    | done =>
      simp only [hdelete] at h
      obtain ⟨hall, hfailed, hsub, hleft⟩ := ih h
      rw [clear_delete] at hall hsub
      refine ⟨hall, by simp [hfailed, hdelete], hsub, fun o ho => ?_⟩
      obtain ⟨hmem, hown⟩ := hleft o ho
      obtain ⟨hmem, hne⟩ := mem_delete.mp hmem
      refine ⟨hmem, fun p hp hkey => ?_⟩
      rcases List.mem_cons.mp hp with rfl | hp
      · exact absurd hkey.symm hne
      · obtain ⟨left, hmemLeft, hrest⟩ := hown p hp hkey
        exact ⟨left, List.mem_cons_of_mem _ hmemLeft, hrest⟩
    | failed effect =>
      simp only [hdelete, Prod.mk.injEq] at h
      obtain ⟨rfl, rfl⟩ := h
      have hne : f.delete plan.index ≠ .done := by rw [hdelete]; exact nofun
      obtain ⟨-, -, hsub, hleft⟩ := ih (Prod.mk.eta (p := discardLoop f rest
        (if effect then delete objects plan.artifactKey else objects))).symm
      refine ⟨nofun, iff_of_true rfl ⟨plan, List.mem_cons_self, hne⟩, fun o ho => hsub ?_,
        fun o ho => ?_⟩
      · obtain ⟨hmem, hkeys⟩ := List.mem_filter.mp ho
        simp only [List.map_cons, List.mem_cons, not_or, decide_eq_true_eq] at hkeys
        refine List.mem_filter.mpr ⟨?_, decide_eq_true hkeys.2⟩
        split
        · exact mem_delete.mpr ⟨hmem, hkeys.1⟩
        · exact hmem
      · obtain ⟨hmem, hown⟩ := hleft o ho
        have hmem' : o ∈ objects := by
          split at hmem
          · exact (mem_delete.mp hmem).1
          · exact hmem
        refine ⟨hmem', fun p hp hkey => ?_⟩
        rcases List.mem_cons.mp hp with rfl | hp
        · exact ⟨p, List.mem_cons_self, hkey, hne⟩
        · obtain ⟨left, hmemLeft, hrest⟩ := hown p hp hkey
          exact ⟨left, List.mem_cons_of_mem _ hmemLeft, hrest⟩

/-- What the law asks of a call that raises: it left the bucket as it was, and raises what went
    wrong; or deletions failed, it says so, and what it left beside the old objects is what they
    failed to delete. -/
def Undone (f : Faults) (plans : List ShardPlan) (original raised : PlanError)
    (objects objects' : Objects (List ρ)) : Prop :=
  ((∀ plan ∈ plans, f.delete plan.index = .done) ∧ raised = original ∧ objects' = objects) ∨
    ((∃ plan ∈ plans, f.delete plan.index ≠ .done) ∧ (∃ detail, raised = .storage detail) ∧
      objects ⊆ objects' ∧ ∀ o ∈ objects', o ∈ objects ∨
        ∃ plan ∈ plans, plan.artifactKey = o.1 ∧ f.delete plan.index ≠ .done)

theorem discardPlans_undone {original raised : PlanError} {failure : String}
    (hfree : ∀ index, Free objects (c.inputKey index)) (hwithin : Within c objects a)
    (h : discardPlans f a original failure = (raised, objects')) :
    Undone f a.plans original raised objects objects' := by
  have hclear : clear a.objects (a.plans.reverse.map ShardPlan.artifactKey) = objects := by
    have hreverse : clear a.objects (a.plans.reverse.map ShardPlan.artifactKey) =
        clear a.objects a.keys := by
      refine List.filter_congr fun o _ => ?_
      simp [Attempt.keys]
    rw [hreverse, hwithin.same]
    refine clear_free fun key hkey => ?_
    obtain ⟨plan, hplan, rfl⟩ := List.mem_map.mp hkey
    rw [hwithin.own plan hplan]
    exact hfree plan.index
  unfold discardPlans at h
  split at h
  · rename_i hloop
    cases h
    obtain ⟨hall, hfailed, -⟩ := discardLoop_spec hloop
    refine Or.inl ⟨fun plan hplan => ?_, rfl, (hall rfl).trans hclear⟩
    by_contra hne
    have hfailed' := hfailed.mpr ⟨plan, List.mem_reverse.mpr hplan, hne⟩
    cases hfailed'
  · rename_i hloop
    cases h
    obtain ⟨-, hfailed, hsub, hleft⟩ := discardLoop_spec hloop
    obtain ⟨plan, hplan, hne⟩ := hfailed.mp rfl
    refine Or.inr ⟨⟨plan, List.mem_reverse.mp hplan, hne⟩, ⟨failure, rfl⟩,
      hclear ▸ hsub, fun o ho => ?_⟩
    obtain ⟨hmem, hown⟩ := hleft o ho
    by_cases hkey : o.1 ∈ a.keys
    · obtain ⟨p, hp, hpkey⟩ := List.mem_map.mp hkey
      obtain ⟨left, hmemLeft, hrest⟩ := hown p (List.mem_reverse.mpr hp) hpkey
      exact Or.inr ⟨left, List.mem_reverse.mp hmemLeft, hrest⟩
    · -- not under a key of the attempt: it was there before
      have hkept : o ∈ clear a.objects a.keys := List.mem_filter.mpr ⟨hmem, decide_eq_true hkey⟩
      rw [hwithin.same] at hkept
      exact Or.inl (List.mem_filter.mp hkept).1

/-- **A failed call is undone.**  Under new keys, `plan_shards` and `replan_shard` that raise leave
    the bucket as it was and raise what went wrong, or a deletion failed and they leave what it
    failed to delete; and `replan_shard` leaves the ledger as it was. -/
theorem failed_planning_undone :
    (∀ (c : Planning ρ) (f : Faults) (source : Source ρ) (objects objects' : Objects (List ρ))
      (raised : PlanError), (∀ index, Free objects (c.inputKey index)) →
      planShards c f source objects = (.error raised, objects') →
      ∃ a original, planAttempt c f source objects = (a, some original) ∧
        Undone f a.plans original raised objects objects') ∧
    ∀ (c : Planning Nat) (cfg : Settings) (f : ReplanFaults) (l l' : Ledger) (s : Shard)
      (objects objects' : Objects (List Nat)) (raised : PlanError),
      (∀ index, Free objects (c.inputKey index)) →
      replanShard c cfg f l s objects = (.error raised, l', objects') →
      l' = l ∧ ((replanRefusal f s = some raised ∧ objects' = objects) ∨
        ∃ a original, replanAttempt c cfg f l s objects = (a, .error original) ∧
          Undone f.toFaults a.plans original raised objects objects') := by
  constructor
  · intro c f source objects objects' raised hfree h
    unfold planShards at h
    split at h
    · cases h
    · rename_i a original hattempt
      cases h
      exact ⟨a, original, hattempt, discardPlans_undone hfree (planAttempt_within hattempt) rfl⟩
  · intro c cfg f l l' s objects objects' raised hfree h
    unfold replanShard at h
    split at h
    · rename_i hrefusal
      cases h
      exact ⟨rfl, Or.inl ⟨hrefusal, rfl⟩⟩
    · split at h
      · cases h
      · rename_i a original hattempt
        cases h
        exact ⟨rfl, Or.inr ⟨a, original, hattempt,
          discardPlans_undone hfree (replanAttempt_within hattempt) rfl⟩⟩

/-- Something else is stored. -/
def toyObjects : Objects (List Nat) := [("other", [9])]

def storageDown : PlanError := .storage "artifact storage write failed"

/-- The second write fails. -/
def secondWrite : Faults :=
  { noFaults with write := fun n => if n = 1 then some storageDown else none }

def refusedLedger : Ledger := { shards := [{ index := 0, input := [7, 8], status := .failed }] }

def replanFaults : ReplanFaults := { secondWrite with
  read := none
  lock := none
  create := fun _ => none
  commit := none }

/-- In both functions the first artifact is deleted again. -/
theorem failed_planning_undone_two :
    (∃ a original, planAttempt toyPlanning secondWrite ⟨[[7, 8]], none⟩ toyObjects =
        (a, some original) ∧
      Undone secondWrite a.plans original storageDown toyObjects toyObjects) ∧
    ∃ a original, replanAttempt toyPlanning toySettings replanFaults refusedLedger
        { index := 0, input := [7, 8] } toyObjects = (a, .error original) ∧
      Undone secondWrite a.plans original storageDown toyObjects toyObjects := by
  have hfree : ∀ index, Free toyObjects (toyPlanning.inputKey index) := by
    intro index o ho heq
    obtain rfl := List.mem_singleton.mp ho
    have hhead : Text.startswith (toyPlanning.inputKey index) "tenants/" = true := by
      rw [Planning.inputKey]
      simp only [String.append_assoc]
      exact Text.startswith_append ..
    rw [← heq] at hhead
    exact absurd hhead (by decide +kernel)
  have hlaw := failed_planning_undone (ρ := Nat)
  refine ⟨hlaw.1 _ _ _ _ _ _ hfree (by decide +kernel), ?_⟩
  have hreplan := hlaw.2 toyPlanning toySettings replanFaults refusedLedger refusedLedger
    { index := 0, input := [7, 8] } toyObjects toyObjects storageDown hfree (by decide +kernel)
  exact hreplan.2.resolve_left fun hrefusal => absurd hrefusal.1 (by decide)

end ControlPlane.Extraction
