/-
  USAGE COUNTERS: `accumulate` of `apps/billing/usage.py`, by any number of workers at once.

  A worker holds the tenant's row and the usage row until it commits, so two that add to one usage row
  exclude each other; the reset of the admin site updates a row that exists, and waits for it.  Any of
  them may die on the way, and then the database takes it back.

  1. `reading` is what the code takes a meter to be, `tally` what a job does to the meter of a row.
  2. Jobs that ran, one after the other, come to their tally (`meter_ran`).
  3. `usage_exact`: so do they in every interleaving; each that returned is counted once, and has
     returned the running total.
-/
import ControlPlane.Json
import ControlPlane.Locked
import ControlPlane.PyDict
import ControlPlane.Documents.Sections

namespace ControlPlane.Billing

open Interleave (Program)
open Locked (Jobs)
open PyStr

/-! ## Integers -/

inductive UsageError where
  | valueError (message : PyStr)
  | typeError
  | overflowError
  /-- `Tenant.DoesNotExist`. -/
  | doesNotExist
  deriving DecidableEq, Repr

/-- `int(x)` of a float or a decimal, towards zero. -/
def truncate : PyFloat → Except UsageError Int
  | .finite q => .ok (q.num.tdiv q.den)
  | .inf _ => .error .overflowError
  | .nan => .error (.valueError [])

inductive Quantity where
  | int (n : Int)
  | float (x : PyFloat)
  | decimal (x : PyFloat)

/-- `int(quantity)`. -/
def Quantity.toInt : Quantity → Except UsageError Int
  | .int n => .ok n
  | .float x | .decimal x => truncate x

/-- `int(value)` of a stored value. -/
def toInt (decimal : CodePoint → Option Nat) : Json → Except UsageError Int
  | .int n => .ok n
  | .bool b => .ok (if b then 1 else 0)
  | .float x => truncate x
  | .negZero => .ok 0
  | .str text => match Documents.intText decimal text with
      | some n => .ok n
      | none => .error (.valueError [])
  | .null | .arr _ | .obj _ => .error .typeError

/-! ## `accumulate` -/

/-- What a row of `control_usage` is unique for. -/
structure Period (τ δ : Type) where
  tenant : τ
  start : δ
  stop : δ
  deriving DecidableEq

/-- `counters`, a dict. -/
abbrev Counters := List (PyStr × Json)

variable {τ δ : Type} [DecidableEq τ] [DecidableEq δ]

section Accumulate

variable (decimal : CodePoint → Option Nat) (tenants : τ → Bool)

/-- `int(counters.get(meter, 0) or 0)`. -/
def reading (counters : Counters) (meter : PyStr) : Except UsageError Int :=
  match counters.lookup meter with
  | none => .ok 0
  | some value => if value.truthy then toInt decimal value else .ok 0

/-- The counters that `accumulate` saves, where those of the row are `stored`; a row that is missing
    is created. -/
def accumulate (period : Period τ δ) (meter : PyStr) (quantity : Quantity) (stored : Option Counters) :
    Except UsageError Counters :=
  if meter = [] then .error (.valueError (lit "meter is required"))
  else do
    let qty ← quantity.toInt
    if tenants period.tenant = false then .error .doesNotExist
    else do
      let counters := stored.getD []
      let current ← reading decimal counters meter
      return PyDict.set counters meter (.int (current + qty))

/-- What is done to a usage row. -/
inductive Job (τ δ : Type) where
  | accumulate (period : Period τ δ) (meter : PyStr) (quantity : Quantity)
  /-- `reset_usage` of the admin site, at one of its rows. -/
  | reset (period : Period τ δ)

def Job.period : Job τ δ → Period τ δ
  | .accumulate period _ _ | .reset period => period

/-- What a job writes to the row. -/
def Job.run (stored : Option Counters) : Job τ δ → Except UsageError (Option (Option Counters))
  | .accumulate period meter quantity =>
      (Billing.accumulate decimal tenants period meter quantity stored).map fun usage =>
        some (some usage)
  | .reset _ => .ok (stored.map fun _ => some [])

/-- The jobs of the control plane's workers. -/
def jobs : Jobs (Period τ δ) (Option Counters) (Job τ δ) UsageError where
  key := Job.period
  run job stored := job.run decimal tenants stored

end Accumulate

example : accumulate (δ := Nat) asciiDecimal (fun _ => true) ⟨(), 1, 31⟩ (lit "turns") (.int 2)
    (some [(lit "turns", .str (lit " 3")), (lit "tokens", .int 9)]) =
      .ok [(lit "turns", .int 5), (lit "tokens", .int 9)] := by rfl

/-! ## What a meter comes to -/

section Tally

variable (decimal : CodePoint → Option Nat)

/-- The reading of a meter of a row that may be missing. -/
def meterOf (row : Option Counters) (meter : PyStr) : Except UsageError Int :=
  reading decimal (row.getD []) meter

/-- What a job does to a meter of a row: it adds its quantity, or sets it back. -/
def tally (period : Period τ δ) (meter : PyStr) (total : Except UsageError Int) :
    Job τ δ → Except UsageError Int
  | .accumulate period' meter' quantity =>
      if period' = period ∧ meter' = meter then do return (← total) + (← quantity.toInt) else total
  | .reset period' => if period' = period then .ok 0 else total

variable {decimal} {tenants : τ → Bool} {period : Period τ δ} {meter : PyStr} {quantity : Quantity}
  {counters usage : Counters} {stored : Option Counters} {cells : Period τ δ → Option Counters}
  {log : List (Job τ δ)}

theorem reading_set {meter' : PyStr} {n : Int} : reading decimal (PyDict.set counters meter' (.int n))
    meter = if meter = meter' then .ok n else reading decimal counters meter := by
  unfold reading
  rw [PyDict.lookup_set]
  by_cases hmeter : meter = meter'
  · rw [if_pos hmeter, if_pos hmeter]
    by_cases hn : n = 0
    · rw [hn]
      rfl
    · simp [Json.truthy, hn, toInt]
  · rw [if_neg hmeter, if_neg hmeter]

omit [DecidableEq τ] [DecidableEq δ] in
/-- A call that succeeds has read the meter and adds to it. -/
theorem accumulate_ok (h : accumulate decimal tenants period meter quantity stored = .ok usage) :
    ∃ qty current, quantity.toInt = .ok qty ∧ meterOf decimal stored meter = .ok current ∧
      usage = PyDict.set (stored.getD []) meter (.int (current + qty)) := by
  unfold accumulate at h
  by_cases hmeter : meter = []
  · rw [if_pos hmeter] at h
    cases h
  rw [if_neg hmeter] at h
  cases hqty : quantity.toInt with
  | error e =>
    rw [hqty] at h
    cases h
  | ok qty =>
    simp only [hqty, bind, Except.bind] at h
    by_cases htenant : tenants period.tenant = false
    · rw [if_pos htenant] at h
      cases h
    · rw [if_neg htenant] at h
      cases hcurrent : reading decimal (stored.getD []) meter with
      | error e =>
        simp only [hcurrent] at h
        cases h
      | ok current =>
        simp only [hcurrent] at h
        cases h
        exact ⟨qty, current, rfl, hcurrent, rfl⟩

theorem tally_add {total qty : Int} (hqty : quantity.toInt = .ok qty) :
    tally period meter (.ok total) (.accumulate period meter quantity) = .ok (total + qty) := by
  rw [tally, if_pos ⟨rfl, rfl⟩, hqty]
  rfl

omit [DecidableEq τ] [DecidableEq δ] in
theorem run_accumulate {row : Option Counters}
    (h : (Job.accumulate period meter quantity).run decimal tenants stored = .ok (some row)) :
    ∃ usage, accumulate decimal tenants period meter quantity stored = .ok usage ∧
      row = some usage := by
  simp only [Job.run] at h
  cases hcall : accumulate decimal tenants period meter quantity stored with
  | error e =>
    rw [hcall] at h
    cases h
  | ok usage =>
    rw [hcall] at h
    cases h
    exact ⟨usage, rfl, rfl⟩

/-- What a job writes has its tally. -/
theorem run_tally {job : Job τ δ} {row : Option Counters}
    (h : job.run decimal tenants stored = .ok (some row)) (meter : PyStr) :
    meterOf decimal row meter = tally job.period meter (meterOf decimal stored meter) job := by
  cases job with
  | reset period =>
    cases stored with
    | none => cases h
    | some counters =>
      cases h
      rw [tally, Job.period, if_pos rfl]
      rfl
  | accumulate period meter' quantity =>
    obtain ⟨usage, hcall, rfl⟩ := run_accumulate h
    obtain ⟨qty, current, hqty, hcurrent, rfl⟩ := accumulate_ok hcall
    rw [meterOf, Option.getD_some, reading_set]
    by_cases hmeter : meter = meter'
    · subst hmeter
      rw [if_pos rfl, hcurrent, Job.period, tally_add hqty]
    · rw [if_neg hmeter, tally, if_neg fun h => hmeter h.2.symm]
      rfl

theorem tally_other {job : Job τ δ} {total : Except UsageError Int} (h : job.period ≠ period) :
    tally period meter total job = total := by
  cases job with
  | reset period' => exact if_neg h
  | accumulate period' meter' quantity => exact if_neg fun heq => h heq.1

/-- **Jobs that ran** come to their tally. -/
theorem meter_ran (h : Jobs.Ran (jobs decimal tenants) cells log) (period : Period τ δ)
    (meter : PyStr) :
    meterOf decimal ((jobs decimal tenants).value period (cells period) log) meter =
      log.foldl (tally period meter) (meterOf decimal (cells period) meter) := by
  induction h with
  | nil => rfl
  | @snoc log job row _ hrun ih =>
    rw [Jobs.value_append, List.foldl_append, List.foldl_cons, List.foldl_nil, ← ih]
    by_cases hperiod : job.period = period
    · subst hperiod
      have happly : (jobs decimal tenants).apply job
          ((jobs decimal tenants).value job.period (cells job.period) log) = row :=
        Jobs.apply_of_run hrun
      have hkey : (jobs decimal tenants).key job = job.period := rfl
      rw [if_pos hkey, happly]
      exact run_tally hrun meter
    · have hkey : (jobs decimal tenants).key job ≠ period := hperiod
      rw [if_neg hkey, tally_other hperiod]

/-! ## Every interleaving -/

/-- **No usage is lost or counted twice.**  However the calls and the resets interleave, and wherever
    they die: a meter of a usage row is the tally of what was committed, in the order of the commits;
    that is what got past its commit, each call once; and a call that returned has returned the
    counters in which its own quantity is added to the tally of what was committed before it. -/
theorem usage_exact (decimal : CodePoint → Option Nat) (tenants : τ → Bool)
    (cells : Period τ δ → Option Counters)
    {st : Interleave.Config (Locked.Store (Period τ δ) (Option Counters) (Job τ δ))
      (Locked.Proc (Option Counters) (Job τ δ) UsageError)}
    (hst : (jobs decimal tenants).program.Reach Program.Any (Jobs.fresh cells) st) :
    (∀ period meter, meterOf decimal (st.store.cells period) meter =
      st.store.written.foldl (tally period meter) (meterOf decimal (cells period) meter)) ∧
    st.store.written.Perm (st.procs.filterMap Jobs.committed) ∧
    ∀ period meter quantity stored,
      .ended (.accumulate period meter quantity) (some stored) .updated ∈ st.procs →
      ∃ earlier usage before qty, earlier ++ [.accumulate period meter quantity] <+: st.store.written ∧
        earlier.foldl (tally period meter) (meterOf decimal (cells period) meter) = .ok before ∧
        quantity.toInt = .ok qty ∧
        accumulate decimal tenants period meter quantity stored = .ok usage ∧
        usage.lookup meter = some (.int (before + qty)) := by
  have hran := Jobs.ran hst
  refine ⟨fun period meter => ?_, Jobs.counted hst, fun period meter quantity stored hp => ?_⟩
  · rw [Jobs.replayed hst]
    exact meter_ran hran period meter
  · obtain ⟨hplaced, htold⟩ := Jobs.seen_earlier hst _ hp
    obtain ⟨earlier, rfl, hearlier⟩ := hplaced _ _ rfl
    obtain ⟨row, hrun⟩ := htold
    have hbefore : Jobs.Ran (jobs decimal tenants) cells earlier :=
      hran.earlier ((List.prefix_append _ _).trans hearlier)
    obtain ⟨usage, husage, -⟩ := run_accumulate hrun
    obtain ⟨qty, current, hqty, hcurrent, rfl⟩ := accumulate_ok husage
    refine ⟨earlier, _, current, qty, hearlier, ?_, hqty, husage, ?_⟩
    · rw [← meter_ran hbefore, ← hcurrent]
      rfl
    · rw [PyDict.lookup_set, if_pos rfl]

/-- Three turns in a month, and two more. -/
def month : Period Unit Nat := ⟨(), 1, 31⟩

def turns (n : Int) : Job Unit Nat := .accumulate month (lit "turns") (.int n)

def counted (n : Int) : Option Counters := some [(lit "turns", .int n)]

/-- Two workers have added to one meter. -/
def added : Interleave.Config (Locked.Store (Period Unit Nat) (Option Counters) (Job Unit Nat))
    (Locked.Proc (Option Counters) (Job Unit Nat) UsageError) :=
  ⟨((((((Locked.Store.mk (fun _ => none) (fun _ => false) []).lock month).write month (counted 3)
      (turns 3)).unlock month).lock month).write month (counted 5) (turns 2)).unlock month,
    [.ended (turns 3) (some none) .updated, .ended (turns 2) (some (counted 3)) .updated]⟩

theorem added_reach : (jobs asciiDecimal fun _ => true).program.Reach Program.Any
    (Jobs.fresh fun _ => none) added :=
  Program.run_reach _ [.spawn (.waiting (turns 3)), .act 0 .go, .spawn (.waiting (turns 2)),
    .act 0 .go, .act 0 .go, .act 0 .go, .act 1 .go, .act 1 .go, .act 1 .go, .act 1 .go] rfl

theorem usage_exact_added :
    meterOf asciiDecimal (added.store.cells month) (lit "turns") = .ok 5 :=
  (usage_exact asciiDecimal (fun _ => true) (fun _ => none) added_reach).1 month (lit "turns")

end Tally

end ControlPlane.Billing
