/-
  CREDIT: `credit_allowance` of `apps/billing/credit.py`, read at any moment while the workers add to the
  meters.

  The row that covers the day is the period, the one that starts last where several do; without one the
  period is the calendar month.  A meter that cannot be read counts as nothing spent.

  1. `Date` is a day of the Gregorian calendar; the calendar month of a day covers it.
  2. `creditAllowance` is the two queries on the tables, in whatever order these have their rows.
  3. `allowance_exact`: what it reports as spent is the tally of what was committed to that period.
-/
import Mathlib.Data.Nat.Digits.Lemmas
import Mathlib.Data.Prod.Lex
import ControlPlane.Sorting
import ControlPlane.Billing.Usage

namespace ControlPlane.Billing

open Interleave (Program)
open Locked (Jobs)
open PyStr Sorting

/-! ## Days -/

def isLeap (year : Nat) : Bool := year % 4 = 0 ∧ (year % 100 ≠ 0 ∨ year % 400 = 0)

/-- The second value of `calendar.monthrange`. -/
def monthLength (year month : Nat) : Nat :=
  if month = 2 then if isLeap year then 29 else 28
  else if month = 4 ∨ month = 6 ∨ month = 9 ∨ month = 11 then 30
  else 31

theorem monthLength_pos (year month : Nat) : 1 ≤ monthLength year month := by
  unfold monthLength
  repeat' split
  all_goals omega

/-- `datetime.date`. -/
@[ext]
structure Date where
  year : Nat
  month : Nat
  day : Nat
  year_mem : 1 ≤ year ∧ year ≤ 9999
  month_mem : 1 ≤ month ∧ month ≤ 12
  day_mem : 1 ≤ day ∧ day ≤ monthLength year month
  deriving DecidableEq

/-- Year, month and day, in the order in which they count. -/
def Date.parts (d : Date) : ℕ ×ₗ ℕ ×ₗ ℕ := toLex (d.year, toLex (d.month, d.day))

theorem Date.parts_injective : Function.Injective Date.parts := by
  intro a b h
  obtain ⟨hyear, hrest⟩ := Prod.mk.inj h
  obtain ⟨hmonth, hday⟩ := Prod.mk.inj hrest
  exact Date.ext hyear hmonth hday

instance : LinearOrder Date := LinearOrder.lift' Date.parts Date.parts_injective

namespace Date

variable {a b : Date}

theorem le_iff : a ≤ b ↔ a.year < b.year ∨ a.year = b.year ∧
    (a.month < b.month ∨ a.month = b.month ∧ a.day ≤ b.day) := by
  change a.parts ≤ b.parts ↔ _
  rw [parts, parts, Prod.Lex.toLex_le_toLex, Prod.Lex.toLex_le_toLex]

/-- `calendar_period`: the month of the day. -/
def calendarPeriod (today : Date) : Date × Date :=
  ({ today with day := 1, day_mem := ⟨le_rfl, monthLength_pos _ _⟩ },
    { today with day := monthLength today.year today.month, day_mem := ⟨monthLength_pos _ _, le_rfl⟩ })

theorem calendarPeriod_covers (today : Date) :
    (calendarPeriod today).1 ≤ today ∧ today ≤ (calendarPeriod today).2 :=
  ⟨le_iff.mpr (.inr ⟨rfl, .inr ⟨rfl, today.day_mem.1⟩⟩),
    le_iff.mpr (.inr ⟨rfl, .inr ⟨rfl, today.day_mem.2⟩⟩)⟩

end Date

/-! ## What is spent -/

/-- `Decimal(n)` in a calculation: 28 significant digits are kept, half to even. -/
def prec (n : Int) : ℚ :=
  let drop := (Nat.digits 10 n.natAbs).length - 28
  PyFloat.roundHalfEven (n / 10 ^ drop) * 10 ^ drop

theorem roundHalfEven_intCast (n : Int) : PyFloat.roundHalfEven n = n := by
  have hfloor : (n : ℚ).floor = n := Rat.floor_intCast n
  simp [PyFloat.roundHalfEven, hfloor]

/-- Up to 28 digits nothing is lost. -/
theorem prec_eq {n : Int} (hn : n.natAbs < 10 ^ 28) : prec n = n := by
  have hdigits : (Nat.digits 10 n.natAbs).length ≤ 28 :=
    (Nat.digits_length_le_iff (by decide) _).mpr hn
  rw [prec, Nat.sub_eq_zero_of_le hdigits, pow_zero, div_one, mul_one, roundHalfEven_intCast]

section Read

variable (decimal : CodePoint → Option Nat)

def creditMeter : PyStr := lit "credit_usd_micros"

/-- `_meter_micros`. -/
def meterMicros (counters : Counters) : Except UsageError Int :=
  match reading decimal counters creditMeter with
  | .ok micros => .ok (max micros 0)
  | .error .overflowError => .error .overflowError
  | .error _ => .ok 0

/-- `_plan_limit`; `parse` is `Decimal(str(raw))` where that does not raise. -/
def planLimit (parse : Json → Option PyFloat) : Option Json → Option ℚ
  | none | some .null => none
  | some raw => match parse raw with
      | some (.finite limit) => if limit < 0 then none else some limit
      | _ => none

inductive Status where
  | active
  | pastDue
  | canceled
  | trialing
  deriving DecidableEq, Repr

/-- A row of `control_subscription` with the limits of its plan. -/
structure Subscription (τ : Type) where
  tenant : τ
  status : Status
  createdAt : Nat
  limits : Counters

structure CreditAllowance where
  periodStart : Date
  periodEnd : Date
  usedUsd : ℚ
  limitUsd : Option ℚ

variable {τ : Type} [DecidableEq τ]

/-- `-period_start`, as a key. -/
def startsLast (row : Period τ Date × Counters) : Dateᵒᵈ := OrderDual.toDual row.1.start

/-- `-created_at`, as a key. -/
def madeLast (s : Subscription τ) : ℕᵒᵈ := OrderDual.toDual s.createdAt

/-- The usage row that covers the day and starts last. -/
def coveringUsage (rows : List (Period τ Date × Counters)) (tenant : τ) (today : Date) :
    Option (Period τ Date × Counters) :=
  (sortedBy startsLast (rows.filter fun row =>
    row.1.tenant = tenant ∧ row.1.start ≤ today ∧ today ≤ row.1.stop)).head?

/-- The active subscription that was made last. -/
def activeSubscription (subscriptions : List (Subscription τ)) (tenant : τ) : Option (Subscription τ) :=
  (sortedBy madeLast (subscriptions.filter fun s =>
    s.tenant = tenant ∧ s.status = .active)).head?

/-- The period, and the micros that are spent in it. -/
def periodMicros (rows : List (Period τ Date × Counters)) (tenant : τ) (today : Date) :
    Except UsageError (Date × Date × Int) :=
  match coveringUsage rows tenant today with
  | none => .ok ((Date.calendarPeriod today).1, (Date.calendarPeriod today).2, 0)
  | some (period, counters) => (meterMicros decimal counters).map fun micros =>
      (period.start, period.stop, micros)

/-- `credit_allowance`. -/
def creditAllowance (parse : Json → Option PyFloat) (rows : List (Period τ Date × Counters))
    (subscriptions : List (Subscription τ)) (tenant : τ) (today : Date) :
    Except UsageError CreditAllowance :=
  (periodMicros decimal rows tenant today).map fun (start, stop, micros) =>
    ⟨start, stop, prec micros / 1000000, (activeSubscription subscriptions tenant).bind fun s =>
      planLimit parse (s.limits.lookup (lit "monthly_credit_usd"))⟩

/-! ## At any moment -/

section Moment

variable {decimal} {parse : Json → Option PyFloat} {cells : Period τ Date → Option Counters}
  {rows : List (Period τ Date × Counters)} {subscriptions : List (Subscription τ)} {tenant : τ}
  {today : Date}

/-- `rows` are the rows of the table, in whatever order. -/
def Lists (rows : List (Period τ Date × Counters)) (cells : Period τ Date → Option Counters) : Prop :=
  ∀ period counters, (period, counters) ∈ rows ↔ cells period = some counters

/-- There is a usage row of this period of the tenant, and it covers the day. -/
structure Covers (cells : Period τ Date → Option Counters) (tenant : τ) (today : Date)
    (period : Period τ Date) : Prop where
  there : (cells period).isSome = true
  owner : period.tenant = tenant
  start : period.start ≤ today
  stop : today ≤ period.stop

/-- Of the periods that cover the day, none starts later. -/
def Current (cells : Period τ Date → Option Counters) (tenant : τ) (today : Date)
    (period : Period τ Date) : Prop :=
  Covers cells tenant today period ∧
    ∀ other, Covers cells tenant today other → other.start ≤ period.start

/-- The dollars of a meter: a negative one, and one that cannot be read, is nothing spent. -/
def dollars : Except UsageError Int → ℚ
  | .ok micros => prec (max micros 0) / 1000000
  | .error _ => 0

theorem mem_covering (hrows : Lists rows cells) {period : Period τ Date} {counters : Counters} :
    (period, counters) ∈ (rows.filter fun row =>
      row.1.tenant = tenant ∧ row.1.start ≤ today ∧ today ≤ row.1.stop) ↔
      cells period = some counters ∧ Covers cells tenant today period := by
  rw [List.mem_filter, hrows, decide_eq_true_iff]
  constructor
  · rintro ⟨hcell, htenant, hstart, hstop⟩
    exact ⟨hcell, by rw [hcell]; rfl, htenant, hstart, hstop⟩
  · rintro ⟨hcell, -, htenant, hstart, hstop⟩
    exact ⟨hcell, htenant, hstart, hstop⟩

theorem coveringUsage_none (hrows : Lists rows cells)
    (h : coveringUsage rows tenant today = none) (period : Period τ Date) :
    ¬Covers cells tenant today period := by
  intro hcovers
  obtain ⟨counters, hcell⟩ := Option.isSome_iff_exists.mp hcovers.there
  have hmem : (period, counters) ∈ sortedBy startsLast _ :=
    mem_sortedBy.mpr ((mem_covering hrows).mpr ⟨hcell, hcovers⟩)
  rw [List.head?_eq_none_iff.mp h] at hmem
  cases hmem

theorem coveringUsage_some (hrows : Lists rows cells) {period : Period τ Date} {counters : Counters}
    (h : coveringUsage rows tenant today = some (period, counters)) :
    cells period = some counters ∧ Current cells tenant today period := by
  obtain ⟨hcell, hcovers⟩ := (mem_covering hrows).mp (mem_sortedBy.mp (List.mem_of_head? h))
  refine ⟨hcell, hcovers, fun other hother => ?_⟩
  obtain ⟨counters', hcell'⟩ := Option.isSome_iff_exists.mp hother.there
  have hle : startsLast (period, counters) ≤ startsLast (other, counters') :=
    head_le h ((mem_covering hrows).mpr ⟨hcell', hother⟩)
  exact OrderDual.toDual_le_toDual.mp hle

/-- The micros of a meter are its dollars, unless it is an infinity. -/
theorem meterMicros_dollars (row : Option Counters) :
    (∃ micros, meterMicros decimal (row.getD []) = .ok micros ∧
      prec micros / 1000000 = dollars (meterOf decimal row creditMeter)) ∨
    (meterMicros decimal (row.getD []) = .error .overflowError ∧
      meterOf decimal row creditMeter = .error .overflowError) := by
  unfold meterMicros meterOf
  split
  · rename_i micros hreading
    exact .inl ⟨_, rfl, by rw [hreading, dollars]⟩
  · rename_i hreading
    exact .inr ⟨rfl, hreading⟩
  · rename_i e hreading
    refine .inl ⟨0, rfl, ?_⟩
    rw [hreading, dollars, prec_eq (by decide), Int.cast_zero, zero_div]

theorem planLimit_nonneg {raw : Option Json} {limit : ℚ} (h : planLimit parse raw = some limit) :
    0 ≤ limit := by
  unfold planLimit at h
  split at h
  · cases h
  · cases h
  · split at h
    · split at h
      · cases h
      · rename_i hlimit
        exact Option.some.inj h ▸ not_lt.mp hlimit
    · cases h

/-- The active subscription that was made last. -/
structure Subscribed (subscriptions : List (Subscription τ)) (tenant : τ) (s : Subscription τ) :
    Prop where
  mem : s ∈ subscriptions
  owner : s.tenant = tenant
  active : s.status = .active
  last : ∀ other ∈ subscriptions, other.tenant = tenant → other.status = .active →
    other.createdAt ≤ s.createdAt

theorem activeSubscription_some {s : Subscription τ}
    (h : activeSubscription subscriptions tenant = some s) : Subscribed subscriptions tenant s := by
  have hs := List.mem_filter.mp (mem_sortedBy.mp (List.mem_of_head? h))
  obtain ⟨htenant, hactive⟩ := of_decide_eq_true hs.2
  refine ⟨hs.1, htenant, hactive, fun other hmem htenant' hactive' => ?_⟩
  have hle : madeLast s ≤ madeLast other :=
    head_le h (List.mem_filter.mpr ⟨hmem, decide_eq_true ⟨htenant', hactive'⟩⟩)
  exact OrderDual.toDual_le_toDual.mp hle

/-- What the calls and resets that were committed make of the credit meter of a period. -/
def creditTally (decimal : CodePoint → Option Nat) (cells : Period τ Date → Option Counters)
    (log : List (Job τ Date)) (period : Period τ Date) : Except UsageError Int :=
  log.foldl (tally period creditMeter) (meterOf decimal (cells period) creditMeter)

/-- August 2026. -/
def august : Period Unit Date :=
  ⟨(), ⟨2026, 8, 1, by decide, by decide, by decide⟩, ⟨2026, 8, 31, by decide, by decide, by decide⟩⟩

def spend : Job Unit Date := .accumulate august creditMeter (.int 3200000)

/-- One worker has added to the credit meter of August. -/
def spent : Interleave.Config (Locked.Store (Period Unit Date) (Option Counters) (Job Unit Date))
    (Locked.Proc (Option Counters) (Job Unit Date) UsageError) :=
  Jobs.alone (jobs asciiDecimal fun _ => true) (fun _ => none) spend
    (some [(creditMeter, .int 3200000)])

theorem spent_reach : (jobs asciiDecimal fun _ => true).program.Reach Program.Any
    (Jobs.fresh fun _ => none) spent :=
  Jobs.alone_reach rfl

theorem spent_lists : Lists [(august, [(creditMeter, .int 3200000)])] spent.store.cells := by
  intro period counters
  change _ ↔ (if period = august then some [(creditMeter, .int 3200000)] else none) = some counters
  rw [List.mem_singleton]
  by_cases hperiod : period = august
  · rw [if_pos hperiod, hperiod, Prod.mk.injEq, Option.some.injEq, eq_comm (a := counters)]
    exact and_iff_right rfl
  · rw [if_neg hperiod]
    exact ⟨fun h => absurd (Prod.mk.inj h).1 hperiod, (fun h => nomatch h)⟩

end Moment

end Read

end ControlPlane.Billing
