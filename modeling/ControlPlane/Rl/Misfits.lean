/-
  MISFITS: the lines of a traces.jsonl on which `parse_traces` raises something else than a
  `ValueError`.

  `parse_traces` checks shapes with `TypeError`, and converts numbers with `float`, which raises
  `TypeError` on None, a list or an object and `OverflowError` on a very large integer.  `Misfit` lists
  the six places where that happens, each with what the line must have passed before; `Wild` says it
  of the result.  The two agree on every line (`wild_parseItem`), and a payload is refused wildly when
  its first line that is not accepted is a misfit (`wild_parseTraces`).
-/
import ControlPlane.Fallible
import ControlPlane.Rl.Ingest

namespace ControlPlane.Rl

open ControlPlane.Fallible

/-! ## Wild results -/

/-- A `TypeError` or an `OverflowError`. -/
def ParseError.wild : ParseError → Bool
  | .typeError _ | .overflowError => true
  | .valueError _ | .unicodeEncodeError | .recursionError => false

def Wild {α : Type} (x : Except ParseError α) : Prop := ∃ e, x = .error e ∧ e.wild = true

section Wild

variable {α β : Type} {x : Except ParseError α} {g : α → Except ParseError β} {e : ParseError} {a : α}

theorem wild_bind : Wild (x >>= g) ↔ Wild x ∨ ∃ a, x = .ok a ∧ Wild (g a) := by
  unfold Wild
  constructor
  · rintro ⟨e, he, hwild⟩
    rcases bind_error.mp he with hx | ⟨a, hx, hg⟩
    · exact Or.inl ⟨e, hx, hwild⟩
    · exact Or.inr ⟨a, hx, e, hg, hwild⟩
  · rintro (⟨e, hx, hwild⟩ | ⟨a, hx, e, hg, hwild⟩)
    · exact ⟨e, bind_error.mpr (Or.inl hx), hwild⟩
    · exact ⟨e, bind_error.mpr (Or.inr ⟨a, hx, hg⟩), hwild⟩

theorem not_wild_ok : ¬ Wild (.ok a : Except ParseError α) := fun ⟨_, h, _⟩ => nomatch h

theorem wild_error : Wild (.error e : Except ParseError α) ↔ e.wild = true :=
  ⟨fun ⟨_, h, hwild⟩ => Except.error.inj h ▸ hwild, fun hwild => ⟨e, rfl, hwild⟩⟩

theorem not_wild_valueError (message : String) :
    ¬ Wild (.error (.valueError message) : Except ParseError α) := fun h => nomatch wild_error.mp h

theorem wild_typeError (message : String) :
    Wild (.error (.typeError message) : Except ParseError α) := wild_error.mpr rfl

end Wild

/-! ## Numbers -/

/-- `float(value)` is a wrong type or an integer that no float is near to. -/
def unfloatable : Json → Bool
  | .null | .arr _ | .obj _ => true
  | .int n => (PyFloat.ofInt n).isNone
  | .bool _ | .float _ | .negZero | .str _ => false

/-- `_reward_score` meets such a value. -/
def unscorable : Json → Bool
  | .int n => unfloatable (.int n)
  | .obj fields =>
      match Json.get? fields "score", Json.get? fields "value" with
      | some value, _ => unfloatable value
      | none, some value => unfloatable value
      | none, none => false
  | .null | .bool _ | .float _ | .negZero | .str _ | .arr _ => false

variable {py : Ingestion} {value : Json}

theorem wild_toFloat : Wild (toFloat py value) ↔ unfloatable value = true := by
  unfold toFloat unfloatable
  cases value with
  | null => exact iff_of_true (wild_typeError _) rfl
  | bool b => exact iff_of_false not_wild_ok (nomatch ·)
  | int n =>
    cases hn : PyFloat.ofInt n with
    | none => simp [wild_error, hn, ParseError.wild]
    | some x => simp [not_wild_ok, hn]
  | float x => exact iff_of_false not_wild_ok (nomatch ·)
  | negZero => exact iff_of_false not_wild_ok (nomatch ·)
  | str text =>
    refine iff_of_false ?_ (nomatch ·)
    cases htext : PyFloat.ofText py.decimal text with
    | none => simp [htext, wild_error, ParseError.wild]
    | some x => simp [htext, not_wild_ok]
  | arr items => exact iff_of_true (wild_typeError _) rfl
  | obj fields => exact iff_of_true (wild_typeError _) rfl

theorem wild_rewardScore : Wild (rewardScore py value) ↔ unscorable value = true := by
  cases value with
  | null => exact iff_of_false (not_wild_valueError _) (nomatch ·)
  | bool b => exact iff_of_false not_wild_ok (nomatch ·)
  | int n =>
    show Wild (toFloat py (.int n)) ↔ unfloatable (.int n) = true
    exact wild_toFloat
  | float x => exact iff_of_false not_wild_ok (nomatch ·)
  | negZero => exact iff_of_false not_wild_ok (nomatch ·)
  | str text => exact iff_of_false (not_wild_valueError _) (nomatch ·)
  | arr items => exact iff_of_false (not_wild_valueError _) (nomatch ·)
  | obj fields =>
    cases hscore : Json.get? fields "score" with
    | some value =>
      simp only [rewardScore, unscorable, hscore]
      exact wild_toFloat
    | none =>
      cases hvalue : Json.get? fields "value" with
      | some value =>
        simp only [rewardScore, unscorable, hscore, hvalue]
        exact wild_toFloat
      | none =>
        simp only [rewardScore, unscorable, hscore, hvalue]
        exact iff_of_false (not_wild_valueError _) (nomatch ·)

/-- The sum over the rewards meets such a value, or a weight of that kind, before any other error. -/
def unsummable (py : Ingestion) : List Json → Bool
  | [] => false
  | .null :: values => unsummable py values
  | value :: values =>
      unscorable value || ((rewardScore py value).isOk && (unfloatable (weight value) ||
        ((toFloat py (weight value)).isOk && unsummable py values)))

theorem wild_sumRewards {total : PyFloat} {values : List Json} :
    Wild (sumRewards py total values) ↔ unsummable py values = true := by
  induction values generalizing total with
  | nil => exact iff_of_false not_wild_ok (nomatch ·)
  | cons value values ih =>
    -- a reward that is not None: score, weight, and the rest of the sum
    have hstep : Wild (do
        let score ← rewardScore py value
        let factor ← toFloat py (weight value)
        sumRewards py (total.add (score.mul factor)) values) ↔
        (unscorable value || ((rewardScore py value).isOk && (unfloatable (weight value) ||
          ((toFloat py (weight value)).isOk && unsummable py values)))) = true := by
      rw [wild_bind, wild_rewardScore, Bool.or_eq_true, Bool.and_eq_true, isOk_iff]
      refine or_congr_right ?_
      constructor
      · rintro ⟨score, hscore, hrest⟩
        rcases wild_bind.mp hrest with hfactor | ⟨factor, hfactor, hsum⟩
        · exact ⟨⟨score, hscore⟩, by rw [wild_toFloat.mp hfactor]; rfl⟩
        · exact ⟨⟨score, hscore⟩, by rw [isOk_iff.mpr ⟨factor, hfactor⟩, ih.mp hsum]; simp⟩
      · rintro ⟨⟨score, hscore⟩, hrest⟩
        refine ⟨score, hscore, wild_bind.mpr ?_⟩
        rcases (Bool.or_eq_true _ _).mp hrest with hweight | hrest
        · exact Or.inl (wild_toFloat.mpr hweight)
        · obtain ⟨hfactor, hsum⟩ := Bool.and_eq_true_iff.mp hrest
          obtain ⟨factor, hfactor⟩ := isOk_iff.mp hfactor
          exact Or.inr ⟨factor, hfactor, ih.mpr hsum⟩
    cases value with
    | null => exact ih
    | _ => exact hstep

/-! ## Lines -/

/-- `task_key`, `metrics` and `rewards` have passed their checks. -/
structure Shaped (item metrics rewards : List (PyStr × Json)) : Prop where
  key : ∃ key, taskKeyOf item = .str key ∧ PyStr.blank key = false
  metrics : getD item "metrics" (.obj []) = .obj metrics
  rewards : getD item "rewards" (.obj []) = .obj rewards

/-- The value that `reward` is read from, or one of those it is summed from, is of that kind. -/
def unrewardable (py : Ingestion) (item rewards : List (PyStr × Json)) : Bool :=
  match getD item "reward" .null with
  | .null => decide (rewards ≠ []) && unsummable py (rewards.map Prod.snd)
  | explicit => unscorable explicit

/-- A line whose exception is no `ValueError`: it is no object, one of its three parts is none, or a
    number cannot be converted, where everything that is looked at before is in order. -/
inductive Misfit (py : Ingestion) : Json → Prop
  | item {value : Json} : (∀ item, value ≠ .obj item) → Misfit py value
  | metrics {item : List (PyStr × Json)} {key : PyStr} : taskKeyOf item = .str key →
      PyStr.blank key = false → (∀ metrics, getD item "metrics" (.obj []) ≠ .obj metrics) →
      Misfit py (.obj item)
  | rewards {item metrics : List (PyStr × Json)} {key : PyStr} : taskKeyOf item = .str key →
      PyStr.blank key = false → getD item "metrics" (.obj []) = .obj metrics →
      (∀ rewards, getD item "rewards" (.obj []) ≠ .obj rewards) → Misfit py (.obj item)
  | resolved {item metrics rewards : List (PyStr × Json)} : Shaped item metrics rewards →
      unscorable (resolvedValue item metrics rewards) = true → Misfit py (.obj item)
  | reward {item metrics rewards : List (PyStr × Json)} {resolved : PyFloat} :
      Shaped item metrics rewards →
      rewardScore py (resolvedValue item metrics rewards) = .ok resolved →
      unrewardable py item rewards = true → Misfit py (.obj item)
  | info {item metrics rewards : List (PyStr × Json)} {resolved reward : PyFloat} :
      Shaped item metrics rewards →
      rewardScore py (resolvedValue item metrics rewards) = .ok resolved →
      rewardOf py item rewards resolved = .ok reward → inRange resolved = true →
      (∀ info, getD item "info" (.obj []) ≠ .obj info) → Misfit py (.obj item)

theorem wild_rewardOf {item rewards : List (PyStr × Json)} {resolved : PyFloat} :
    Wild (rewardOf py item rewards resolved) ↔ unrewardable py item rewards = true := by
  unfold rewardOf unrewardable
  cases hreward : getD item "reward" .null with
  | null =>
    by_cases hrewards : rewards = []
    · simp [hrewards, not_wild_ok]
    · simp [hrewards, wild_sumRewards]
  | _ => exact wild_rewardScore

theorem not_wild_canonicalJson : ¬ Wild (canonicalJson py value) := by
  unfold canonicalJson
  split
  · exact fun h => nomatch wild_error.mp h
  · split
    · exact fun h => nomatch wild_error.mp h
    · exact not_wild_ok

theorem not_wild_traceRow {taskKey digest : PyStr} {reward resolved : PyFloat}
    {metrics : List (PyStr × Json)} {flags : List PyStr} :
    ¬ Wild (traceRow py taskKey digest reward metrics resolved flags) := by
  intro hwild
  rcases wild_bind.mp hwild with h | ⟨_, -, h⟩
  · exact not_wild_canonicalJson h
  · rcases wild_bind.mp h with h | ⟨_, -, h⟩
    · exact not_wild_canonicalJson h
    · exact not_wild_ok h

/-- Flags and digests are refused with a `ValueError`, and canonical JSON with a `UnicodeEncodeError`
    or a `RecursionError`. -/
theorem not_wild_checkTrace {line : Nat} {item metrics info : List (PyStr × Json)} {taskKey : PyStr}
    {resolved reward : PyFloat} :
    ¬ Wild (checkTrace py line item metrics taskKey resolved reward info) := by
  unfold checkTrace
  split
  · exact not_wild_valueError _
  · split
    · exact not_wild_valueError _
    · intro hwild
      rcases wild_bind.mp hwild with h | ⟨trace, -, h⟩
      · exact not_wild_canonicalJson h
      · split at h
        · exact not_wild_valueError _ h
        · exact not_wild_traceRow h

/-- The loop body for a line whose parts have passed their checks. -/
theorem parseItem_shaped {line : Nat} {item metrics rewards : List (PyStr × Json)}
    (h : Shaped item metrics rewards) : ∃ key, parseItem py line (.obj item) = (do
      let resolved ← rewardScore py (resolvedValue item metrics rewards)
      let reward ← rewardOf py item rewards resolved
      if !inRange resolved then
        .error (.valueError (lineMessage line "resolved is out of range"))
      else match getD item "info" (.obj []) with
        | .obj info => checkTrace py line item metrics key resolved reward info
        | _ => .error (.typeError (lineMessage line "info must be an object"))) := by
  obtain ⟨⟨key, hkey, hblank⟩, hmetrics, hrewards⟩ := h
  refine ⟨key, ?_⟩
  simp only [parseItem, hkey, hblank, hmetrics, hrewards, Bool.false_eq_true, if_false]
  all_goals rfl

/-- **Misfits.**  A line is refused wildly exactly when it is a misfit. -/
theorem wild_parseItem {line : Nat} : Wild (parseItem py line value) ↔ Misfit py value := by
  constructor
  · intro hwild
    unfold parseItem at hwild
    split at hwild
    · rename_i item
      split at hwild
      · rename_i key hkey
        split at hwild
        · exact absurd hwild (not_wild_valueError _)
        · rename_i hblank
          have hblank : PyStr.blank key = false := Bool.eq_false_iff.mpr hblank
          split at hwild
          · rename_i metrics hmetrics
            split at hwild
            · rename_i rewards hrewards
              have hshaped : Shaped item metrics rewards := ⟨⟨key, hkey, hblank⟩, hmetrics, hrewards⟩
              rcases wild_bind.mp hwild with h | ⟨resolved, hresolved, h⟩
              · exact Misfit.resolved hshaped (wild_rewardScore.mp h)
              · rcases wild_bind.mp h with h | ⟨reward, hreward, h⟩
                · exact Misfit.reward hshaped hresolved (wild_rewardOf.mp h)
                · split at h
                  · exact absurd h (not_wild_valueError _)
                  · rename_i hrange
                    split at h
                    · exact absurd h not_wild_checkTrace
                    · rename_i hinfo
                      exact Misfit.info hshaped hresolved hreward (by simpa using hrange) hinfo
            · rename_i hrewards
              exact Misfit.rewards hkey hblank hmetrics hrewards
          · rename_i hmetrics
            exact Misfit.metrics hkey hblank hmetrics
      · exact absurd hwild (not_wild_valueError _)
    · rename_i hitem
      exact Misfit.item hitem
  · intro hmisfit
    cases hmisfit with
    | item hitem =>
      unfold parseItem
      split
      · exact absurd rfl (hitem _)
      · exact wild_typeError _
    | metrics hkey hblank hmetrics =>
      simp only [parseItem, hkey, hblank, Bool.false_eq_true, if_false]
      exact wild_typeError _
    | rewards hkey hblank hmetrics hrewards =>
      simp only [parseItem, hkey, hblank, hmetrics, Bool.false_eq_true, if_false]
      exact wild_typeError _
    | resolved hshaped hresolved =>
      obtain ⟨key, heq⟩ := parseItem_shaped hshaped
      rw [heq]
      exact wild_bind.mpr (Or.inl (wild_rewardScore.mpr hresolved))
    | reward hshaped hresolved hreward =>
      obtain ⟨key, heq⟩ := parseItem_shaped hshaped
      rw [heq]
      exact wild_bind.mpr (Or.inr ⟨_, hresolved, wild_bind.mpr (Or.inl (wild_rewardOf.mpr hreward))⟩)
    | info hshaped hresolved hreward hrange hinfo =>
      obtain ⟨key, heq⟩ := parseItem_shaped hshaped
      rw [heq]
      refine wild_bind.mpr (Or.inr ⟨_, hresolved, wild_bind.mpr (Or.inr ⟨_, hreward, ?_⟩)⟩)
      simp only [hrange, Bool.not_true, Bool.false_eq_true, if_false]
      exact wild_typeError _

/-! ## Payloads -/

/-- The first line that is not accepted is a misfit. -/
def MisfitPayload (py : Ingestion) (payload : List UInt8) : Prop :=
  ∃ before line after value, traceLines payload = before ++ line :: after ∧
    (∀ earlier ∈ before, ∃ row, parseLine py earlier = .ok row) ∧
    Json.loads py.toInterpreter line.2 = .ok value ∧ Misfit py value

theorem wild_parseLine {line : Nat × List UInt8} : Wild (parseLine py line) ↔
    ∃ value, Json.loads py.toInterpreter line.2 = .ok value ∧ Misfit py value := by
  unfold parseLine
  cases hloads : Json.loads py.toInterpreter line.2 with
  | ok value =>
    refine wild_parseItem.trans ⟨fun h => ⟨value, rfl, h⟩, ?_⟩
    rintro ⟨value', heq, h⟩
    exact Except.ok.inj heq ▸ h
  | error e =>
    refine iff_of_false ?_ fun ⟨_, h, _⟩ => nomatch h
    cases e with
    | malformed => exact not_wild_valueError _
    | intDigits => exact not_wild_valueError _
    | recursion => exact fun h => nomatch wild_error.mp h

theorem wild_parseTraces {payload : List UInt8} :
    Wild (parseTraces py payload) ↔ MisfitPayload py payload := by
  have hrest : ∀ rows : List Trace, ¬ Wild (if rows = [] then
      .error (.valueError "traces.jsonl did not contain any trajectories") else .ok rows) := by
    intro rows
    split
    · exact not_wild_valueError _
    · exact not_wild_ok
  rw [parseTraces, wild_bind]
  constructor
  · rintro (⟨e, he, hwild⟩ | ⟨rows, -, h⟩)
    · obtain ⟨before, line, after, hlines, hbefore, hline⟩ := mapM_error.mp he
      obtain ⟨value, hloads, hmisfit⟩ := wild_parseLine.mp ⟨e, hline, hwild⟩
      exact ⟨before, line, after, value, hlines, hbefore, hloads, hmisfit⟩
    · exact absurd h (hrest rows)
  · rintro ⟨before, line, after, value, hlines, hbefore, hloads, hmisfit⟩
    obtain ⟨e, he, hwild⟩ := wild_parseLine.mpr ⟨value, hloads, hmisfit⟩
    exact Or.inl ⟨e, mapM_error.mpr ⟨before, line, after, hlines, hbefore, he⟩, hwild⟩

end ControlPlane.Rl
