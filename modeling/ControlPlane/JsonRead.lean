/-
  WHAT `json.loads` READS.

  1. `read_built`: whatever holds of words, numbers and strings, and of arrays and objects when it
     holds of what is in them, holds of all that is read: the states of the machine keep it.
  2. `run_write`: a value that was WRITTEN is read back, or the reading fails because the value is
     nested too deeply or has too long an integer, which is what `fits` says.  The induction is on the
     value; the text behind it and the open arrays and objects around it are arbitrary.

  Of floats no more is needed than that `float.__repr__` writes a numeral which rounds to the float.
-/
import ControlPlane.Fallible
import ControlPlane.JsonWrite
import Mathlib.Data.List.Chain

namespace ControlPlane.JsonReader

open Json

variable {py : Interpreter}

/-- The machine from a state to the end of the text. -/
def run (py : Interpreter) (s : State) (text : PyStr) : Except LoadsError Json := do
  let s ← text.foldlM (step py) s
  finish py s

theorem read_eq_run (text : PyStr) : read py text = run py ⟨[], .value false⟩ text := rfl

theorem run_nil (s : State) : run py s [] = finish py s := rfl

theorem run_cons (s : State) (c : CodePoint) (text : PyStr) :
    run py s (c :: text) = step py s c >>= fun s' => run py s' text := by
  rw [run, List.foldlM_cons]
  cases step py s c <;> rfl

theorem run_cons_ok {s s' : State} {c : CodePoint} (h : step py s c = .ok s') (text : PyStr) :
    run py s (c :: text) = run py s' text := by
  rw [run_cons, h]
  rfl

theorem run_cons_error {s : State} {c : CodePoint} {e : LoadsError} (h : step py s c = .error e)
    (text : PyStr) : run py s (c :: text) = .error e := by
  rw [run_cons, h]
  rfl

/-! ## What holds of all that is read -/

/-- A property that values inherit from their parts. -/
structure Built (py : Interpreter) (G : Json → Prop) : Prop where
  word : ∀ w ∈ words, G w.1
  number : ∀ {numeral chars value}, number py numeral chars = .ok value → G value
  str : ∀ text, G (.str text)
  arr : ∀ {items}, (∀ item ∈ items, G item) → G (.arr items)
  obj : ∀ {fields}, (fields.map Prod.fst).Nodup → (∀ f ∈ fields, G f.2) → G (.obj fields)

section Holds

variable {G : Json → Prop}

def Frame.Holds (G : Json → Prop) : Frame → Prop
  | .arr items => ∀ item ∈ items, G item
  | .obj fields _ => (fields.map Prod.fst).Nodup ∧ ∀ f ∈ fields, G f.2

def Mode.Holds (G : Json → Prop) : Mode → Prop
  | .word _ v => G v
  | .done v => G v
  | _ => True

/-- Whatever is open or complete has the property. -/
structure State.Holds (G : Json → Prop) (s : State) : Prop where
  stack : ∀ frame ∈ s.stack, frame.Holds G
  mode : s.mode.Holds G

theorem lookup_isSome {α : Type} {key : PyStr} {fields : List (PyStr × α)} :
    (fields.lookup key).isSome = true ↔ key ∈ fields.map Prod.fst := by
  rw [List.lookup_isSome_iff, List.mem_map]
  exact exists_congr fun f => and_congr_right fun _ => beq_iff_eq.trans eq_comm

variable (hbuilt : Built py G) {s s' : State} {c : CodePoint}

theorem emit_holds {stack : List Frame} {value : Json} (hstack : ∀ frame ∈ stack, frame.Holds G)
    (hvalue : G value) : (emit stack value).Holds G := by
  unfold emit
  split
  · exact ⟨hstack, hvalue⟩
  · rename_i items rest
    rw [List.forall_mem_cons] at hstack
    refine ⟨?_, trivial⟩
    rw [List.forall_mem_cons]
    refine ⟨?_, hstack.2⟩
    rw [Frame.Holds, List.forall_mem_append, List.forall_mem_singleton]
    exact ⟨hstack.1, hvalue⟩
  · rename_i fields key rest
    rw [List.forall_mem_cons] at hstack
    obtain ⟨⟨hkeys, hfields⟩, hrest⟩ := hstack
    refine ⟨?_, trivial⟩
    dsimp only
    rw [List.forall_mem_cons]
    refine ⟨?_, hrest⟩
    split
    · have hsame : (fields.map fun f => if f.1 = key then (f.1, value) else f).map Prod.fst =
          fields.map Prod.fst := by
        rw [List.map_map]
        refine List.map_congr_left fun f _ => ?_
        rw [Function.comp_apply]
        split <;> rfl
      refine ⟨by rwa [hsame], fun f hf => ?_⟩
      obtain ⟨old, hold, rfl⟩ := List.mem_map.mp hf
      split
      · exact hvalue
      · exact hfields old hold
    · rename_i hnew
      rw [lookup_isSome] at hnew
      refine ⟨?_, ?_⟩
      · rw [List.map_append, List.map_singleton]
        refine List.nodup_append.mpr ⟨hkeys, List.nodup_singleton _, fun a ha b hb heq => ?_⟩
        rw [heq, List.mem_singleton.mp hb] at ha
        exact hnew ha
      · rw [List.forall_mem_append, List.forall_mem_singleton]
        exact ⟨hfields, hvalue⟩

include hbuilt

theorem close_holds {stack : List Frame} (hstack : ∀ frame ∈ stack, frame.Holds G)
    (h : close stack = .ok s') : s'.Holds G := by
  unfold close at h
  split at h
  · rw [List.forall_mem_cons] at hstack
    rw [← Except.ok.inj h]
    exact emit_holds hstack.2 (hbuilt.arr hstack.1)
  · rw [List.forall_mem_cons] at hstack
    rw [← Except.ok.inj h]
    exact emit_holds hstack.2 (hbuilt.obj hstack.1.1 hstack.1.2)
  · cases h

omit hbuilt in
theorem push_holds (hs : s.Holds G) {frame : Frame} (hframe : frame.Holds G) {mode : Mode}
    (hmode : mode.Holds G) (h : push py s frame mode = .ok s') : s'.Holds G := by
  unfold push at h
  split at h
  · cases h
  · rw [← Except.ok.inj h]
    refine ⟨?_, hmode⟩
    rw [List.forall_mem_cons]
    exact ⟨hframe, hs.stack⟩

theorem begin_holds (hs : s.Holds G) (h : begin py s c = .ok s') : s'.Holds G := by
  unfold begin at h
  dsimp only at h
  have hword : ∀ {text : PyStr} {value : Json}, (∃ w ∈ words, w.1 = value) →
      (State.mk s.stack (.word text value)).Holds G := by
    rintro text value ⟨w, hw, rfl⟩
    exact ⟨hs.stack, hbuilt.word w hw⟩
  rcases Fallible.ite_ok h with ⟨-, h⟩ | ⟨-, h⟩
  · rw [← Except.ok.inj h]
    exact ⟨hs.stack, trivial⟩
  rcases Fallible.ite_ok h with ⟨-, h⟩ | ⟨-, h⟩
  · exact @push_holds _ _ _ _ hs (.arr [])
      (fun _ hitem => absurd hitem List.not_mem_nil) (.value true) trivial h
  rcases Fallible.ite_ok h with ⟨-, h⟩ | ⟨-, h⟩
  · exact @push_holds _ _ _ _ hs (.obj [] [])
      ⟨List.nodup_nil, fun _ hf => absurd hf List.not_mem_nil⟩ (.key true) trivial h
  iterate 3
    rcases Fallible.ite_ok h with ⟨-, h⟩ | ⟨-, h⟩
    · rw [← Except.ok.inj h]
      exact ⟨hs.stack, trivial⟩
  iterate 5
    rcases Fallible.ite_ok h with ⟨-, h⟩ | ⟨-, h⟩
    · rw [← Except.ok.inj h]
      exact hword (by simp [words])
  cases h

theorem next_holds (hs : s.Holds G) (h : next s c = .ok s') : s'.Holds G := by
  unfold next at h
  split at h
  · rw [← Except.ok.inj h]
    exact hs
  split at h
  · split at h
    · rw [← Except.ok.inj h]
      exact ⟨hs.stack, trivial⟩
    split at h
    · exact close_holds hbuilt hs.stack h
    · cases h
  · split at h
    · rw [← Except.ok.inj h]
      exact ⟨hs.stack, trivial⟩
    split at h
    · exact close_holds hbuilt hs.stack h
    · cases h
  · cases h

theorem stepText_holds (hs : s.Holds G) {isKey : Bool} {chars : List (Nat × Bool)} {escape : Escape}
    (h : stepText s isKey chars escape c = .ok s') : s'.Holds G := by
  have hstay : ∀ {mode : Mode}, mode.Holds G → (State.mk s.stack mode).Holds G :=
    fun hmode => ⟨hs.stack, hmode⟩
  unfold stepText at h
  split at h
  · split at h
    · unfold endText at h
      split at h
      · split at h
        · rename_i fields key rest hstack
          have hframes := hs.stack
          rw [hstack, List.forall_mem_cons] at hframes
          rw [← Except.ok.inj h]
          refine ⟨?_, trivial⟩
          rw [List.forall_mem_cons]
          exact hframes
        · cases h
      · rw [← Except.ok.inj h]
        exact emit_holds hs.stack (hbuilt.str _)
    split at h
    · rw [← Except.ok.inj h]
      exact hstay trivial
    split at h
    · cases h
    · rw [← Except.ok.inj h]
      exact hstay trivial
  · split at h
    · rw [← Except.ok.inj h]
      exact hstay trivial
    split at h
    · rw [← Except.ok.inj h]
      exact hstay trivial
    · cases h
  · split at h
    · cases h
    · dsimp only at h
      split at h <;> rw [← Except.ok.inj h] <;> exact hstay trivial

theorem stepNumber_holds (hs : s.Holds G) {numeral : Numeral} {chars : PyStr}
    (h : stepNumber py s numeral chars c = .ok s') : s'.Holds G := by
  unfold stepNumber at h
  split at h
  · rw [← Except.ok.inj h]
    exact ⟨hs.stack, trivial⟩
  split at h
  · rw [← Except.ok.inj h]
    exact ⟨hs.stack, hbuilt.word (.float (.inf true), PyStr.lit "-Infinity") (by simp [words])⟩
  · obtain ⟨value, hvalue, h⟩ := Fallible.bind_ok.mp h
    have hemit := emit_holds hs.stack (hbuilt.number hvalue)
    dsimp only at h
    split at h
    · split at h
      · rw [← Except.ok.inj h]
        exact hemit
      · cases h
    · exact next_holds hbuilt hemit h

/-- One character. -/
theorem step_holds (hs : s.Holds G) (h : step py s c = .ok s') : s'.Holds G := by
  have hstay : ∀ {mode : Mode}, mode.Holds G → (State.mk s.stack mode).Holds G :=
    fun hmode => ⟨hs.stack, hmode⟩
  unfold step at h
  split at h
  · split at h
    · rw [← Except.ok.inj h]
      exact hs
    split at h
    · exact close_holds hbuilt hs.stack h
    · exact begin_holds hbuilt hs h
  · split at h
    · rw [← Except.ok.inj h]
      exact hs
    split at h
    · exact close_holds hbuilt hs.stack h
    split at h
    · rw [← Except.ok.inj h]
      exact hstay trivial
    · cases h
  · split at h
    · rw [← Except.ok.inj h]
      exact hs
    split at h
    · rw [← Except.ok.inj h]
      exact hstay trivial
    · cases h
  · exact next_holds hbuilt hs h
  · exact stepText_holds hbuilt hs h
  · exact stepNumber_holds hbuilt hs h
  · cases h
  · rename_i w rest value hmode
    have hvalue : G value := by
      have hheld := hs.mode
      rwa [hmode] at hheld
    split at h
    · cases h
    split at h
    · rw [← Except.ok.inj h]
      exact emit_holds hs.stack hvalue
    · rw [← Except.ok.inj h]
      exact hstay hvalue
  · split at h
    · rw [← Except.ok.inj h]
      exact hs
    · cases h

theorem run_holds {text : PyStr} {value : Json} (hs : s.Holds G) (h : run py s text = .ok value) :
    G value := by
  induction text generalizing s with
  | nil =>
    rw [run_nil] at h
    unfold finish at h
    split at h
    · rename_i hmode
      rw [← Except.ok.inj h]
      have hheld := hs.mode
      rwa [hmode] at hheld
    · exact hbuilt.number h
    · cases h
  | cons c text ih =>
    rw [run_cons] at h
    obtain ⟨s', hstep, hrest⟩ := Fallible.bind_ok.mp h
    exact ih (step_holds hbuilt hs hstep) hrest

/-- **What is read has every property that values inherit from their parts.** -/
theorem read_built {text : PyStr} {value : Json} (h : read py text = .ok value) : G value :=
  run_holds hbuilt (s := ⟨[], .value false⟩) ⟨fun _ hframe => absurd hframe List.not_mem_nil, trivial⟩ h

end Holds

/-- A value that rounding yields. -/
def IsDouble (q : ℚ) : Prop := ∃ x, PyFloat.nearest x = .finite q

theorem ofText_double {decimal : CodePoint → Option Nat} {text : PyStr} {q : ℚ}
    (h : PyFloat.ofText decimal text = some (.finite q)) : IsDouble q := by
  unfold PyFloat.ofText at h
  dsimp only at h
  split at h
  · cases h
  split at h
  · cases h
  · have hmap : ∀ {p : Prop} [Decidable p] {exponent : Option Int} {f : Int → PyFloat},
        (if p then none else exponent.map f) = some (.finite q) → ∃ e, f e = .finite q := by
      intro p _ exponent f h
      split at h
      · cases h
      · obtain ⟨e, -, he⟩ := Option.map_eq_some_iff.mp h
        exact ⟨e, he⟩
    unfold PyFloat.unsigned at h
    dsimp only at h
    split at h <;> obtain ⟨exponent, hnearest⟩ := hmap h <;> exact ⟨_, hnearest⟩

/-- A number is an integer, -0.0, or what `float` makes of the text. -/
theorem number_cases {numeral : Numeral} {chars : PyStr} {value : Json}
    (h : number py numeral chars = .ok value) : (∃ n, value = .int n) ∨ value = .negZero ∨
      ∃ x, value = .float x ∧ PyFloat.ofText asciiDecimal chars = some x := by
  have hint : ∀ {negative : Bool} {digits : PyStr}, (if py.intDigits < digits.length then
      (.error .intDigits : Except LoadsError Json)
      else .ok (.int (if negative then -(PyFloat.digitsValue (digits.filterMap asciiDecimal) : Int)
        else PyFloat.digitsValue (digits.filterMap asciiDecimal)))) = .ok value →
      ∃ n, value = .int n := by
    intro negative digits h
    rcases Fallible.ite_ok h with ⟨-, h⟩ | ⟨-, h⟩
    · cases h
    · exact ⟨_, (Except.ok.inj h).symm⟩
  have hfloat : ∀ {numeral : Numeral}, numeral = .behind ∨ numeral = .expDigits →
      number py numeral chars = .ok value → value = .negZero ∨
        ∃ x, value = .float x ∧ PyFloat.ofText asciiDecimal chars = some x := by
    intro numeral hkind h
    have hof : number py .behind chars = .ok value := by
      rcases hkind with rfl | rfl <;> exact h
    simp only [number] at hof
    split at hof
    · rename_i x hx
      rcases Fallible.ite_ok hof with ⟨-, h⟩ | ⟨-, h⟩
      · exact Or.inl (Except.ok.inj h).symm
      · exact Or.inr ⟨x, (Except.ok.inj h).symm, hx⟩
    · cases hof
  cases numeral with
  | zero | digits => exact Or.inl (hint h)
  | behind => exact Or.inr (hfloat (Or.inl rfl) h)
  | expDigits => exact Or.inr (hfloat (Or.inr rfl) h)
  | minus | point | exp | expSign => cases h

/-- The floats that are read are doubles. -/
theorem read_doubles {text : PyStr} {value : Json} (h : read py text = .ok value) :
    FloatsIn IsDouble value := by
  refine read_built (G := FloatsIn IsDouble) ⟨?_, ?_, ?_, floatsIn_items.mpr, ?_⟩ h
  · intro w hw q hq
    have hnone : ∀ w ∈ words, ∀ q, .finite q ∉ floats w.1 := by
      simp [words, floats]
    exact absurd hq (hnone w hw q)
  · intro numeral chars value hnumber q hq
    rcases number_cases hnumber with ⟨n, rfl⟩ | rfl | ⟨x, rfl, hx⟩
    · cases hq
    · cases hq
    · rw [← List.mem_singleton.mp hq] at hx
      exact ofText_double hx
  · exact fun _ q hq => absurd hq List.not_mem_nil
  · exact fun _ hfields => floatsIn_fields.mpr hfields

/-! ## Strings that were written -/

/-- `separators=(",", ":")`, and everything that is not ASCII is escaped. -/
def compact : Style := ⟨PyStr.lit ",", PyStr.lit ":", escapeAscii⟩

def isHigh (c : CodePoint) : Bool := decide (0xD800 ≤ c.val) && decide (c.val ≤ 0xDBFF)

def isLow (c : CodePoint) : Bool := decide (0xDC00 ≤ c.val) && decide (c.val ≤ 0xDFFF)

/-- No high surrogate in front of a low one: in JSON the two are one character. -/
def Joined (text : PyStr) : Prop := text.IsChain fun c d => ¬ (isHigh c = true ∧ isLow d = true)

/-- How `chars` spell a text: a character beyond the sixteen bits by two surrogates. -/
inductive Spelled : PyStr → List (Nat × Bool) → Prop where
  | nil : Spelled [] []
  | unit {c : CodePoint} {escaped : Bool} {text : PyStr} {chars : List (Nat × Bool)}
      (hc : c.val < 0x10000) (h : Spelled text chars) :
      Spelled (c :: text) ((c.val, escaped) :: chars)
  | pair {c : CodePoint} {text : PyStr} {chars : List (Nat × Bool)} (hc : 0x10000 ≤ c.val)
      (h : Spelled text chars) :
      Spelled (c :: text) ((0xD800 + (c.val - 0x10000) / 1024, true) ::
        (0xDC00 + (c.val - 0x10000) % 1024, true) :: chars)

theorem ofNat_val (c : CodePoint) : Fin.ofNat 0x110000 c.val = c :=
  Fin.ext (Nat.mod_eq_of_lt c.isLt)

/-- What was spelled is joined again. -/
theorem joinEscapes_spelled {text : PyStr} {chars : List (Nat × Bool)} (h : Spelled text chars)
    (hjoined : Joined text) : joinEscapes chars = text := by
  induction h with
  | nil => rfl
  | @unit c escaped text chars hc h ih =>
    have hrest : joinEscapes chars = text := ih hjoined.tail
    cases h with
    | nil => rw [joinEscapes, ofNat_val]
    | @unit d escaped' text chars hd h =>
      have hapart := (List.isChain_cons_cons.mp hjoined).1
      rw [joinEscapes, if_neg, hrest, ofNat_val]
      rintro ⟨-, -, hhigh, hhigh', hlow, hlow'⟩
      exact hapart ⟨by simp [isHigh, hhigh, hhigh'], by simp [isLow, hlow, hlow']⟩
    | @pair d text chars hd h =>
      have hlt := d.isLt
      rw [joinEscapes, if_neg (by omega), hrest, ofNat_val]
  | @pair c text chars hc h ih =>
    have hlt := c.isLt
    rw [joinEscapes, if_pos ⟨rfl, rfl, by omega, by omega, by omega, by omega⟩, ih hjoined.tail]
    have hval : 0x10000 + (0xD800 + (c.val - 0x10000) / 1024 - 0xD800) * 1024 +
        (0xDC00 + (c.val - 0x10000) % 1024 - 0xDC00) = c.val := by omega
    rw [hval, ofNat_val]

section Strings

variable {stack : List Frame} {isKey : Bool} (chars : List (Nat × Bool)) (rest : PyStr)

/-- A number in four digits. -/
theorem run_hexEscape {n : Nat} (hn : n < 0x10000) :
    run py ⟨stack, .text isKey chars .none⟩ (hexEscape n ++ rest) =
      run py ⟨stack, .text isKey (chars ++ [(n, true)]) .none⟩ rest := by
  have hdigit : ∀ k, hexValue (hexDigit (k % 16)) = some (k % 16) :=
    fun k => hexValue_hexDigit (Nat.mod_lt k (by decide))
  have hvalue : 16 * (16 * (16 * (16 * 0 + n / 4096 % 16) + n / 256 % 16) + n / 16 % 16) + n % 16 =
      n := by omega
  rw [hexEscape_eq]
  have hopen : ∀ text, run py ⟨stack, .text isKey chars .none⟩ (0x5C :: 0x75 :: text) =
      run py ⟨stack, .text isKey chars (.hex [])⟩ text := fun text =>
    (run_cons_ok rfl _).trans (run_cons_ok rfl _)
  have hmore : ∀ (digits : List Nat) (k : Nat) text, digits.length < 3 →
      run py ⟨stack, .text isKey chars (.hex digits)⟩ (hexDigit (k % 16) :: text) =
        run py ⟨stack, .text isKey chars (.hex (digits ++ [k % 16]))⟩ text := by
    intro digits k text hlen
    refine run_cons_ok ?_ _
    have hshort : (digits ++ [k % 16]).length < 4 := by
      rw [List.length_append, List.length_singleton]
      omega
    simp only [step, stepText, hdigit, if_pos hshort]
  simp only [List.cons_append, List.nil_append]
  rw [hopen, hmore _ _ _ (by simp), hmore _ _ _ (by simp), hmore _ _ _ (by simp)]
  refine run_cons_ok ?_ _
  simp only [step, stepText, hdigit, List.nil_append, List.cons_append, List.length_cons,
    List.length_nil, List.foldl_cons, List.foldl_nil]
  rw [if_neg (by decide), hvalue]

theorem unescape_lt {c : CodePoint} {n : Nat} (h : unescape c = some n) : n < 0x10000 := by
  obtain ⟨before, after, hlist, -⟩ := List.lookup_eq_some_iff.mp h
  have hall : ∀ e ∈ ([(0x22, 0x22), (0x5C, 0x5C), (0x2F, 0x2F), (0x62, 0x08), (0x66, 0x0C),
      (0x6E, 0x0A), (0x72, 0x0D), (0x74, 0x09)] : List (Nat × Nat)), e.2 < 0x10000 := by decide
  rw [hlist] at hall
  exact hall (c.val, n) (by simp)

/-- What is pushed for one character. -/
theorem run_escapeAscii (c : CodePoint) : ∃ pushed,
    run py ⟨stack, .text isKey chars .none⟩ (escapeAscii c ++ rest) =
      run py ⟨stack, .text isKey (chars ++ pushed) .none⟩ rest ∧
    ∀ {text chars}, Spelled text chars → Spelled (c :: text) (pushed ++ chars) := by
  cases h : escapeControl c.val with
  | some text =>
    have hescape : escapeAscii c = text := by rw [escapeAscii, h, Option.getD_some]
    rw [hescape]
    rcases escapeControl_cases h with ⟨letter, rfl, hletter, hnotu⟩ | ⟨hcontrol, rfl⟩
    · refine ⟨[(c.val, false)], ?_, .unit (unescape_lt hletter)⟩
      have hopen : step py ⟨stack, .text isKey chars .none⟩ 0x5C =
          .ok ⟨stack, .text isKey chars .backslash⟩ := rfl
      rw [List.cons_append, run_cons_ok hopen]
      refine run_cons_ok ?_ _
      simp only [step, stepText, if_neg hnotu, hletter]
    · exact ⟨[(c.val, true)], run_hexEscape chars rest (by omega), .unit (by omega)⟩
  | none =>
    have hle := escapeControl_none h
    obtain ⟨hquote, hbackslash⟩ := escapeControl_none_ne h
    by_cases hascii : c.val < 0x7F
    · have hescape : escapeAscii c = [c] := by
        rw [escapeAscii, h, Option.getD_none, if_pos hascii]
      refine ⟨[(c.val, false)], ?_, .unit (by omega)⟩
      rw [hescape]
      refine run_cons_ok ?_ _
      simp only [step, stepText, if_neg hquote, if_neg hbackslash, if_neg (Nat.not_lt.mpr hle)]
    by_cases hbmp : c.val < 0x10000
    · have hescape : escapeAscii c = hexEscape c.val := by
        rw [escapeAscii, h, Option.getD_none, if_neg hascii, if_pos hbmp]
      rw [hescape]
      exact ⟨[(c.val, true)], run_hexEscape chars rest hbmp, .unit hbmp⟩
    · have hescape : escapeAscii c = hexEscape (0xD800 + (c.val - 0x10000) / 1024) ++
          hexEscape (0xDC00 + (c.val - 0x10000) % 1024) := by
        rw [escapeAscii, h, Option.getD_none, if_neg hascii, if_neg hbmp]
      have hlt := c.isLt
      refine ⟨[(0xD800 + (c.val - 0x10000) / 1024, true),
        (0xDC00 + (c.val - 0x10000) % 1024, true)], ?_, .pair (by omega)⟩
      rw [hescape, List.append_assoc, run_hexEscape chars _ (by omega),
        run_hexEscape _ _ (by omega), List.append_assoc]
      rfl

/-- A written string is complete at its closing quote. -/
theorem run_quote {text : PyStr} (hjoined : Joined text) :
    run py ⟨stack, .text isKey [] .none⟩ (text.flatMap escapeAscii ++ 0x22 :: rest) =
      endText ⟨stack, .text isKey [] .none⟩ isKey text >>= fun s => run py s rest := by
  have hspelled : ∀ (text : PyStr) (chars : List (Nat × Bool)), ∃ pushed, Spelled text pushed ∧
      run py ⟨stack, .text isKey chars .none⟩ (text.flatMap escapeAscii ++ 0x22 :: rest) =
        run py ⟨stack, .text isKey (chars ++ pushed) .none⟩ (0x22 :: rest) := by
    intro text
    induction text with
    | nil => exact fun chars => ⟨[], .nil, by rw [List.append_nil]; rfl⟩
    | cons c text ih =>
      intro chars
      obtain ⟨pushed, hrun, hspells⟩ := @run_escapeAscii py stack
        isKey chars (text.flatMap escapeAscii ++ 0x22 :: rest) c
      obtain ⟨others, hothers, hrest⟩ := ih (chars ++ pushed)
      refine ⟨pushed ++ others, hspells hothers, ?_⟩
      rw [List.flatMap_cons, List.append_assoc, hrun, hrest, List.append_assoc]
  obtain ⟨pushed, hpushed, hrun⟩ := hspelled text []
  rw [hrun, run_cons, List.nil_append]
  have hclose : step py ⟨stack, .text isKey pushed .none⟩ 0x22 =
      endText ⟨stack, .text isKey pushed .none⟩ isKey (joinEscapes pushed) := rfl
  rw [hclose, joinEscapes_spelled hpushed hjoined]
  rfl

end Strings

/-! ## Numbers that were written -/

/-- The numeral that a character begins. -/
def Numeral.start (c : CodePoint) : Option Numeral :=
  if c = 0x2D then some .minus
  else if c = 0x30 then some .zero
  else if (asciiDecimal c).isSome then some .digits
  else none

def Numeral.goes (numeral : Numeral) : PyStr → Option Numeral
  | [] => some numeral
  | c :: text => (numeral.go c).bind fun next => next.goes text

/-- Where a text ends as a numeral. -/
def numeralOf : PyStr → Option Numeral
  | [] => none
  | c :: text => (Numeral.start c).bind fun first => first.goes text

/-- What may follow a value: the end, or in an array or object a comma or a closing bracket. -/
def Follows (stack : List Frame) : PyStr → Prop
  | [] => stack = []
  | c :: _ => c = 0x2C ∨ c = 0x5D ∨ c = 0x7D

/-- `x` goes on as `y`, or it fails because of a limit of the interpreter. -/
def Yields (fits : Bool) (x y : Except LoadsError Json) : Prop :=
  if fits then x = y else x = .error .recursion ∨ x = .error .intDigits

theorem Yields.trans {a b : Bool} {x y z : Except LoadsError Json} (h : Yields a x y)
    (h' : Yields b y z) : Yields (a && b) x z := by
  cases a with
  | false => exact h
  | true =>
    obtain rfl : x = y := h
    exact h'

theorem Yields.of_eq {a : Bool} {x y z : Except LoadsError Json} (h : x = y) (h' : Yields a y z) :
    Yields a x z := h ▸ h'

section Numbers

variable {stack : List Frame} {rest : PyStr}

theorem asciiDecimal_isSome {c : CodePoint} :
    (asciiDecimal c).isSome = true ↔ 0x30 ≤ c.val ∧ c.val ≤ 0x39 := by
  unfold asciiDecimal
  split <;> simp_all

theorem begin_start {c : CodePoint} {numeral : Numeral} (h : Numeral.start c = some numeral)
    (mode : Mode) : begin py ⟨stack, mode⟩ c = .ok ⟨stack, .number numeral [c]⟩ := by
  unfold Numeral.start at h
  split at h
  · subst c
    cases h
    rfl
  split at h
  · subst c
    cases h
    rfl
  split at h
  · rename_i hminus hzero hdigit
    cases h
    have hrange := asciiDecimal_isSome.mp hdigit
    have hapart : c ≠ 0x22 ∧ c ≠ 0x5B ∧ c ≠ 0x7B := by
      refine ⟨?_, ?_, ?_⟩ <;> rintro rfl <;> exact absurd hrange (by decide)
    unfold begin
    dsimp only
    rw [if_neg hapart.1, if_neg hapart.2.1, if_neg hapart.2.2, if_neg hminus, if_neg hzero,
      if_pos hdigit]
  · cases h

theorem run_goes {numeral numeral' : Numeral} {text : PyStr} (h : numeral.goes text = some numeral')
    (chars : PyStr) : run py ⟨stack, .number numeral chars⟩ (text ++ rest) =
      run py ⟨stack, .number numeral' (chars ++ text)⟩ rest := by
  induction text generalizing numeral chars with
  | nil =>
    rw [Numeral.goes, Option.some.injEq] at h
    rw [h, List.append_nil, List.nil_append]
  | cons c text ih =>
    rw [Numeral.goes, Option.bind_eq_some_iff] at h
    obtain ⟨next, hgo, hgoes⟩ := h
    have hstep : step py ⟨stack, .number numeral chars⟩ c =
        .ok ⟨stack, .number next (chars ++ [c])⟩ := by
      simp only [step, stepNumber, hgo]
    rw [List.cons_append, run_cons_ok hstep, ih hgoes, List.append_assoc, List.singleton_append]

/-- Behind a number its value is complete. -/
theorem run_number {numeral : Numeral} {chars : PyStr} {value : Json} (hrest : Follows stack rest)
    (h : number py numeral chars = .ok value) :
    run py ⟨stack, .number numeral chars⟩ rest = run py (emit stack value) rest := by
  cases rest with
  | nil =>
    obtain rfl : stack = [] := hrest
    exact h
  | cons c rest =>
    have hstop : numeral.go c = none := by
      rcases hrest with rfl | rfl | rfl <;> cases numeral <;> rfl
    have hspace : isSpace c = false := by
      rcases hrest with rfl | rfl | rfl <;> rfl
    have hword : ¬ (numeral = .minus ∧ c = 0x49) := by
      rintro ⟨-, rfl⟩
      rcases hrest with heq | heq | heq <;> exact absurd heq (by decide)
    rw [run_cons, run_cons]
    congr 1
    simp only [step, stepNumber, hstop, if_neg hword, h, bind, Except.bind]
    cases stack with
    | nil => simp only [emit, hspace]
    | cons frame stack => cases frame <;> rfl

theorem run_number_error {numeral : Numeral} {chars : PyStr} {e : LoadsError}
    (hrest : Follows stack rest) (h : number py numeral chars = .error e) :
    run py ⟨stack, .number numeral chars⟩ rest = .error e := by
  cases rest with
  | nil =>
    obtain rfl : stack = [] := hrest
    exact h
  | cons c rest =>
    have hstop : numeral.go c = none := by
      rcases hrest with rfl | rfl | rfl <;> cases numeral <;> rfl
    have hword : ¬ (numeral = .minus ∧ c = 0x49) := by
      rintro ⟨-, rfl⟩
      rcases hrest with heq | heq | heq <;> exact absurd heq (by decide)
    refine run_cons_error ?_ rest
    simp only [step, stepNumber, hstop, if_neg hword, h, bind, Except.bind]

/-! ### Integers -/

theorem toDigits_head {n : Nat} (hn : 0 < n) :
    ∃ d digits, Nat.toDigits 10 n = d :: digits ∧ d ≠ '0' := by
  induction n using Nat.strongRecOn with
  | ind n ih =>
    rw [Nat.toDigits_eq_if (by decide)]
    split
    · rename_i hlt
      refine ⟨Nat.digitChar n, [], rfl, ?_⟩
      have hall : ∀ k : Fin 10, 0 < k.val → Nat.digitChar k ≠ '0' := by decide
      exact hall ⟨n, hlt⟩ hn
    · obtain ⟨d, digits, hdigits, hd⟩ := ih (n / 10) (by omega) (by omega)
      exact ⟨d, digits ++ [Nat.digitChar (n % 10)], by rw [hdigits, List.cons_append], hd⟩

theorem lit_nat (n : Nat) : PyStr.lit (toString n) =
    (Nat.toDigits 10 n).map fun c => Fin.ofNat 0x110000 c.toNat := by
  rw [PyStr.lit, Nat.toString_eq_repr, Nat.toList_repr]

theorem asciiDecimal_of_isDigit {c : CodePoint} (h : isDigit c = true) :
    asciiDecimal c = some (c.val - 0x30) := by
  simp only [isDigit, Bool.and_eq_true, decide_eq_true_eq] at h
  rw [asciiDecimal, if_pos h]

theorem goes_digits {text : PyStr} (h : text.all isDigit = true) :
    Numeral.digits.goes text = some .digits := by
  induction text with
  | nil => rfl
  | cons c text ih =>
    rw [List.all_cons, Bool.and_eq_true] at h
    have hgo : Numeral.digits.go c = some .digits := by
      simp [Numeral.go, asciiDecimal_of_isDigit h.1]
    rw [Numeral.goes, hgo, Option.bind_some, ih h.2]

/-- The text of a natural number is a numeral without leading zeros. -/
theorem numeralOf_nat (n : Nat) : ∃ numeral, (numeral = .zero ∨ numeral = .digits) ∧
    numeralOf (PyStr.lit (toString n)) = some numeral := by
  rcases Nat.eq_zero_or_pos n with rfl | hpos
  · exact ⟨.zero, Or.inl rfl, by decide⟩
  · refine ⟨.digits, Or.inr rfl, ?_⟩
    obtain ⟨d, digits, hdigits, hd⟩ := toDigits_head hpos
    have hall := lit_nat_digits n
    rw [lit_nat, hdigits, List.map_cons, List.all_cons, Bool.and_eq_true] at hall
    rw [lit_nat, hdigits, List.map_cons]
    have hdigit : d.isDigit = true :=
      Nat.isDigit_of_mem_toDigits (b := 10) (n := n) (by decide) (by decide)
        (by rw [hdigits]; exact List.mem_cons_self)
    obtain ⟨hlow, hhigh⟩ := PyStr.digit_val hdigit
    have hzero : Fin.ofNat 0x110000 d.toNat ≠ 0x30 := by
      intro heq
      have hval : d.toNat % 0x110000 = 48 := congrArg Fin.val heq
      have hlt : d.toNat < 0x110000 := by
        rcases d.valid with h | ⟨-, h⟩
        · exact Nat.lt_trans h (by decide)
        · exact h
      rw [Nat.mod_eq_of_lt hlt] at hval
      exact hd (Char.toNat_inj.mp hval)
    have hminus : Fin.ofNat 0x110000 d.toNat ≠ 0x2D := by
      intro heq
      rw [heq] at hlow
      exact absurd hlow (by decide)
    have hstart : Numeral.start (Fin.ofNat 0x110000 d.toNat) = some .digits := by
      rw [Numeral.start, if_neg hminus, if_neg hzero,
        if_pos (asciiDecimal_isSome.mpr ⟨hlow, hhigh⟩)]
    rw [numeralOf, hstart, Option.bind_some, goes_digits hall.2]

/-- A minus in front of a natural number. -/
theorem numeralOf_minus (n : Nat) : numeralOf (0x2D :: PyStr.lit (toString n)) =
    numeralOf (PyStr.lit (toString n)) := by
  have hall := lit_nat_digits n
  have hne := lit_nat_ne_nil n
  revert hall hne
  generalize PyStr.lit (toString n) = text
  intro hall hne
  cases text with
  | nil => exact absurd rfl hne
  | cons c text =>
    rw [List.all_cons, Bool.and_eq_true] at hall
    have hminus : c ≠ 0x2D := by
      rintro rfl
      exact absurd hall.1 (by decide)
    have hgo : Numeral.minus.go c = Numeral.start c := by
      rw [Numeral.start, if_neg hminus]
      rfl
    show Numeral.minus.goes (c :: text) = _
    rw [Numeral.goes, hgo, numeralOf]

theorem takeSign_nat (n : Nat) : PyFloat.takeSign (PyStr.lit (toString n)) =
    (false, PyStr.lit (toString n)) := by
  have hall := lit_nat_digits n
  generalize PyStr.lit (toString n) = text at hall
  cases text with
  | nil => rfl
  | cons c text =>
    rw [List.all_cons, Bool.and_eq_true] at hall
    have hsign : c ≠ 0x2D ∧ c ≠ 0x2B := by
      constructor <;> rintro rfl <;> exact absurd hall.1 (by decide)
    rw [PyFloat.takeSign, if_neg hsign.1, if_neg hsign.2]

/-- The digits of a natural number have its value. -/
theorem digitsValue_nat (n : Nat) :
    PyFloat.digitsValue ((PyStr.lit (toString n)).filterMap asciiDecimal) = n := by
  have hfold : ∀ (digits : List Char) (m : Nat), (∀ c ∈ digits, c.isDigit = true) →
      ((digits.map fun c => (Fin.ofNat 0x110000 c.toNat : CodePoint)).filterMap asciiDecimal).foldl
        (fun n d => 10 * n + d) m = Nat.ofDigitChars 10 digits m := by
    intro digits
    induction digits with
    | nil => exact fun _ _ => rfl
    | cons c digits ih =>
      intro m h
      rw [List.forall_mem_cons] at h
      have hval : (Fin.ofNat 0x110000 c.toNat).val = c.toNat := by
        refine Nat.mod_eq_of_lt ?_
        rcases c.valid with h | ⟨-, h⟩
        · exact Nat.lt_trans h (by decide)
        · exact h
      have hsome : asciiDecimal (Fin.ofNat 0x110000 c.toNat) = some (c.toNat - 48) := by
        rw [asciiDecimal, if_pos (PyStr.digit_val h.1), hval]
      rw [List.map_cons, List.filterMap_cons_some hsome, List.foldl_cons, ih _ h.2]
      rfl
  rw [PyFloat.digitsValue, lit_nat, hfold _ _ fun c hc =>
    Nat.isDigit_of_mem_toDigits (by decide) (by decide) hc, Nat.ofDigitChars_ten_toDigits]

/-- How many digits an integer has. -/
def intLength (n : Int) : Nat := (Nat.toDigits 10 n.natAbs).length

/-- An integer is read back, unless it is too long. -/
theorem run_int (mode : Mode) (n : Int) (hrest : Follows stack rest) : ∃ c tail,
    PyStr.lit (toString n) = c :: tail ∧ Yields (decide (intLength n ≤ py.intDigits))
      (begin py ⟨stack, mode⟩ c >>= fun s => run py s (tail ++ rest))
      (run py (emit stack (.int n)) rest) := by
  obtain ⟨m, hm⟩ := lit_int_cases n
  obtain ⟨numeral, hnumeral, hnat⟩ := numeralOf_nat m
  have habs : n.natAbs = m := by
    rcases hm with ⟨rfl, -⟩ | ⟨rfl, -⟩ <;> simp
  have hof : numeralOf (PyStr.lit (toString n)) = some numeral := by
    rcases hm with ⟨-, htext⟩ | ⟨-, htext⟩
    · rw [htext, hnat]
    · rw [htext, numeralOf_minus, hnat]
  have hsign : ∃ negative, PyFloat.takeSign (PyStr.lit (toString n)) =
      (negative, PyStr.lit (toString m)) ∧ n = if negative then -(m : Int) else m := by
    rcases hm with ⟨heq, htext⟩ | ⟨heq, htext⟩
    · exact ⟨false, by rw [htext, takeSign_nat], heq⟩
    · exact ⟨true, by rw [htext]; rfl, heq⟩
  obtain ⟨negative, hsign, hvalue⟩ := hsign
  have hlen : (PyStr.lit (toString m)).length = intLength n := by
    rw [lit_nat, List.length_map, intLength, habs]
  have hnumber : number py numeral (PyStr.lit (toString n)) =
      if py.intDigits < intLength n then .error .intDigits else .ok (.int n) := by
    have hbody : number py numeral (PyStr.lit (toString n)) =
        if py.intDigits < (PyStr.lit (toString m)).length then .error .intDigits
        else .ok (.int (if negative then -(m : Int) else m)) := by
      rcases hnumeral with rfl | rfl <;> simp only [number, hsign, digitsValue_nat]
    rw [hbody, hlen, ← hvalue]
  cases htext : PyStr.lit (toString n) with
  | nil => rw [htext] at hof; cases hof
  | cons c tail =>
    rw [htext, numeralOf, Option.bind_eq_some_iff] at hof
    obtain ⟨first, hstart, hgoes⟩ := hof
    refine ⟨c, tail, rfl, ?_⟩
    have hrun : (begin py ⟨stack, mode⟩ c >>= fun s => run py s (tail ++ rest)) =
        run py ⟨stack, .number numeral (c :: tail)⟩ rest := by
      rw [begin_start hstart]
      exact run_goes hgoes [c]
    rw [hrun]
    rw [htext] at hnumber
    unfold Yields
    split
    · rename_i hfits
      rw [decide_eq_true_eq] at hfits
      rw [if_neg (by omega)] at hnumber
      exact run_number hrest hnumber
    · rename_i hfits
      rw [decide_eq_true_eq] at hfits
      rw [if_pos (by omega)] at hnumber
      exact Or.inr (run_number_error hrest hnumber)

end Numbers

/-! ### Floats -/

/-- How `float.__repr__` is read back, on the finite floats that satisfy `P`. -/
structure ReprReads (P : ℚ → Prop) (repr : PyFloat → PyStr) : Prop where
  /-- A point or an exponent tells a float from an integer. -/
  numeral : ∀ q, P q → ∃ numeral, (numeral = .behind ∨ numeral = .expDigits) ∧
    numeralOf (repr (.finite q)) = some numeral
  value : ∀ q, P q → PyFloat.ofText asciiDecimal (repr (.finite q)) = some (.finite q)
  /-- 0.0 has no sign. -/
  zero : P 0 → (PyFloat.takeSign (repr (.finite 0))).1 = false

section Floats

variable {stack : List Frame} {rest : PyStr}

/-- A numeral with a point or an exponent is read as what it means. -/
theorem run_numeral {text : PyStr} {numeral : Numeral} (mode : Mode)
    (hof : numeralOf text = some numeral) {value : Json}
    (hnumber : number py numeral text = .ok value) (hrest : Follows stack rest) : ∃ c tail,
    text = c :: tail ∧ (begin py ⟨stack, mode⟩ c >>= fun s => run py s (tail ++ rest)) =
      run py (emit stack value) rest := by
  cases text with
  | nil => cases hof
  | cons c tail =>
    rw [numeralOf, Option.bind_eq_some_iff] at hof
    obtain ⟨first, hstart, hgoes⟩ := hof
    refine ⟨c, tail, rfl, ?_⟩
    rw [begin_start hstart]
    exact (run_goes hgoes [c]).trans (run_number hrest hnumber)

theorem number_repr {P : ℚ → Prop} {repr : PyFloat → PyStr} (laws : ReprReads P repr) {q : ℚ}
    (hq : P q) : ∃ numeral, numeralOf (repr (.finite q)) = some numeral ∧
      number py numeral (repr (.finite q)) = .ok (.float (.finite q)) := by
  obtain ⟨numeral, hkind, hof⟩ := laws.numeral q hq
  refine ⟨numeral, hof, ?_⟩
  have hsign : ¬ ((PyFloat.takeSign (repr (.finite q))).1 = true ∧
      PyFloat.finite q = PyFloat.finite 0) := by
    rintro ⟨hminus, hzero⟩
    obtain rfl : q = 0 := PyFloat.finite.inj hzero
    rw [laws.zero hq] at hminus
    cases hminus
  rcases hkind with rfl | rfl <;> simp only [number, laws.value q hq, if_neg hsign]

end Floats

/-! ## Values that were written -/

mutual

/-- The value has no integer that is too long, and nests no more deeply than is read; `opened` arrays
    and objects are around it. -/
def fits (py : Interpreter) : Nat → Json → Bool
  | _, .int n => decide (intLength n ≤ py.intDigits)
  | opened, .arr items => decide (opened < py.readDepth) && fitsItems py (opened + 1) items
  | opened, .obj fields => decide (opened < py.readDepth) && fitsFields py (opened + 1) fields
  | _, _ => true

def fitsItems (py : Interpreter) (opened : Nat) : List Json → Bool
  | [] => true
  | item :: items => fits py opened item && fitsItems py opened items

def fitsFields (py : Interpreter) (opened : Nat) : List (PyStr × Json) → Bool
  | [] => true
  | (_, value) :: fields => fits py opened value && fitsFields py opened fields

end

theorem fitsItems_eq (opened : Nat) (items : List Json) :
    fitsItems py opened items = items.all (fits py opened) := by
  induction items with
  | nil => rfl
  | cons item items ih => rw [fitsItems, ih, List.all_cons]

theorem fitsFields_eq (opened : Nat) (fields : List (PyStr × Json)) :
    fitsFields py opened fields = fields.all fun f => fits py opened f.2 := by
  induction fields with
  | nil => rfl
  | cons f fields ih => rw [fitsFields, ih, List.all_cons]

/-- The values of JSON: distinct keys, joined strings, and floats that satisfy `P`. -/
inductive Parsed (P : ℚ → Prop) : Json → Prop where
  | word {value : Json} {text : PyStr} (h : (value, text) ∈ words) : Parsed P value
  | int (n : Int) : Parsed P (.int n)
  | float {q : ℚ} (h : P q) : Parsed P (.float (.finite q))
  | negZero : Parsed P .negZero
  | str {text : PyStr} (h : Joined text) : Parsed P (.str text)
  | arr {items : List Json} (h : ∀ item ∈ items, Parsed P item) : Parsed P (.arr items)
  | obj {fields : List (PyStr × Json)} (hkeys : (fields.map Prod.fst).Nodup)
      (hjoined : ∀ f ∈ fields, Joined f.1) (h : ∀ f ∈ fields, Parsed P f.2) : Parsed P (.obj fields)

section Values

variable (py : Interpreter) (repr : PyFloat → PyStr)

/-- The value is read back behind whatever is open, in front of whatever may follow. -/
def Reads (value : Json) : Prop := ∀ stack orEnd rest, Follows stack rest →
  Yields (fits py stack.length value)
    (run py ⟨stack, .value orEnd⟩ (writeIn compact repr value ++ rest))
    (run py (emit stack value) rest)

variable {py repr} {stack : List Frame} {rest : PyStr}

theorem step_value {c : CodePoint} (hspace : isSpace c = false) (hclose : c ≠ 0x5D) (orEnd : Bool) :
    step py ⟨stack, .value orEnd⟩ c = begin py ⟨stack, .value orEnd⟩ c := by
  simp only [step, hspace, Bool.false_eq_true, if_false, hclose, and_false]

theorem run_value {c : CodePoint} {tail : PyStr} (hspace : isSpace c = false) (hclose : c ≠ 0x5D)
    (orEnd : Bool) : run py ⟨stack, .value orEnd⟩ (c :: tail) =
      begin py ⟨stack, .value orEnd⟩ c >>= fun s => run py s tail := by
  rw [run_cons, step_value hspace hclose]

/-- A number begins with a minus or a digit. -/
theorem start_apart {c : CodePoint} {numeral : Numeral} (h : Numeral.start c = some numeral) :
    isSpace c = false ∧ c ≠ 0x5D := by
  unfold Numeral.start at h
  split at h
  · subst c
    decide
  split at h
  · subst c
    decide
  split at h
  · rename_i hdigit
    have hrange := asciiDecimal_isSome.mp hdigit
    constructor
    · rw [← Bool.not_eq_true]
      intro hspace
      simp only [isSpace, Bool.or_eq_true, decide_eq_true_eq] at hspace
      rcases hspace with ((rfl | rfl) | rfl) | rfl <;> exact absurd hrange (by decide)
    · rintro rfl
      exact absurd hrange (by decide)
  · cases h

theorem run_word (w : CodePoint) (word : PyStr) (value : Json) :
    run py ⟨stack, .word (w :: word) value⟩ (w :: word ++ rest) = run py (emit stack value) rest := by
  induction word generalizing w with
  | nil =>
    have hstep : step py ⟨stack, .word [w] value⟩ w = .ok (emit stack value) := by
      simp only [step, ne_eq, not_true_eq_false, if_false, if_true]
    exact run_cons_ok hstep rest
  | cons w' word ih =>
    have hstep : step py ⟨stack, .word (w :: w' :: word) value⟩ w =
        .ok ⟨stack, .word (w' :: word) value⟩ := by
      simp only [step, ne_eq, not_true_eq_false, if_false, List.cons_ne_nil]
    exact (run_cons_ok hstep _).trans (ih w')

theorem reads_word {value : Json} {text : PyStr} (h : (value, text) ∈ words) :
    Reads py repr value := by
  intro stack orEnd rest _
  have hword : ∀ {c : CodePoint} (w : CodePoint) (word : PyStr) {value : Json},
      isSpace c = false → c ≠ 0x5D →
      begin py ⟨stack, .value orEnd⟩ c = .ok ⟨stack, .word (w :: word) value⟩ →
      run py ⟨stack, .value orEnd⟩ (c :: (w :: word ++ rest)) = run py (emit stack value) rest := by
    intro c w word value hspace hclose hbegin
    rw [run_value hspace hclose, hbegin]
    exact run_word w word value
  simp only [words, List.mem_cons, Prod.mk.injEq, List.not_mem_nil, or_false] at h
  rcases h with ⟨rfl, rfl⟩ | ⟨rfl, rfl⟩ | ⟨rfl, rfl⟩ | ⟨rfl, rfl⟩ | ⟨rfl, rfl⟩ | ⟨rfl, rfl⟩
  · exact hword 0x75 (PyStr.lit "ll") (by decide) (by decide) rfl
  · exact hword 0x72 (PyStr.lit "ue") (by decide) (by decide) rfl
  · exact hword 0x61 (PyStr.lit "lse") (by decide) (by decide) rfl
  · exact hword 0x61 (PyStr.lit "N") (by decide) (by decide) rfl
  · exact hword 0x6E (PyStr.lit "finity") (by decide) (by decide) rfl
  · -- behind the minus the machine expects a number, and finds a word
    have hminus : run py ⟨stack, .value orEnd⟩ (0x2D :: 0x49 :: (0x6E :: PyStr.lit "finity" ++ rest)) =
        run py ⟨stack, .number .minus [0x2D]⟩ (0x49 :: (0x6E :: PyStr.lit "finity" ++ rest)) := by
      rw [run_value (by decide) (by decide)]
      rfl
    refine hminus.trans ((run_cons_ok ?_ _).trans (run_word 0x6E (PyStr.lit "finity") _))
    rfl

/-- A number is read from its first character on. -/
theorem reads_number {value : Json} {text : PyStr} (htext : writeIn compact repr value = text)
    {numeral : Numeral} (hof : numeralOf text = some numeral) (stack : List Frame) (orEnd : Bool)
    (rest : PyStr) {fits : Bool} (h : ∀ c tail, text = c :: tail → Yields fits
      (begin py ⟨stack, .value orEnd⟩ c >>= fun s => run py s (tail ++ rest))
      (run py (emit stack value) rest)) :
    Yields fits (run py ⟨stack, .value orEnd⟩ (writeIn compact repr value ++ rest))
      (run py (emit stack value) rest) := by
  rw [htext]
  cases text with
  | nil => cases hof
  | cons c tail =>
    rw [numeralOf, Option.bind_eq_some_iff] at hof
    obtain ⟨first, hstart, -⟩ := hof
    obtain ⟨hspace, hclose⟩ := start_apart hstart
    rw [List.cons_append, run_value hspace hclose]
    exact h c tail rfl

theorem numeralOf_int (n : Int) : ∃ numeral, numeralOf (PyStr.lit (toString n)) = some numeral := by
  obtain ⟨m, hm⟩ := lit_int_cases n
  obtain ⟨numeral, -, hnat⟩ := numeralOf_nat m
  rcases hm with ⟨-, htext⟩ | ⟨-, htext⟩
  · exact ⟨numeral, by rw [htext, hnat]⟩
  · exact ⟨numeral, by rw [htext, numeralOf_minus, hnat]⟩

theorem reads_int (n : Int) : Reads py repr (.int n) := by
  intro stack orEnd rest hrest
  obtain ⟨numeral, hof⟩ := numeralOf_int n
  refine @reads_number _ _ _ (PyStr.lit (toString n)) rfl _ hof stack orEnd rest _ fun c tail htext => ?_
  obtain ⟨c', tail', htext', hyields⟩ := @run_int py _ _ (.value orEnd) n hrest
  obtain ⟨rfl, rfl⟩ := List.cons.inj (htext.symm.trans htext')
  exact hyields

theorem reads_numeral {value : Json} {numeral : Numeral}
    (hof : numeralOf (writeIn compact repr value) = some numeral)
    (hnumber : number py numeral (writeIn compact repr value) = .ok value)
    (hfits : ∀ opened, fits py opened value = true) : Reads py repr value := by
  intro stack orEnd rest hrest
  refine reads_number rfl hof stack orEnd rest fun c tail htext => ?_
  obtain ⟨c', tail', htext', hrun⟩ := @run_numeral py _ _ _ _ (.value orEnd) hof _ hnumber hrest
  obtain ⟨rfl, rfl⟩ := List.cons.inj (htext.symm.trans htext')
  rw [hfits]
  exact hrun

theorem numeralOf_negZero : numeralOf (PyStr.lit "-0.0") = some .behind := by decide

theorem number_negZero : number py .behind (PyStr.lit "-0.0") = .ok .negZero := by
  have hvalue : PyFloat.ofText asciiDecimal (PyStr.lit "-0.0") = some (.finite 0) := by
    decide +kernel
  simp only [number, hvalue]
  exact if_pos ⟨rfl, trivial⟩

theorem reads_str {text : PyStr} (hjoined : Joined text) : Reads py repr (.str text) := by
  intro stack orEnd rest _
  have hquote : writeIn compact repr (.str text) ++ rest =
      0x22 :: (text.flatMap escapeAscii ++ 0x22 :: rest) := by
    show [0x22] ++ text.flatMap escapeAscii ++ [0x22] ++ rest = _
    simp
  have hopen : begin py ⟨stack, .value orEnd⟩ 0x22 = .ok ⟨stack, .text false [] .none⟩ := rfl
  show run py _ _ = run py _ _
  rw [hquote, run_value (by decide) (by decide), hopen]
  exact run_quote rest hjoined

/-! ### Arrays -/

theorem writeIn_arr (items : List Json) : writeIn compact repr (.arr items) =
    0x5B :: (Readable.join [0x2C] (items.map (writeIn compact repr)) ++ [0x5D]) := by
  show [0x5B] ++ Json.join compact.item (writeItems compact repr items) ++ [0x5D] = _
  rw [writeItems_eq, join_eq]
  rfl

theorem follows_items (frame : Frame) {close : CodePoint} (hclose : close = 0x5D ∨ close = 0x7D)
    (texts : List PyStr) : Follows (frame :: stack)
      ((texts.flatMap fun text => [0x2C] ++ text) ++ close :: rest) := by
  cases texts with
  | nil => exact Or.inr hclose
  | cons text texts => exact Or.inl rfl

/-- The items behind the first. -/
theorem run_items {items : List Json} (hitems : ∀ item ∈ items, Reads py repr item)
    (done : List Json) : Yields (items.all (fits py (stack.length + 1)))
      (run py ⟨.arr done :: stack, .next⟩
        (((items.map (writeIn compact repr)).flatMap fun text => [0x2C] ++ text) ++ 0x5D :: rest))
      (run py (emit stack (.arr (done ++ items))) rest) := by
  induction items generalizing done with
  | nil =>
    rw [List.append_nil]
    exact run_cons_ok rfl rest
  | cons item items ih =>
    rw [List.forall_mem_cons] at hitems
    have hcomma : step py ⟨.arr done :: stack, .next⟩ 0x2C = .ok ⟨.arr done :: stack, .value false⟩ :=
      rfl
    rw [List.map_cons, List.flatMap_cons, List.append_assoc, List.append_assoc,
      List.singleton_append, run_cons_ok hcomma, List.all_cons]
    refine (hitems.1 _ false _ (follows_items _ (Or.inl rfl) _)).trans ?_
    have hrest := ih hitems.2 (done ++ [item])
    rw [List.append_assoc, List.singleton_append] at hrest
    exact hrest

theorem reads_arr {items : List Json} (hitems : ∀ item ∈ items, Reads py repr item) :
    Reads py repr (.arr items) := by
  intro stack orEnd rest _
  have hopen : begin py ⟨stack, .value orEnd⟩ 0x5B =
      if py.readDepth ≤ stack.length then .error .recursion
      else .ok ⟨.arr [] :: stack, .value true⟩ := rfl
  rw [writeIn_arr, List.cons_append, run_value (by decide) (by decide), hopen, fits, fitsItems_eq]
  by_cases hdepth : stack.length < py.readDepth
  · rw [if_neg (by omega), decide_eq_true hdepth, Bool.true_and, List.append_assoc]
    cases items with
    | nil => exact run_cons_ok rfl rest
    | cons item items =>
      rw [List.forall_mem_cons] at hitems
      rw [List.map_cons, Readable.join_cons, List.append_assoc, List.all_cons]
      exact (hitems.1 _ true _ (follows_items _ (Or.inl rfl) _)).trans (run_items hitems.2 [item])
  · rw [if_pos (by omega), decide_eq_false hdepth, Bool.false_and]
    exact Or.inl rfl

/-! ### Objects -/

theorem writeIn_obj (fields : List (PyStr × Json)) : writeIn compact repr (.obj fields) =
    0x7B :: (Readable.join [0x2C] (fields.map (writeField compact repr)) ++ [0x7D]) := by
  show [0x7B] ++ Json.join compact.item (writeFields compact repr fields) ++ [0x7D] = _
  rw [writeFields_eq, join_eq]
  rfl

theorem step_key (orEnd : Bool) :
    step py ⟨stack, .key orEnd⟩ 0x22 = .ok ⟨stack, .text true [] .none⟩ := by
  have hapart : isSpace 0x22 = false ∧ (0x22 : CodePoint) ≠ 0x7D := by decide
  simp only [step, hapart.1, Bool.false_eq_true, if_false, hapart.2, and_false, if_true]

/-- One field, with a key that is new. -/
theorem run_field {f : PyStr × Json} (hjoined : Joined f.1) (hvalue : Reads py repr f.2)
    {done : List (PyStr × Json)} (hnew : f.1 ∉ done.map Prod.fst) (key : PyStr) (orEnd : Bool)
    (hrest : ∀ frame, Follows (frame :: stack) rest) :
    Yields (fits py (stack.length + 1) f.2)
      (run py ⟨.obj done key :: stack, .key orEnd⟩ (writeField compact repr f ++ rest))
      (run py ⟨.obj (done ++ [f]) f.1 :: stack, .next⟩ rest) := by
  have hfield : writeField compact repr f ++ rest = 0x22 :: (f.1.flatMap escapeAscii ++
      0x22 :: 0x3A :: (writeIn compact repr f.2 ++ rest)) := by
    show [0x22] ++ f.1.flatMap escapeAscii ++ [0x22] ++ [0x3A] ++ writeIn compact repr f.2 ++ rest = _
    simp
  have hend : endText ⟨.obj done key :: stack, .text true [] .none⟩ true f.1 =
      .ok ⟨.obj done f.1 :: stack, .colon⟩ := rfl
  have hcolon : step py ⟨.obj done f.1 :: stack, .colon⟩ 0x3A =
      .ok ⟨.obj done f.1 :: stack, .value false⟩ := rfl
  have hemit : emit (.obj done f.1 :: stack) f.2 = ⟨.obj (done ++ [f]) f.1 :: stack, .next⟩ := by
    have hnone : ¬ (done.lookup f.1).isSome = true := fun h => hnew (lookup_isSome.mp h)
    rw [emit, if_neg hnone]
  rw [hfield, run_cons_ok (step_key orEnd), run_quote _ hjoined, hend]
  refine Yields.of_eq (run_cons_ok hcolon _) ?_
  have hread := hvalue (.obj done f.1 :: stack) false rest (hrest _)
  rwa [hemit] at hread

theorem run_fields {fields : List (PyStr × Json)} (hjoined : ∀ f ∈ fields, Joined f.1)
    (hvalues : ∀ f ∈ fields, Reads py repr f.2) {done : List (PyStr × Json)}
    (hkeys : ((done ++ fields).map Prod.fst).Nodup) (key : PyStr) :
    Yields (fields.all fun f => fits py (stack.length + 1) f.2)
      (run py ⟨.obj done key :: stack, .next⟩
        (((fields.map (writeField compact repr)).flatMap fun text => [0x2C] ++ text) ++
          0x7D :: rest))
      (run py (emit stack (.obj (done ++ fields))) rest) := by
  induction fields generalizing done key with
  | nil =>
    rw [List.append_nil]
    exact run_cons_ok rfl rest
  | cons f fields ih =>
    rw [List.forall_mem_cons] at hjoined hvalues
    have hcomma : step py ⟨.obj done key :: stack, .next⟩ 0x2C =
        .ok ⟨.obj done key :: stack, .key false⟩ := rfl
    have hnew : f.1 ∉ done.map Prod.fst := by
      rw [List.map_append, List.map_cons, List.nodup_append] at hkeys
      exact fun hmem => hkeys.2.2 _ hmem _ List.mem_cons_self rfl
    rw [List.map_cons, List.flatMap_cons, List.append_assoc, List.append_assoc,
      List.singleton_append, run_cons_ok hcomma, List.all_cons]
    refine (run_field hjoined.1 hvalues.1 hnew key false
      fun _ => follows_items _ (Or.inr rfl) _).trans ?_
    have hkeys' : ((done ++ [f] ++ fields).map Prod.fst).Nodup := by
      rwa [List.append_assoc, List.singleton_append]
    have hrest := ih hjoined.2 hvalues.2 hkeys' f.1
    rw [List.append_assoc, List.singleton_append] at hrest
    exact hrest

theorem reads_obj {fields : List (PyStr × Json)} (hkeys : (fields.map Prod.fst).Nodup)
    (hjoined : ∀ f ∈ fields, Joined f.1) (hvalues : ∀ f ∈ fields, Reads py repr f.2) :
    Reads py repr (.obj fields) := by
  intro stack orEnd rest _
  have hopen : begin py ⟨stack, .value orEnd⟩ 0x7B =
      if py.readDepth ≤ stack.length then .error .recursion
      else .ok ⟨.obj [] [] :: stack, .key true⟩ := rfl
  rw [writeIn_obj, List.cons_append, run_value (by decide) (by decide), hopen, fits, fitsFields_eq]
  by_cases hdepth : stack.length < py.readDepth
  · rw [if_neg (by omega), decide_eq_true hdepth, Bool.true_and, List.append_assoc]
    cases fields with
    | nil => exact run_cons_ok rfl rest
    | cons f fields =>
      rw [List.forall_mem_cons] at hjoined hvalues
      rw [List.map_cons, Readable.join_cons, List.append_assoc, List.all_cons]
      exact (@run_field _ _ _ _ _ hjoined.1 hvalues.1 [] List.not_mem_nil [] true
        fun _ => follows_items _ (Or.inr rfl) _).trans
          (@run_fields _ _ _ _ _ hjoined.2 hvalues.2 [f] hkeys f.1)
  · rw [if_pos (by omega), decide_eq_false hdepth, Bool.false_and]
    exact Or.inl rfl

/-- **Every value that was written is read back**, within the limits of the interpreter. -/
theorem reads_parsed {P : ℚ → Prop} (laws : ReprReads P repr) {value : Json} (h : Parsed P value) :
    Reads py repr value := by
  induction h with
  | word h => exact reads_word h
  | int n => exact reads_int n
  | float hq =>
    obtain ⟨numeral, hof, hnumber⟩ := @number_repr py _ _ laws _ hq
    exact reads_numeral hof hnumber fun _ => rfl
  | negZero => exact @reads_numeral _ _ _ .behind numeralOf_negZero number_negZero fun _ => rfl
  | str hjoined => exact reads_str hjoined
  | arr _ ih => exact reads_arr ih
  | obj hkeys hjoined _ ih => exact reads_obj hkeys hjoined ih

/-- The text of a value alone. -/
theorem read_writeIn {P : ℚ → Prop} (laws : ReprReads P repr) {value : Json} (h : Parsed P value) :
    Yields (fits py 0 value) (read py (writeIn compact repr value)) (.ok value) := by
  have hread := @reads_parsed py _ _ laws _ h [] false [] rfl
  rwa [List.append_nil] at hread

end Values

end ControlPlane.JsonReader
