/-
  JSON LINES READ WITH `str.splitlines`: which lines come back?

  A file of JSON lines has one object on each line, and a line ends with LF.  `splitlines` also splits
  at other characters: at CR, at the separators among the control characters, and at U+0085, U+2028
  and U+2029, which may stand in a JSON string as they are.

  1. `splitlines_nonblank`: but for blank pieces, `splitlines` of a file splits at each of them.
  2. Interpreters differ in how deep they read and in how long an integer may be, not in what they
     read (`read_agree`).
  3. A line whose object has none of these characters is one piece, which is read wherever the object
     is (`JsonLine.Valid.whole`).
  4. Of any other line one piece is the beginning of an object, which cannot be read
     (`JsonLine.Valid.broken`): behind the first brace something is open, or the value is complete.
-/
import ControlPlane.JsonRead

namespace ControlPlane

/-! ## Splitting -/

namespace PyStr

/-- `open(…, newline=None).read()`, of decoded text; LF behind CR is not read again. -/
def universalNewlines (behindCr : Bool) : PyStr → PyStr
  | [] => []
  | c :: rest =>
      if c = 0x0D then 0x0A :: universalNewlines true rest
      else if behindCr ∧ c = 0x0A then universalNewlines false rest
      else c :: universalNewlines false rest

/-- The characters at which `splitlines` splits. -/
def isBoundary (c : CodePoint) : Bool :=
  let n := c.val
  (0x0A ≤ n && n ≤ 0x0D) || (0x1C ≤ n && n ≤ 0x1E) || n == 0x85 || n == 0x2028 || n == 0x2029

/-- `text.splitlines()`; `current` is the line at hand, and CR LF is one boundary. -/
def splitlines (behindCr : Bool) (current : PyStr) : PyStr → List PyStr
  | [] => if current = [] then [] else [current]
  | c :: rest =>
      if behindCr ∧ c = 0x0A then splitlines false current rest
      else if isBoundary c then current :: splitlines (c = 0x0D) [] rest
      else splitlines false (current ++ [c]) rest

/-- The pieces between boundaries that are not blank. -/
def nonblank (current : PyStr) : PyStr → List PyStr
  | [] => if current.blank then [] else [current]
  | c :: rest =>
      if isBoundary c then (if current.blank then [] else [current]) ++ nonblank [] rest
      else nonblank (current ++ [c]) rest

variable {text current rest : PyStr} {c : CodePoint}

/-- **Blank lines apart** it does not matter which boundaries belong together. -/
theorem splitlines_nonblank (text : PyStr) : ∀ (behindCr : Bool) (current : PyStr),
    (behindCr = true → current = []) →
      (splitlines false current (universalNewlines behindCr text)).filter (fun l => !l.blank) =
        nonblank current text := by
  induction text with
  | nil =>
    intro behindCr current _
    rw [universalNewlines, splitlines, nonblank]
    cases current with
    | nil => rfl
    | cons c current => simp [List.filter_singleton]
  | cons c rest ih =>
    intro behindCr current hcurrent
    rw [universalNewlines, nonblank]
    by_cases hcr : c = 0x0D
    · subst hcr
      have hsplit : splitlines false current (0x0A :: universalNewlines true rest) =
          current :: splitlines false [] (universalNewlines true rest) := rfl
      rw [if_pos rfl, hsplit, List.filter_cons, ih true [] fun _ => rfl]
      cases current.blank <;> rfl
    · rw [if_neg hcr]
      by_cases hlf : behindCr ∧ c = 0x0A
      · obtain rfl := hcurrent hlf.1
        rw [if_pos hlf, hlf.2, ih false [] (fun h => by cases h)]
        rfl
      · rw [if_neg hlf]
        by_cases hboundary : isBoundary c = true
        · have hsplit : splitlines false current (c :: universalNewlines false rest) =
              current :: splitlines false [] (universalNewlines false rest) := by
            rw [splitlines]
            simp [hboundary, hcr]
          rw [hsplit, if_pos hboundary, List.filter_cons, ih false [] fun _ => rfl]
          cases current.blank <;> rfl
        · have hsplit : splitlines false current (c :: universalNewlines false rest) =
              splitlines false (current ++ [c]) (universalNewlines false rest) := by
            rw [splitlines]
            simp [hboundary]
          rw [hsplit, if_neg hboundary, ih false _ fun h => by cases h]

theorem nonblank_boundary (text : PyStr) (hc : isBoundary c = true) : ∀ current : PyStr,
    nonblank current (text ++ c :: rest) = nonblank current text ++ nonblank [] rest := by
  induction text with
  | nil =>
    intro current
    simp only [List.nil_append, nonblank, if_pos hc]
  | cons d text ih =>
    intro current
    rw [List.cons_append, nonblank, nonblank]
    split
    · rw [ih, List.append_assoc]
    · rw [ih]

theorem nonblank_inside (text : PyStr) (h : ∀ c ∈ text, isBoundary c = false) : ∀ current : PyStr,
    nonblank current (text ++ rest) = nonblank (current ++ text) rest := by
  induction text with
  | nil =>
    intro current
    rw [List.nil_append, List.append_nil]
  | cons d text ih =>
    intro current
    rw [List.cons_append, nonblank, if_neg (by rw [h d List.mem_cons_self]; exact Bool.false_ne_true),
      ih (fun c hc => h c (List.mem_cons_of_mem _ hc)), List.append_assoc, List.singleton_append]

theorem blank_append {s t : PyStr} : (s ++ t).blank = (s.blank && t.blank) := List.all_append

/-- Blanks in front are blank pieces, and the beginning of the next piece. -/
theorem nonblank_lead {p : CodePoint → Bool} (hp : ∀ c, p c = true → isSpace c = true)
    (before : PyStr) (hbefore : before.all p = true) : ∀ current : PyStr, current.all p = true →
      ∃ lead : PyStr, lead.all p = true ∧ ∀ rest, nonblank current (before ++ rest) = nonblank lead rest := by
  have hblank : ∀ {s : PyStr}, s.all p = true → s.blank = true := fun h =>
    List.all_eq_true.mpr fun c hc => hp c (List.all_eq_true.mp h c hc)
  induction before with
  | nil => exact fun current hcurrent => ⟨current, hcurrent, fun _ => rfl⟩
  | cons c before ih =>
    intro current hcurrent
    rw [List.all_cons, Bool.and_eq_true] at hbefore
    by_cases hc : isBoundary c = true
    · obtain ⟨lead, hlead, heq⟩ := ih hbefore.2 [] rfl
      refine ⟨lead, hlead, fun rest => ?_⟩
      rw [List.cons_append, nonblank, if_pos hc, if_pos (hblank hcurrent), List.nil_append, heq]
    · obtain ⟨lead, hlead, heq⟩ := ih hbefore.2 (current ++ [c]) (by
        rw [List.all_append, hcurrent, List.all_cons, hbefore.1]
        rfl)
      refine ⟨lead, hlead, fun rest => ?_⟩
      rw [List.cons_append, nonblank, if_neg hc, heq]

/-- Blanks behind are the end of a piece, and blank pieces. -/
theorem nonblank_trail {p : CodePoint → Bool} (hp : ∀ c, p c = true → isSpace c = true)
    (after : PyStr) (hafter : after.all p = true) : ∀ current : PyStr, current.blank = false →
      ∃ trail : PyStr, trail.all p = true ∧ nonblank current after = [current ++ trail] := by
  induction after with
  | nil =>
    intro current hcurrent
    refine ⟨[], rfl, ?_⟩
    rw [nonblank, hcurrent, List.append_nil]
    rfl
  | cons c after ih =>
    intro current hcurrent
    rw [List.all_cons, Bool.and_eq_true] at hafter
    by_cases hc : isBoundary c = true
    · obtain ⟨lead, hlead, heq⟩ := nonblank_lead hp after hafter.2 [] rfl
      have hend := heq []
      have hblank : lead.blank = true :=
        List.all_eq_true.mpr fun c hc => hp c (List.all_eq_true.mp hlead c hc)
      rw [List.append_nil, nonblank, if_pos hblank] at hend
      refine ⟨[], rfl, ?_⟩
      simp [nonblank, hc, hcurrent, hend]
    · obtain ⟨trail, htrail, heq⟩ := ih hafter.2 (current ++ [c]) (by
        rw [blank_append, hcurrent]
        rfl)
      refine ⟨c :: trail, by rw [List.all_cons, hafter.1, htrail]; rfl, ?_⟩
      rw [nonblank, if_neg hc, heq, List.append_assoc, List.singleton_append]

end PyStr

/-! ## Reading pieces -/

namespace JsonReader

variable {py : Interpreter} {s s' : State} {c : CodePoint} {text : PyStr} {value : Json}

/-- Something is open, or a value is complete. -/
def State.Begun (s : State) : Prop := s.stack = [] → ∃ value, s.mode = .done value

theorem begun_emit (stack : List Frame) (value : Json) : (emit stack value).Begun := by
  unfold emit
  split
  · exact fun _ => ⟨value, rfl⟩
  · exact fun h => absurd h (List.cons_ne_nil _ _)
  · exact fun h => absurd h (List.cons_ne_nil _ _)

theorem begun_close {stack : List Frame} (h : close stack = .ok s') : s'.Begun := by
  unfold close at h
  split at h
  · exact Except.ok.inj h ▸ begun_emit _ _
  · exact Except.ok.inj h ▸ begun_emit _ _
  · cases h

theorem begun_push {frame : Frame} {mode : Mode} (h : push py s frame mode = .ok s') : s'.Begun := by
  unfold push at h
  split at h
  · cases h
  · rw [← Except.ok.inj h]
    exact fun h => absurd h (List.cons_ne_nil _ _)

/-- Where something stays open. -/
theorem begun_stay {mode : Mode} (hs : s.stack ≠ []) : State.Begun { s with mode := mode } :=
  fun h => absurd h hs

theorem begun_begin (hs : s.stack ≠ []) (h : begin py s c = .ok s') : s'.Begun := by
  unfold begin at h
  dsimp only at h
  rcases Fallible.ite_ok h with ⟨-, h⟩ | ⟨-, h⟩
  · exact Except.ok.inj h ▸ begun_stay hs
  iterate 2
    rcases Fallible.ite_ok h with ⟨-, h⟩ | ⟨-, h⟩
    · exact begun_push h
  iterate 8
    rcases Fallible.ite_ok h with ⟨-, h⟩ | ⟨-, h⟩
    · exact Except.ok.inj h ▸ begun_stay hs
  cases h

theorem begun_next (hs : s.Begun) (h : next s c = .ok s') : s'.Begun := by
  unfold next at h
  split at h
  · exact Except.ok.inj h ▸ hs
  split at h
  · rename_i hstack
    have hne : s.stack ≠ [] := by simp [hstack]
    split at h
    · exact Except.ok.inj h ▸ begun_stay hne
    split at h
    · exact begun_close h
    · cases h
  · rename_i hstack
    have hne : s.stack ≠ [] := by simp [hstack]
    split at h
    · exact Except.ok.inj h ▸ begun_stay hne
    split at h
    · exact begun_close h
    · cases h
  · cases h

theorem begun_stepText {isKey : Bool} {chars : List (Nat × Bool)} {escape : Escape}
    (hs : s.stack ≠ []) (h : stepText s isKey chars escape c = .ok s') : s'.Begun := by
  unfold stepText at h
  split at h
  · split at h
    · unfold endText at h
      split at h
      · split at h
        · rw [← Except.ok.inj h]
          exact fun h => absurd h (List.cons_ne_nil _ _)
        · cases h
      · exact Except.ok.inj h ▸ begun_emit _ _
    split at h
    · exact Except.ok.inj h ▸ begun_stay hs
    split at h
    · cases h
    · exact Except.ok.inj h ▸ begun_stay hs
  · split at h
    · exact Except.ok.inj h ▸ begun_stay hs
    split at h
    · exact Except.ok.inj h ▸ begun_stay hs
    · cases h
  · split at h
    · cases h
    · dsimp only at h
      split at h <;> exact Except.ok.inj h ▸ begun_stay hs

theorem begun_stepNumber {numeral : Numeral} {chars : PyStr} (hs : s.stack ≠ [])
    (h : stepNumber py s numeral chars c = .ok s') : s'.Begun := by
  unfold stepNumber at h
  split at h
  · exact Except.ok.inj h ▸ begun_stay hs
  split at h
  · exact Except.ok.inj h ▸ begun_stay hs
  · obtain ⟨value, -, h⟩ := Fallible.bind_ok.mp h
    have hemit := begun_emit s.stack value
    dsimp only at h
    split at h
    · split at h
      · exact Except.ok.inj h ▸ hemit
      · cases h
    · exact begun_next hemit h

/-- Once begun, always begun. -/
theorem begun_step (hs : s.Begun) (h : step py s c = .ok s') : s'.Begun := by
  have hopen : (∀ value, s.mode ≠ .done value) → s.stack ≠ [] := by
    intro hmode hstack
    obtain ⟨value, hdone⟩ := hs hstack
    exact hmode value hdone
  unfold step at h
  split at h
  · rename_i hmode
    have hne := hopen (by simp [hmode])
    split at h
    · exact Except.ok.inj h ▸ hs
    split at h
    · exact begun_close h
    · exact begun_begin hne h
  · rename_i hmode
    have hne := hopen (by simp [hmode])
    split at h
    · exact Except.ok.inj h ▸ hs
    split at h
    · exact begun_close h
    split at h
    · exact Except.ok.inj h ▸ begun_stay hne
    · cases h
  · rename_i hmode
    have hne := hopen (by simp [hmode])
    split at h
    · exact Except.ok.inj h ▸ hs
    split at h
    · exact Except.ok.inj h ▸ begun_stay hne
    · cases h
  · exact begun_next hs h
  · rename_i hmode
    exact begun_stepText (hopen (by simp [hmode])) h
  · rename_i hmode
    exact begun_stepNumber (hopen (by simp [hmode])) h
  · cases h
  · rename_i hmode
    have hne := hopen (by simp [hmode])
    split at h
    · cases h
    split at h
    · exact Except.ok.inj h ▸ begun_emit _ _
    · exact Except.ok.inj h ▸ begun_stay hne
  · split at h
    · exact Except.ok.inj h ▸ hs
    · cases h

theorem begun_run (hs : s.Begun) (h : text.foldlM (step py) s = .ok s') : s'.Begun := by
  induction text generalizing s with
  | nil => exact Except.ok.inj h ▸ hs
  | cons c text ih =>
    rw [List.foldlM_cons] at h
    obtain ⟨mid, hmid, hrest⟩ := Fallible.bind_ok.mp h
    exact ih (begun_step hs hmid) hrest

theorem run_append {a b : PyStr} :
    run py s (a ++ b) = a.foldlM (step py) s >>= fun mid => run py mid b := by
  simp only [run, List.foldlM_append, bind_assoc]

/-- Blanks in front of a value. -/
theorem spaces_start (h : text.all isSpace = true) :
    text.foldlM (step py) ⟨[], .value false⟩ = .ok ⟨[], .value false⟩ := by
  induction text with
  | nil => rfl
  | cons c text ih =>
    rw [List.all_cons, Bool.and_eq_true] at h
    have hstep : step py ⟨[], .value false⟩ c = .ok ⟨[], .value false⟩ := by
      rw [step]
      exact if_pos h.1
    rw [List.foldlM_cons, hstep]
    exact ih h.2

/-- Blanks behind a value. -/
theorem spaces_done (h : text.all isSpace = true) :
    text.foldlM (step py) ⟨[], .done value⟩ = .ok ⟨[], .done value⟩ := by
  induction text with
  | nil => rfl
  | cons c text ih =>
    rw [List.all_cons, Bool.and_eq_true] at h
    have hstep : step py ⟨[], .done value⟩ c = .ok ⟨[], .done value⟩ := by
      rw [step]
      exact if_pos h.1
    rw [List.foldlM_cons, hstep]
    exact ih h.2

/-- And nothing else. -/
theorem spaces_of_done (h : (text.foldlM (step py) ⟨[], .done value⟩).isOk = true) :
    text.all isSpace = true := by
  induction text with
  | nil => rfl
  | cons c text ih =>
    rw [List.foldlM_cons] at h
    by_cases hc : isSpace c = true
    · have hstep : step py ⟨[], .done value⟩ c = .ok ⟨[], .done value⟩ := by
        rw [step]
        exact if_pos hc
      rw [hstep] at h
      rw [List.all_cons, hc, ih h]
      rfl
    · have hstep : step py ⟨[], .done value⟩ c = .error .malformed := by
        rw [step]
        exact if_neg hc
      rw [hstep] at h
      cases h

/-! ### Interpreters -/

section Agree

variable {py' : Interpreter} {s₁ s₂ : State} {v₁ v₂ : Json}

theorem push_agree {frame : Frame} {mode : Mode} (h₁ : push py s frame mode = .ok s₁)
    (h₂ : push py' s frame mode = .ok s₂) : s₁ = s₂ := by
  unfold push at h₁ h₂
  split at h₁
  · cases h₁
  split at h₂
  · cases h₂
  · exact (Except.ok.inj h₁).symm.trans (Except.ok.inj h₂)

theorem begin_agree (h₁ : begin py s c = .ok s₁) (h₂ : begin py' s c = .ok s₂) : s₁ = s₂ := by
  by_cases harr : c = 0x5B
  · subst harr
    exact @push_agree _ _ _ _ _ (.arr []) (.value true) h₁ h₂
  by_cases hobj : c = 0x7B
  · subst hobj
    exact @push_agree _ _ _ _ _ (.obj [] []) (.key true) h₁ h₂
  have hsame : begin py s c = begin py' s c := by
    unfold begin
    simp only [if_neg harr, if_neg hobj]
  exact Except.ok.inj (h₁.symm.trans (hsame.trans h₂))

theorem number_agree {numeral : Numeral} {chars : PyStr} (h₁ : number py numeral chars = .ok v₁)
    (h₂ : number py' numeral chars = .ok v₂) : v₁ = v₂ := by
  unfold number at h₁ h₂
  split at h₁
  iterate 2
    dsimp only at h₁ h₂
    split at h₁
    · cases h₁
    split at h₂
    · cases h₂
    · exact (Except.ok.inj h₁).symm.trans (Except.ok.inj h₂)
  iterate 2
    exact Except.ok.inj (h₁.symm.trans h₂)
  cases h₁

theorem stepNumber_agree {numeral : Numeral} {chars : PyStr}
    (h₁ : stepNumber py s numeral chars c = .ok s₁) (h₂ : stepNumber py' s numeral chars c = .ok s₂) :
    s₁ = s₂ := by
  unfold stepNumber at h₁ h₂
  cases hgo : numeral.go c with
  | some numeral =>
    simp only [hgo] at h₁ h₂
    exact Except.ok.inj (h₁.symm.trans h₂)
  | none =>
    simp only [hgo] at h₁ h₂
    by_cases hword : numeral = .minus ∧ c = 0x49
    · rw [if_pos hword] at h₁ h₂
      exact Except.ok.inj (h₁.symm.trans h₂)
    · rw [if_neg hword] at h₁ h₂
      obtain ⟨v₁, hv₁, h₁⟩ := Fallible.bind_ok.mp h₁
      obtain ⟨v₂, hv₂, h₂⟩ := Fallible.bind_ok.mp h₂
      obtain rfl := number_agree hv₁ hv₂
      exact Except.ok.inj (h₁.symm.trans h₂)

theorem step_agree (h₁ : step py s c = .ok s₁) (h₂ : step py' s c = .ok s₂) : s₁ = s₂ := by
  obtain ⟨stack, mode⟩ := s
  cases mode with
  | value orEnd =>
    by_cases hspace : isSpace c = true
    · simp only [step, if_pos hspace] at h₁ h₂
      exact Except.ok.inj (h₁.symm.trans h₂)
    by_cases hend : orEnd = true ∧ c = 0x5D
    · simp only [step, if_neg hspace, if_pos hend] at h₁ h₂
      exact Except.ok.inj (h₁.symm.trans h₂)
    · simp only [step, if_neg hspace, if_neg hend] at h₁ h₂
      exact begin_agree h₁ h₂
  | number numeral chars => exact stepNumber_agree h₁ h₂
  | word rest value =>
    cases rest <;> exact Except.ok.inj (h₁.symm.trans h₂)
  | _ => exact Except.ok.inj (h₁.symm.trans h₂)

theorem steps_agree (h₁ : text.foldlM (step py) s = .ok s₁) (h₂ : text.foldlM (step py') s = .ok s₂) :
    s₁ = s₂ := by
  induction text generalizing s with
  | nil => exact Except.ok.inj (h₁.symm.trans h₂)
  | cons c text ih =>
    rw [List.foldlM_cons] at h₁ h₂
    obtain ⟨m₁, hm₁, h₁⟩ := Fallible.bind_ok.mp h₁
    obtain ⟨m₂, hm₂, h₂⟩ := Fallible.bind_ok.mp h₂
    obtain rfl := step_agree hm₁ hm₂
    exact ih h₁ h₂

/-- **Two interpreters** that read a text read the same. -/
theorem read_agree (h₁ : read py text = .ok v₁) (h₂ : read py' text = .ok v₂) : v₁ = v₂ := by
  obtain ⟨s₁, hs₁, h₁⟩ := Fallible.bind_ok.mp h₁
  obtain ⟨s₂, hs₂, h₂⟩ := Fallible.bind_ok.mp h₂
  obtain rfl := steps_agree hs₁ hs₂
  obtain ⟨stack, mode⟩ := s₁
  cases stack with
  | nil =>
    cases mode with
    | number numeral chars => exact number_agree h₁ h₂
    | _ => exact Except.ok.inj (h₁.symm.trans h₂)
  | cons => exact Except.ok.inj (h₁.symm.trans h₂)

end Agree

/-- Where something is open the text may not end. -/
theorem finish_open (h : s.stack ≠ []) : finish py s = .error .malformed := by
  unfold finish
  split
  · rename_i hstack _
    exact absurd hstack h
  · rename_i hstack _
    exact absurd hstack h
  · rfl

/-- Behind its brace an object has begun. -/
theorem begun_object {mid : State} (h : (0x7B :: text).foldlM (step py) ⟨[], .value false⟩ = .ok mid) :
    mid.Begun := by
  rw [List.foldlM_cons] at h
  obtain ⟨first, hfirst, hrest⟩ := Fallible.bind_ok.mp h
  exact begun_run (@begun_push _ ⟨[], .value false⟩ _ (.obj [] []) _ hfirst) hrest

end JsonReader

/-! ## Lines -/

/-- A blank that may stand on a line around an object. -/
def lineSpace (c : CodePoint) : Bool := c = 0x20 || c = 0x09 || c = 0x0D

/-- A line of a file of JSON lines. -/
structure JsonLine where
  before : PyStr
  object : PyStr
  after : PyStr
  fields : List (PyStr × Json)

namespace JsonLine

def text (l : JsonLine) : PyStr := l.before ++ l.object ++ l.after

/-- One object, from its brace to its brace, and blanks around it. -/
structure Valid (py : Interpreter) (l : JsonLine) : Prop where
  before : l.before.all lineSpace = true
  after : l.after.all lineSpace = true
  opens : l.object.head? = some 0x7B
  closes : l.object.getLast? = some 0x7D
  oneLine : 0x0A ∉ l.object
  read : JsonReader.read py l.object = .ok (.obj l.fields)

/-- No character of the object is a boundary. -/
def Clean (l : JsonLine) : Prop := ∀ c ∈ l.object, PyStr.isBoundary c = false

/-- The file. -/
def fileText (lines : List JsonLine) : PyStr := lines.flatMap fun l => l.text ++ [0x0A]

/-- **The pieces of a file** are the pieces of its lines. -/
theorem nonblank_fileText (lines : List JsonLine) :
    PyStr.nonblank [] (fileText lines) = lines.flatMap fun l => PyStr.nonblank [] l.text := by
  induction lines with
  | nil => rfl
  | cons l lines ih =>
    rw [fileText, List.flatMap_cons, List.append_assoc, List.singleton_append,
      PyStr.nonblank_boundary _ (by decide), List.flatMap_cons, ← ih, fileText]

variable {py : Interpreter} {l : JsonLine}

theorem isSpace_of_lineSpace (c : CodePoint) (h : lineSpace c = true) : PyStr.isSpace c = true := by
  simp only [lineSpace, Bool.or_eq_true, decide_eq_true_eq] at h
  rcases h with (rfl | rfl) | rfl <;> decide

theorem isSpace_of_all {text : PyStr} (h : text.all lineSpace = true) :
    text.all JsonReader.isSpace = true := by
  refine List.all_eq_true.mpr fun c hc => ?_
  have hspace := List.all_eq_true.mp h c hc
  simp only [lineSpace, Bool.or_eq_true, decide_eq_true_eq] at hspace
  rcases hspace with (rfl | rfl) | rfl <;> decide

theorem not_blank_of_brace {a b : PyStr} : PyStr.blank (a ++ 0x7B :: b) = false := by
  rw [PyStr.blank_append, Bool.and_eq_false_iff]
  exact .inr (by rw [PyStr.blank, List.all_cons]; rfl)

theorem Valid.object_eq (h : l.Valid py) : ∃ rest, l.object = 0x7B :: rest :=
  ⟨l.object.tail, List.eq_cons_of_mem_head? h.opens⟩

/-- Behind its object a line has been read. -/
theorem Valid.object_done (h : l.Valid py) :
    l.object.foldlM (JsonReader.step py) ⟨[], .value false⟩ = .ok ⟨[], .done (.obj l.fields)⟩ := by
  obtain ⟨rest, hobject⟩ := h.object_eq
  obtain ⟨mid, hmid, hfinish⟩ := Fallible.bind_ok.mp h.read
  have hbegun : mid.Begun := by
    rw [hobject] at hmid
    exact JsonReader.begun_object hmid
  by_cases hstack : mid.stack = []
  · obtain ⟨value, hmode⟩ := hbegun hstack
    obtain ⟨stack, mode⟩ := mid
    subst hstack hmode
    rw [hmid, ← Except.ok.inj hfinish]
  · rw [JsonReader.finish_open hstack] at hfinish
    cases hfinish

variable {py' : Interpreter}

/-- An object with blanks around it. -/
theorem Valid.read_between (h : l.Valid py') {lead trail : PyStr} (hlead : lead.all lineSpace = true)
    (htrail : trail.all lineSpace = true) :
    JsonReader.read py (lead ++ l.object ++ trail) = JsonReader.read py l.object := by
  rw [JsonReader.read_eq_run, JsonReader.read_eq_run, List.append_assoc, JsonReader.run_append,
    JsonReader.spaces_start (isSpace_of_all hlead)]
  show JsonReader.run py _ (l.object ++ trail) = _
  rw [JsonReader.run_append, ← List.append_nil l.object, JsonReader.run_append, List.append_nil]
  cases hmid : l.object.foldlM (JsonReader.step py) ⟨[], .value false⟩ with
  | error e => rfl
  | ok mid =>
    obtain rfl := JsonReader.steps_agree hmid h.object_done
    show JsonReader.run py _ trail = _
    rw [← List.append_nil trail, JsonReader.run_append,
      JsonReader.spaces_done (isSpace_of_all htrail)]

/-- **A clean line** is one piece, and reads as its object. -/
theorem Valid.whole (h : l.Valid py') (hclean : l.Clean) : ∃ piece,
    PyStr.nonblank [] l.text = [piece] ∧ ∀ py, JsonReader.read py piece = JsonReader.read py l.object := by
  obtain ⟨rest, hobject⟩ := h.object_eq
  obtain ⟨lead, hlead, hfront⟩ := PyStr.nonblank_lead isSpace_of_lineSpace l.before h.before [] rfl
  have hblank : PyStr.blank (lead ++ l.object) = false := by
    rw [hobject]
    exact not_blank_of_brace
  obtain ⟨trail, htrail, hback⟩ :=
    PyStr.nonblank_trail isSpace_of_lineSpace l.after h.after (lead ++ l.object) hblank
  refine ⟨lead ++ l.object ++ trail, ?_, fun py => h.read_between hlead htrail⟩
  rw [text, List.append_assoc, hfront, PyStr.nonblank_inside _ hclean, hback]

/-- The first boundary of a text. -/
theorem exists_boundary {text : PyStr} (h : ¬ ∀ c ∈ text, PyStr.isBoundary c = false) :
    ∃ a c b, text = a ++ c :: b ∧ (∀ d ∈ a, PyStr.isBoundary d = false) ∧
      PyStr.isBoundary c = true := by
  induction text with
  | nil => exact absurd (fun c hc => absurd hc List.not_mem_nil) h
  | cons c text ih =>
    by_cases hc : PyStr.isBoundary c = true
    · exact ⟨[], c, text, rfl, fun d hd => absurd hd List.not_mem_nil, hc⟩
    · rw [Bool.not_eq_true] at hc
      obtain ⟨a, d, b, rfl, ha, hd⟩ := ih fun hrest => h (List.forall_mem_cons.mpr ⟨hc, hrest⟩)
      exact ⟨c :: a, d, b, rfl, List.forall_mem_cons.mpr ⟨hc, ha⟩, hd⟩

/-- **Any other line** has a piece that cannot be read. -/
theorem Valid.broken (h : l.Valid py') (hclean : ¬ l.Clean) : ∃ piece ∈ PyStr.nonblank [] l.text,
    ∀ py value, JsonReader.read py piece ≠ .ok value := by
  obtain ⟨a, c, b, hsplit, ha, hc⟩ := exists_boundary hclean
  obtain ⟨rest, hobject⟩ := h.object_eq
  have hbrace : ∃ a', a = 0x7B :: a' := by
    cases a with
    | nil =>
      obtain ⟨rfl, -⟩ := List.cons.inj (hobject.symm.trans hsplit)
      exact absurd hc (by decide)
    | cons d a =>
      obtain ⟨rfl, -⟩ := List.cons.inj (hobject.symm.trans hsplit)
      exact ⟨a, rfl⟩
  obtain ⟨a', rfl⟩ := hbrace
  obtain ⟨lead, hlead, hfront⟩ := PyStr.nonblank_lead isSpace_of_lineSpace l.before h.before [] rfl
  have hpieces : PyStr.nonblank [] l.text =
      (lead ++ 0x7B :: a') :: PyStr.nonblank [] (b ++ l.after) := by
    have hend : PyStr.nonblank (lead ++ 0x7B :: a') (c :: (b ++ l.after)) =
        (lead ++ 0x7B :: a') :: PyStr.nonblank [] (b ++ l.after) := by
      simp [PyStr.nonblank, hc, not_blank_of_brace]
    rw [text, List.append_assoc, hfront, hsplit, List.append_assoc, PyStr.nonblank_inside _ ha,
      List.cons_append, hend]
  refine ⟨_, by rw [hpieces]; exact List.mem_cons_self, fun py value hread => ?_⟩
  -- at the boundary something is open, or the object would end with blanks
  have hdone := h.object_done
  rw [hsplit, List.foldlM_append] at hdone
  obtain ⟨mid, hmid, hrest⟩ := Fallible.bind_ok.mp hdone
  have hopen : mid.stack ≠ [] := by
    intro hstack
    obtain ⟨value, hmode⟩ := JsonReader.begun_object hmid hstack
    obtain ⟨stack, mode⟩ := mid
    subst hstack hmode
    have hspaces : (c :: b).all JsonReader.isSpace = true :=
      @JsonReader.spaces_of_done py' _ value (by rw [hrest]; rfl)
    have hlast : (0x7D : CodePoint) ∈ c :: b := by
      have hcloses := h.closes
      rw [hsplit, List.getLast?_append_of_ne_nil _ (List.cons_ne_nil _ _)] at hcloses
      exact List.mem_of_getLast? hcloses
    exact absurd (List.all_eq_true.mp hspaces _ hlast) (by decide)
  rw [JsonReader.read_eq_run, JsonReader.run_append,
    JsonReader.spaces_start (isSpace_of_all hlead)] at hread
  change JsonReader.run py _ (0x7B :: a') = _ at hread
  obtain ⟨last, hlast, hfinish⟩ := Fallible.bind_ok.mp hread
  rw [JsonReader.steps_agree hlast hmid, JsonReader.finish_open hopen] at hfinish
  cases hfinish

end JsonLine

end ControlPlane
