/-
  REDACTION of what a renderer oracle's process leaves behind.

  `run_bounded_process` of `apps/rendering/oracle_process.py` reads the two streams of a process under a
  deadline and a byte cap.  How the process goes is a SCRIPT: what each turn of the loop is given by the
  clock, the selector and the reads, and what is there at the end.

  1. Redaction is a substitution with a fenced marker, so it leaves no sensitive value (`redact_avoids`).
  2. A cut at a byte limit keeps a piece of the text (`utf8SafeTail_ok`, `utf8SafeHead_ok`), and no value
     comes about in a piece.
  3. The text that is redacted was decoded with replacement, so it can be encoded and no cut raises
     (`diagnosticTail_ok`); so for every script (`redaction_complete`), and every script comes to an
     outcome once the deadline has passed (`runBoundedProcess_isSome`).
-/
import ControlPlane.Fallible
import ControlPlane.Readable
import ControlPlane.Substitution
import ControlPlane.Utf8Lossy
import Mathlib.Data.List.Sort

namespace ControlPlane.Rendering

open PyStr

def diagnosticTailBytes : Nat := 4000

def commandContextBytes : Nat := 1000

def maxSensitiveValues : Nat := 64

def maxSensitiveValueBytes : Nat := 4096

def maxSensitiveTotalBytes : Nat := 64 * 1024

/-- The subclass of `BoundedProcessError` that is raised. -/
inductive ErrorKind where
  | timedOut
  | outputLimitExceeded
  | exitedNonzero
  deriving DecidableEq, Repr

/-- A `BoundedProcessError`, by the parts of its message. -/
structure ProcessError where
  kind : ErrorKind
  headline : PyStr
  command : PyStr
  diagnostic : PyStr
  deriving DecidableEq, Repr

/-- The message. -/
def ProcessError.message (error : ProcessError) : PyStr :=
  error.headline ++ lit "\ncommand: " ++ error.command ++ lit "\ndiagnostic:\n" ++ error.diagnostic

inductive Failure where
  | value (message : PyStr)
  | unicodeEncode
  | process (error : ProcessError)
  deriving DecidableEq, Repr

structure BoundedProcessResult where
  returncode : Int
  output : PyStr
  deriving DecidableEq, Repr

/-! ## Redaction -/

def marker : PyStr := lit "<redacted>"

/-- `sorted(candidates, key=len, reverse=True)`. -/
def longestFirst (candidates : List PyStr) : List PyStr :=
  candidates.insertionSort fun a b => b.length ≤ a.length

/-- `_redact`. -/
def redact (value : PyStr) (sensitiveValues : List PyStr) : PyStr :=
  let candidates := sensitiveValues.filter fun sensitive => sensitive ≠ []
  if candidates = [] then value
  else Substitution.scan (longestFirst candidates) marker 0 value

def encodeText (value : PyStr) : Except Failure (List UInt8) :=
  match value.encode with
  | none => .error .unicodeEncode
  | some raw => .ok raw

/-- `_utf8_safe_tail`, for a limit that is positive. -/
def utf8SafeTail (value : PyStr) (maxBytes : Nat) : Except Failure PyStr := do
  let raw ← encodeText value
  if raw.length ≤ maxBytes then .ok value
  else .ok (decodeLossy [] (raw.drop (raw.length - maxBytes)))

/-- `_utf8_safe_head`. -/
def utf8SafeHead (value : PyStr) (maxBytes : Nat) : Except Failure PyStr := do
  let raw ← encodeText value
  if raw.length ≤ maxBytes then .ok value
  else .ok (decodeLossy [] (raw.take maxBytes))

/-- `_diagnostic_tail`, of bytes. -/
def diagnosticTail (raw : List UInt8) (sensitiveValues : List PyStr) : Except Failure PyStr :=
  utf8SafeTail (redact (decodeLossy replacement raw) sensitiveValues) diagnosticTailBytes

/-- `_command_context`. -/
def commandContext (command sensitiveValues : List PyStr) : Except Failure PyStr :=
  utf8SafeHead (redact (Readable.join (lit " ") command) sensitiveValues) commandContextBytes

/-- One turn of the loop of `_validate_sensitive_values`. -/
def addSensitive (acc : List PyStr × Nat) (value : PyStr) : Except Failure (List PyStr × Nat) :=
  if value = [] then .ok acc
  else if maxSensitiveValueBytes < value.length then
    .error (.value (lit "sensitive value exceeds the 4096-byte redaction cap"))
  else do
    let raw ← encodeText value
    if maxSensitiveValueBytes < raw.length then
      .error (.value (lit "sensitive value exceeds the 4096-byte redaction cap"))
    else if maxSensitiveTotalBytes < acc.2 + raw.length then
      .error (.value (lit "sensitive_values exceeds the 65536-byte aggregate cap"))
    else .ok (acc.1 ++ [value], acc.2 + raw.length)

/-- `_validate_sensitive_values`, of a list of strings. -/
def validateSensitiveValues (values : List PyStr) : Except Failure (List PyStr) :=
  if maxSensitiveValues < values.length then
    .error (.value (lit "sensitive_values exceeds the 64-item cap"))
  else (values.foldlM addSensitive ([], 0)).map Prod.fst

/-! ## The process -/

inductive Stream where
  | stdout
  | stderr
  deriving DecidableEq, Repr

/-- `os.read`: the bytes, none at the end of the stream; `none` is `BlockingIOError`. -/
abbrev Reading := Option (List UInt8)

/-- A turn of the loop: whether the deadline has passed, and what is read of the streams that the
    selector reports. -/
structure Turn where
  expired : Bool
  events : List (Stream × Reading)

/-- How a process goes.  At the end `exit` is its status; `none` is `TimeoutExpired`. -/
structure Script where
  turns : List Turn
  expired : Bool
  exit : Option Int

/-- `timeout_seconds`: whether it is at most zero, and its text in the format `g`. -/
structure Timeout where
  nonpositive : Bool
  text : PyStr

/-- What was read so far, and which streams are still registered. -/
structure Capture where
  stdout : List UInt8 := []
  stderr : List UInt8 := []
  registered : List Stream := [.stdout, .stderr]
  total : Nat := 0

def Capture.extend (capture : Capture) (stream : Stream) (chunk : List UInt8) : Capture :=
  match stream with
  | .stdout => { capture with
      stdout := capture.stdout ++ chunk, total := capture.total + chunk.length }
  | .stderr => { capture with
      stderr := capture.stderr ++ chunk, total := capture.total + chunk.length }

/-- `_captured_diagnostic`. -/
def capturedDiagnostic (capture : Capture) (sensitiveValues : List PyStr) : Except Failure PyStr :=
  diagnosticTail
    (Readable.join [0x0A] ([capture.stdout, capture.stderr].filter fun content => content ≠ []))
    sensitiveValues

section Run

variable (command : List PyStr) (timeout : Timeout) (outputMaxBytes : Int)
  (sensitiveValues : List PyStr)

/-- What is raised, with what was captured. -/
def raised {α : Type} (kind : ErrorKind) (headline : PyStr) (capture : Capture) : Except Failure α := do
  let diagnostic ← capturedDiagnostic capture sensitiveValues
  let context ← commandContext command sensitiveValues
  .error (.process ⟨kind, headline, context, diagnostic⟩)

def raisedTimeout {α : Type} (capture : Capture) : Except Failure α :=
  raised command sensitiveValues .timedOut (lit "process exceeded " ++ timeout.text ++ lit "s") capture

/-- One event of a turn. -/
def readEvent (capture : Capture) (event : Stream × Reading) : Except Failure Capture :=
  match event.2 with
  | none => .ok capture
  | some chunk =>
    if chunk = [] then .ok { capture with registered := capture.registered.erase event.1 }
    else
      let capture := capture.extend event.1 chunk
      if outputMaxBytes < capture.total then
        raised command sensitiveValues .outputLimitExceeded
          (lit "process output cap exceeded: " ++ lit (toString outputMaxBytes) ++ lit " bytes") capture
      else .ok capture

/-- `while selector.get_map()`; the selector reports streams that are registered.  `none`: the turns
    have run out. -/
def readAll : List Turn → Capture → Option (Except Failure Capture)
  | [], capture => if capture.registered = [] then some (.ok capture) else none
  | turn :: turns, capture =>
    if capture.registered = [] then some (.ok capture)
    else if turn.expired then some (raisedTimeout command timeout sensitiveValues capture)
    else
      match (turn.events.filter fun event => event.1 ∈ capture.registered).foldlM
          (readEvent command outputMaxBytes sensitiveValues) capture with
      | .error failure => some (.error failure)
      | .ok capture => readAll turns capture

/-- Behind the loop. -/
def finish (check : Bool) (expired : Bool) (exit : Option Int) (capture : Capture) :
    Except Failure BoundedProcessResult :=
  if expired then raisedTimeout command timeout sensitiveValues capture
  else match exit with
    | none => raisedTimeout command timeout sensitiveValues capture
    | some returncode =>
      let stdout := strip (decodeLossy replacement capture.stdout)
      let stderr := strip (decodeLossy replacement capture.stderr)
      if check ∧ returncode ≠ 0 then
        raised command sensitiveValues .exitedNonzero
          (lit "process failed (" ++ lit (toString returncode) ++ lit ")") capture
      else do
        let output ← utf8SafeTail
          (redact (Readable.join (lit "\n") ([stdout, stderr].filter fun part => part ≠ []))
            sensitiveValues) outputMaxBytes.toNat
        .ok ⟨returncode, output⟩

/-- `run_bounded_process`; `none`: the script has no turn for a stream that is open. -/
def runBoundedProcess (check : Bool) (script : Script) :
    Option (Except Failure BoundedProcessResult) :=
  if timeout.nonpositive ∨ outputMaxBytes ≤ 0 then
    some (.error (.value (lit "process limits must be positive")))
  else
    match validateSensitiveValues sensitiveValues with
    | .error failure => some (.error failure)
    | .ok validated =>
      (readAll command timeout outputMaxBytes validated script.turns {}).map fun captured =>
        captured >>= finish command timeout outputMaxBytes validated check script.expired script.exit

end Run

/-! ## What redaction leaves -/

/-- A value that no marker can hold or make: without the characters at its ends, and no part of it. -/
structure Fenced (value : PyStr) : Prop where
  first : 0x3C ∉ value
  last : 0x3E ∉ value
  apart : ¬ value <:+: marker

/-- A text that can be shown: none of the values in it, and in UTF-8 no longer than the limit. -/
structure Safe (values : List PyStr) (limit : Nat) (text : PyStr) : Prop where
  avoids : ∀ value ∈ values, ¬ value <:+: text
  scalar : Scalar text
  bounded : (encoded text).length ≤ limit

variable {values validated command : List PyStr} {value text : PyStr} {limit : Nat}

theorem Fenced.ne_nil (h : Fenced value) : value ≠ [] :=
  fun hnil => h.apart (hnil ▸ List.nil_infix)

/-- **No sensitive value is left.** -/
theorem redact_avoids (hvalue : value ∈ values) (hfenced : Fenced value) :
    ¬ value <:+: redact text values := by
  have hmem : value ∈ values.filter fun sensitive => sensitive ≠ [] :=
    List.mem_filter.mpr ⟨hvalue, decide_eq_true hfenced.ne_nil⟩
  have hcandidates : values.filter (fun sensitive => sensitive ≠ []) ≠ [] := List.ne_nil_of_mem hmem
  rw [redact, if_neg hcandidates]
  exact Substitution.scan_avoids ((List.mem_insertionSort _).mpr hmem) rfl rfl hfenced.first
    hfenced.last hfenced.apart

theorem redact_scalar (h : Scalar text) : Scalar (redact text values) := by
  rw [redact]
  split
  · exact h
  · intro c hc
    rcases Substitution.mem_scan hc with hmarker | htext
    · exact lit_scalar "<redacted>" c hmarker
    · exact h c htext

theorem encodeText_ok (h : Scalar text) : encodeText text = .ok (encoded text) := by
  rw [encodeText, encode_of_scalar h]

/-- **A cut in front** keeps a piece. -/
theorem utf8SafeTail_ok (h : Scalar text) :
    ∃ piece, utf8SafeTail text limit = .ok piece ∧ piece <:+: text ∧ (encoded piece).length ≤ limit := by
  rw [utf8SafeTail, encodeText_ok h]
  by_cases hlength : (encoded text).length ≤ limit
  · exact ⟨text, if_pos hlength, List.infix_refl text, hlength⟩
  · obtain ⟨piece, hsuffix, hdecode, hbounded⟩ :=
      @decodeLossy_drop _ ((encoded text).length - limit) h
    refine ⟨piece, (if_neg hlength).trans ?_, hsuffix.isInfix, by omega⟩
    rw [hdecode]

/-- **A cut behind** keeps one too. -/
theorem utf8SafeHead_ok (h : Scalar text) :
    ∃ piece, utf8SafeHead text limit = .ok piece ∧ piece <:+: text ∧ (encoded piece).length ≤ limit := by
  rw [utf8SafeHead, encodeText_ok h]
  by_cases hlength : (encoded text).length ≤ limit
  · exact ⟨text, if_pos hlength, List.infix_refl text, hlength⟩
  · obtain ⟨piece, hprefix, hdecode, hbounded⟩ := @decodeLossy_take _ limit h
    refine ⟨piece, (if_neg hlength).trans ?_, hprefix.isInfix, hbounded⟩
    rw [hdecode]

/-- A piece of what was redacted can be shown. -/
theorem Safe.of_piece (hfenced : ∀ value ∈ values, Fenced value) (hscalar : Scalar text)
    (hpiece : value <:+: redact text values) (hlength : (encoded value).length ≤ limit) :
    Safe values limit value where
  avoids sensitive hmem hin := redact_avoids hmem (hfenced sensitive hmem) (hin.trans hpiece)
  scalar := Scalar.infix (redact_scalar hscalar) hpiece
  bounded := hlength

theorem replacement_scalar : Scalar replacement := by decide

theorem scalar_join {sep : PyStr} {texts : List PyStr} (hsep : Scalar sep)
    (h : ∀ text ∈ texts, Scalar text) : Scalar (Readable.join sep texts) := by
  cases texts with
  | nil => exact fun c hc => absurd hc List.not_mem_nil
  | cons text rest =>
    rw [List.forall_mem_cons] at h
    rw [Readable.join_cons, scalar_append]
    refine ⟨h.1, fun c hc => ?_⟩
    obtain ⟨next, hnext, hc⟩ := List.mem_flatMap.mp hc
    exact scalar_append.mpr ⟨hsep, h.2 next hnext⟩ c hc

theorem scalar_strip (h : Scalar text) : Scalar (strip text) := by
  intro c hc
  have hback := (List.dropWhile_sublist _).mem (List.mem_reverse.mp hc)
  exact h c ((List.dropWhile_sublist _).mem (List.mem_reverse.mp hback))

section Validated

variable (hfenced : ∀ value ∈ values, Fenced value)

include hfenced

/-- **The diagnostic**, of any bytes. -/
theorem diagnosticTail_ok (raw : List UInt8) :
    ∃ diagnostic, diagnosticTail raw values = .ok diagnostic ∧
      Safe values diagnosticTailBytes diagnostic := by
  have hscalar : Scalar (decodeLossy replacement raw) := decodeLossy_scalar replacement_scalar
  obtain ⟨piece, hok, hpiece, hlength⟩ :=
    @utf8SafeTail_ok _ diagnosticTailBytes (@redact_scalar values _ hscalar)
  exact ⟨piece, hok, Safe.of_piece hfenced hscalar hpiece hlength⟩

/-- **The command**, of parts without lone surrogates. -/
theorem commandContext_ok (hcommand : ∀ part ∈ command, Scalar part) :
    ∃ context, commandContext command values = .ok context ∧
      Safe values commandContextBytes context := by
  have hscalar : Scalar (Readable.join (lit " ") command) := scalar_join (lit_scalar " ") hcommand
  obtain ⟨piece, hok, hpiece, hlength⟩ :=
    @utf8SafeHead_ok _ commandContextBytes (@redact_scalar values _ hscalar)
  exact ⟨piece, hok, Safe.of_piece hfenced hscalar hpiece hlength⟩

end Validated

/-! ## Every run -/

/-- An error whose parts can be shown. -/
def SafeError (values : List PyStr) (failure : Failure) : Prop :=
  ∃ error, failure = .process error ∧ Safe values commandContextBytes error.command ∧
    Safe values diagnosticTailBytes error.diagnostic

/-- What a run leaves can be shown. -/
def SafeOutcome (values : List PyStr) (outputMaxBytes : Int) :
    Except Failure BoundedProcessResult → Prop
  | .ok result => Safe values outputMaxBytes.toNat result.output
  | .error failure => SafeError values failure

section Run

variable {timeout : Timeout} {outputMaxBytes : Int} {capture capture' : Capture}
  {failure : Failure} (hfenced : ∀ value ∈ values, Fenced value)
  (hcommand : ∀ part ∈ command, Scalar part)

include hfenced hcommand

theorem raised_safe {α : Type} (kind : ErrorKind) (headline : PyStr) (capture : Capture) :
    ∃ failure, (raised command values kind headline capture : Except Failure α) = .error failure ∧
      SafeError values failure := by
  obtain ⟨diagnostic, hdiagnostic, hsafe⟩ := diagnosticTail_ok hfenced
    (Readable.join [0x0A] ([capture.stdout, capture.stderr].filter fun content => content ≠ []))
  obtain ⟨context, hcontext, hsafe'⟩ := commandContext_ok hfenced hcommand
  refine ⟨_, ?_, ⟨kind, headline, context, diagnostic⟩, rfl, hsafe', hsafe⟩
  rw [raised, capturedDiagnostic, hdiagnostic, hcontext]
  rfl

/-- **One read.** -/
theorem readEvent_safe {event : Stream × Reading}
    (h : readEvent command outputMaxBytes values capture event = .error failure) :
    SafeError values failure := by
  obtain ⟨stream, reading⟩ := event
  cases reading with
  | none => cases h
  | some chunk =>
    simp only [readEvent] at h
    split at h
    · cases h
    split at h
    · obtain ⟨failure', hraised, hsafe⟩ := @raised_safe _ _ hfenced hcommand Capture
        .outputLimitExceeded (lit "process output cap exceeded: " ++ lit (toString outputMaxBytes) ++
          lit " bytes") (capture.extend stream chunk)
      rw [hraised] at h
      cases h
      exact hsafe
    · cases h

/-- **All turns**, by induction on the script. -/
theorem readAll_safe {turns : List Turn}
    (h : readAll command timeout outputMaxBytes values turns capture = some (.error failure)) :
    SafeError values failure := by
  induction turns generalizing capture with
  | nil =>
    rw [readAll] at h
    split at h <;> cases h
  | cons turn turns ih =>
    rw [readAll] at h
    split at h
    · cases h
    split at h
    · obtain ⟨failure', hraised, hsafe⟩ := @raised_safe _ _ hfenced hcommand Capture .timedOut
        (lit "process exceeded " ++ timeout.text ++ lit "s") capture
      rw [raisedTimeout, hraised] at h
      cases h
      exact hsafe
    split at h
    · rename_i failure' hevents
      cases h
      have hkept : ∀ event ∈ turn.events.filter fun event => event.1 ∈ capture.registered,
          ∀ b b', True → readEvent command outputMaxBytes values b event = .ok b' → True :=
        fun _ _ _ _ _ _ => trivial
      obtain ⟨event, -, b, -, herror⟩ := Fallible.foldlM_error hkept trivial hevents
      exact readEvent_safe hfenced hcommand herror
    · exact ih h

/-- **Behind the loop.** -/
theorem finish_safe (check expired : Bool) (exit : Option Int) :
    SafeOutcome values outputMaxBytes
      (finish command timeout outputMaxBytes values check expired exit capture) := by
  have hraised : ∀ kind headline, SafeOutcome values outputMaxBytes
      (raised command values kind headline capture) := by
    intro kind headline
    obtain ⟨failure, hraised, hsafe⟩ := @raised_safe _ _ hfenced hcommand BoundedProcessResult kind
      headline capture
    rw [hraised]
    exact hsafe
  unfold finish
  split
  · exact hraised _ _
  split
  · exact hraised _ _
  split
  · exact hraised _ _
  · rename_i returncode hcheck
    have hdecoded : ∀ raw, Scalar (strip (decodeLossy replacement raw)) :=
      fun raw => scalar_strip (decodeLossy_scalar replacement_scalar)
    have hscalar : Scalar (Readable.join (lit "\n")
        ([strip (decodeLossy replacement capture.stdout),
          strip (decodeLossy replacement capture.stderr)].filter fun part => part ≠ [])) := by
      refine scalar_join (lit_scalar "\n") fun part hpart => ?_
      have hmem := List.mem_of_mem_filter hpart
      simp only [List.mem_cons, List.not_mem_nil, or_false] at hmem
      rcases hmem with rfl | rfl
      · exact hdecoded capture.stdout
      · exact hdecoded capture.stderr
    obtain ⟨piece, hok, hpiece, hlength⟩ :=
      @utf8SafeTail_ok _ outputMaxBytes.toNat (@redact_scalar values _ hscalar)
    show SafeOutcome values outputMaxBytes
      (utf8SafeTail _ _ >>= fun output => .ok ⟨returncode, output⟩)
    rw [hok]
    exact Safe.of_piece hfenced hscalar hpiece hlength

end Run

/-- The loop ends, at the latest in the turn after the deadline. -/
theorem readAll_isSome {timeout : Timeout} {outputMaxBytes : Int} {turns : List Turn} {capture : Capture}
    (h : ∃ turn ∈ turns, turn.expired = true) :
    (readAll command timeout outputMaxBytes values turns capture).isSome = true := by
  induction turns generalizing capture with
  | nil =>
    obtain ⟨turn, hmem, -⟩ := h
    exact absurd hmem List.not_mem_nil
  | cons turn turns ih =>
    rw [readAll]
    split
    · rfl
    split
    · rfl
    rename_i hexpired
    split
    · rfl
    · refine ih ?_
      obtain ⟨later, hmem, hlater⟩ := h
      rcases List.mem_cons.mp hmem with rfl | hmem
      · exact absurd hlater hexpired
      · exact ⟨later, hmem, hlater⟩

/-- What is validated are the values that are not empty. -/
theorem validated_eq (h : validateSensitiveValues values = .ok validated) :
    validated = values.filter fun value => value ≠ [] := by
  rw [validateSensitiveValues] at h
  split at h
  · cases h
  obtain ⟨acc, hfold, rfl⟩ := Fallible.map_ok.mp h
  have hprocessed := @Fallible.foldlM_processed _ _ _ values addSensitive ([], 0) acc
    (fun done acc => acc.1 = done.filter fun value => value ≠ []) [] ?_ rfl hfold
  · exact hprocessed
  · intro value _ done acc acc' hdone hadd
    rw [List.filter_append, ← hdone]
    rw [addSensitive] at hadd
    split at hadd
    · rename_i hempty
      cases hadd
      rw [hempty]
      exact (List.append_nil _).symm
    · rename_i hvalue
      split at hadd
      · cases hadd
      obtain ⟨raw, -, hadd⟩ := Fallible.bind_ok.mp hadd
      split at hadd
      · cases hadd
      split at hadd
      · cases hadd
      cases hadd
      rw [List.filter_singleton, decide_eq_true hvalue]
      rfl

/-- **REDACTION IS COMPLETE AND BOUNDED.**  For sensitive values that are accepted and fenced, a command
    without lone surrogates and every way a process goes, what is returned or raised shows none of them
    and is no longer than its limit.  (Limits that are not positive are refused before.) -/
theorem redaction_complete (values command : List PyStr) (timeout : Timeout) (outputMaxBytes : Int)
    (check : Bool) (script : Script) (hvalid : (validateSensitiveValues values).isOk = true)
    (hfenced : ∀ value ∈ values, Fenced value) (hcommand : ∀ part ∈ command, Scalar part)
    (outcome : Except Failure BoundedProcessResult)
    (hrun : runBoundedProcess command timeout outputMaxBytes values check script = some outcome) :
    SafeOutcome values outputMaxBytes outcome ∨
      (timeout.nonpositive = true ∨ outputMaxBytes ≤ 0) ∧
        outcome = .error (.value (lit "process limits must be positive")) := by
  obtain ⟨validated, hvalidated⟩ := Fallible.isOk_iff.mp hvalid
  obtain rfl : validated = values := by
    rw [validated_eq hvalidated, List.filter_eq_self]
    exact fun value hvalue => decide_eq_true (hfenced value hvalue).ne_nil
  rw [runBoundedProcess] at hrun
  split at hrun
  · rename_i hlimits
    exact Or.inr ⟨hlimits, (Option.some.inj hrun).symm⟩
  · left
    rw [hvalidated] at hrun
    obtain ⟨captured, hread, rfl⟩ := Option.map_eq_some_iff.mp hrun
    cases captured with
    | error failure => exact readAll_safe hfenced hcommand hread
    | ok capture => exact finish_safe hfenced hcommand check script.expired script.exit

/-- **Every process comes to an outcome** once its deadline has passed. -/
theorem runBoundedProcess_isSome (timeout : Timeout) (outputMaxBytes : Int) (check : Bool)
    (script : Script) (h : ∃ turn ∈ script.turns, turn.expired = true) :
    (runBoundedProcess command timeout outputMaxBytes values check script).isSome = true := by
  rw [runBoundedProcess]
  split
  · rfl
  split
  · rfl
  · rw [Option.isSome_map]
    exact readAll_isSome h

/-- A process that writes the values across its streams, and fails. -/
def leaking : Script where
  turns := [⟨false, [(.stdout, some [0x74, 0x6F, 0x6B, 0x65]), (.stderr, none)]⟩,
    ⟨false, [(.stdout, some [0x6E, 0xFF]), (.stderr, some [0x74, 0x6F])]⟩,
    ⟨false, [(.stdout, some []), (.stderr, some [])]⟩]
  expired := false
  exit := some 1

/-- The diagnostic of the process. -/
def leaked : Except Failure BoundedProcessResult :=
  .error (.process ⟨.exitedNonzero, lit "process failed (1)", lit "run <redacted>",
    lit "<redacted>" ++ replacement ++ lit "\n<redacted>"⟩)

theorem redaction_complete_leaking : SafeOutcome [lit "token", lit "to"] 100 leaked ∨
    (false = true ∨ (100 : Int) ≤ 0) ∧
      leaked = .error (.value (lit "process limits must be positive")) :=
  redaction_complete [lit "token", lit "to"] [lit "run", lit "token"] ⟨false, lit "1"⟩ 100 true leaking
    (by decide +kernel) (by
      intro value hvalue
      simp only [List.mem_cons, List.not_mem_nil, or_false] at hvalue
      rcases hvalue with rfl | rfl
      · exact ⟨by decide, by decide, by decide⟩
      · exact ⟨by decide, by decide, by decide⟩)
    (by decide) leaked (by decide +kernel)

end ControlPlane.Rendering
