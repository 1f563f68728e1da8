/-
  READING A WORKER: which answers the task can read, log and report.

  A text of the source is plain ASCII, which every database takes, and so are a digest and the JSON of a
  schema; what the worker spells is not.  The lemmas follow the task: what it makes of an answer, of
  logs, of a reported error, of a claimed output.  Each says exactly which values raise an exception
  that the `except` clauses do not list, or raise one whose text `_fail_job` cannot store.
-/
import ControlPlane.Fallible
import ControlPlane.Orchestration.Worker

namespace ControlPlane.Orchestration

open ControlPlane.Competence (ArtifactError)
open ControlPlane.Fallible

/-! ## What the database takes -/

section Takes

variable {b : Backend} {s t line : PyStr} {lines : List PyStr} {row : Record b}

theorem takes_append : b.Takes (s ++ t) ↔ b.Takes s ∧ b.Takes t := by
  rw [Backend.Takes, List.all_append, Bool.and_eq_true]
  exact Iff.rfl

theorem takes_of_plain (h : t.all PyStr.isPlain = true) : b.Takes t := by
  rw [List.all_eq_true] at h
  exact List.all_eq_true.mpr fun c hc => b.takes_plain c (Or.inl (h c hc))

theorem takes_newline : b.Takes [0x0A] :=
  List.all_eq_true.mpr fun c hc => b.takes_plain c (Or.inr (List.mem_singleton.mp hc))

/-- A literal of the source in front of a text. -/
theorem takes_plain_append (h : s.all PyStr.isPlain = true) : b.Takes (s ++ t) ↔ b.Takes t :=
  takes_append.trans (and_iff_right (takes_of_plain h))

theorem column_ok (h : b.Takes t) : b.column t = .ok ⟨t, h⟩ := dif_pos h

/-- Neither `except` lists what a text column raises. -/
theorem column_error (h : ¬ b.Takes t) :
    ∃ e, b.column t = .error e ∧ e.caughtBy waitHandlers = false := by
  unfold Backend.column
  rw [dif_neg h]
  split
  · exact ⟨_, rfl, rfl⟩
  · exact ⟨_, rfl, rfl⟩

/-- A column holds what was written to it. -/
theorem column_val {stored : b.Text} (h : b.column t = .ok stored) : stored.val = t := by
  by_cases ht : b.Takes t
  · rw [column_ok ht] at h
    cases h
    rfl
  · obtain ⟨e, he, -⟩ := column_error ht
    cases he.symm.trans h

theorem intColumn_val {n m : Nat} (h : b.intColumn n = .ok m) : m = n := by
  unfold Backend.intColumn at h
  split at h
  · exact (Except.ok.inj h).symm
  · cases h

/-! ### The log -/

/-- A line as it stands in the log. -/
def entry (line : PyStr) : PyStr := line.rstrip ++ [0x0A]

/-- What a log keeps of lines that are appended to it. -/
def kept (lines : List PyStr) : PyStr := PyStr.takeLast (lines.flatMap entry) 16000

theorem appendLog_eq (logs line : PyStr) :
    appendLog logs line = PyStr.takeLast (logs ++ entry line) 16000 := rfl

/-- Appended one by one, lines are cut as if they had been appended together. -/
theorem foldl_appendLog (logs : PyStr) (h : lines ≠ []) :
    lines.foldl appendLog logs = PyStr.takeLast (logs ++ lines.flatMap entry) 16000 := by
  induction lines generalizing logs with
  | nil => exact absurd rfl h
  | cons line rest ih =>
    cases rest with
    | nil => rw [List.foldl_cons, List.foldl_nil, List.flatMap_singleton, appendLog_eq]
    | cons next rest =>
      have hlines : (line :: next :: rest).flatMap entry =
          entry line ++ (next :: rest).flatMap entry := List.flatMap_cons
      rw [List.foldl_cons, ih _ (List.cons_ne_nil _ _), appendLog_eq,
        PyStr.takeLast_takeLast_append, hlines, List.append_assoc]

/-- Stored logs take new lines exactly when the database takes what is kept of these. -/
theorem takes_foldl (logs : b.Text) :
    b.Takes (lines.foldl appendLog logs.val) ↔ b.Takes (kept lines) := by
  cases lines with
  | nil => exact iff_of_true logs.2 (PyStr.all_takeLast (a := []) rfl)
  | cons line rest =>
    rw [foldl_appendLog _ (List.cons_ne_nil _ _), Backend.Takes, PyStr.all_takeLast_append logs.2]
    exact Iff.rfl

theorem takes_appendLog (logs : b.Text) (h : b.Takes line) : b.Takes (appendLog logs.val line) :=
  PyStr.all_takeLast (takes_append.mpr
    ⟨logs.2, takes_append.mpr ⟨PyStr.all_rstrip h, takes_newline⟩⟩)

/-! ### The last write -/

/-- `_fail_job` raises when the job is not canceled and the database does not take the text. -/
theorem failJob_ok : (failJob b row t).2.isOk = true ↔ row.status = .canceled ∨ b.Takes t := by
  unfold failJob
  split
  · rename_i hcanceled
    exact iff_of_true rfl (Or.inl hcanceled)
  · rename_i hcanceled
    by_cases ht : b.Takes t
    · have hline : b.Takes (PyStr.lit "[RunPod] failed: " ++ t) :=
        (takes_plain_append (by decide)).mpr ht
      rw [column_ok ht, column_ok (takes_appendLog row.logs hline)]
      exact iff_of_true rfl (Or.inr ht)
    · obtain ⟨e, he, -⟩ := column_error ht
      rw [he]
      exact iff_of_false (nomatch ·) fun h => h.elim hcanceled ht

/-- What `_fail_job` leaves is not RUNNING, unless it raises, and never SUCCEEDED. -/
theorem failJob_status (h : row.status = .running ∨ row.status = .canceled) :
    ((failJob b row t).2.isOk = true → (failJob b row t).1.status.terminal = true) ∧
      (failJob b row t).1.status ≠ .succeeded := by
  unfold failJob
  split
  · rename_i hcanceled
    exact ⟨fun _ => hcanceled ▸ rfl, fun hs => nomatch hcanceled.symm.trans hs⟩
  · rename_i hcanceled
    have hrunning : row.status = .running := h.resolve_right hcanceled
    unfold Record.save
    split
    · rename_i written hwrite
      obtain ⟨_, -, hwrite⟩ := bind_ok.mp hwrite
      obtain ⟨_, -, hwrite⟩ := bind_ok.mp hwrite
      cases hwrite
      exact ⟨fun _ => rfl, nofun⟩
    · exact ⟨nofun, fun hs => nomatch hrunning.symm.trans hs⟩

end Takes

/-! ## Reading an answer -/

/-- The body nests arrays and objects more deeply than `json.loads` reads. -/
def TooDeep (b : Backend) (reply : Except PyStr (List UInt8)) : Prop :=
  ∃ body, reply = .ok body ∧ Json.loads b.toInterpreter body = .error .recursion

/-- A value that counts as true, nested more deeply than `str` writes. -/
def Unwritable (b : Backend) (value : Option Json) : Prop :=
  ∃ v, value = some v ∧ v.truthy = true ∧ b.reprDepth < v.depth

/-- An answer that is nested too deeply, or that has such a status. -/
def Deep (b : Backend) (reply : Except PyStr (List UInt8)) : Prop :=
  TooDeep b reply ∨
    ∃ payload, b.request reply = .ok payload ∧ Unwritable b (Json.get? payload "status")

/-- Logs with a surrogate, or nested more deeply than `json.dumps` writes. -/
def Unloggable (b : Backend) (payload : List (PyStr × Json)) : Prop :=
  ∃ v, Json.get? payload "logs" = some v ∧ v.truthy = true ∧
    ((∃ text, v = .str text ∧ ∃ c ∈ text, PyStr.isSurrogate c = true) ∨ b.writeDepth < v.depth)

section Reading

variable {b : Backend} {reply : Except PyStr (List UInt8)} {payload : List (PyStr × Json)}
  {value : Option Json} {d : PyStr} {e : PyError}

theorem request_deep (h : TooDeep b reply) : b.request reply = .error { cls := .recursionError } := by
  obtain ⟨body, rfl, hloads⟩ := h
  simp only [Backend.request, hloads]

/-- Of a text that httpx raised nothing is known; the other texts are literals. -/
theorem request_error (h : b.request reply = .error e) :
    TooDeep b reply ∨
      e.cls = .runpodApi ∧ (reply = .error e.message ∨ e.message.all PyStr.isPlain = true) := by
  unfold Backend.request at h
  split at h
  · cases h
    exact Or.inr ⟨rfl, Or.inl rfl⟩
  · rename_i body
    split at h
    · cases h
    · cases h
      exact Or.inr ⟨rfl, Or.inr (by decide)⟩
    · rename_i hloads
      exact Or.inl ⟨body, rfl, hloads⟩
    · cases h
      exact Or.inr ⟨rfl, Or.inr (by decide)⟩

theorem textOr_deep (h : Unwritable b value) :
    b.textOr value d = .error { cls := .recursionError } := by
  obtain ⟨v, rfl, htrue, hdepth⟩ := h
  simp only [Backend.textOr, Backend.text, htrue, hdepth, if_true]

theorem textOr_error (h : b.textOr value d = .error e) :
    Unwritable b value ∧ e = { cls := .recursionError } := by
  unfold Backend.textOr at h
  split at h
  · rename_i v
    split at h
    · rename_i htrue
      unfold Backend.text at h
      split at h
      · rename_i hdepth
        exact ⟨⟨v, rfl, htrue, hdepth⟩, (Except.error.inj h).symm⟩
      · cases h
    · cases h
  · cases h

theorem status_deep (h : Deep b reply) : b.status reply = .error { cls := .recursionError } := by
  rcases h with h | ⟨payload, hrequest, h⟩
  · exact bind_error.mpr (Or.inl (request_deep h))
  · exact bind_error.mpr (Or.inr ⟨payload, hrequest, bind_error.mpr (Or.inl (textOr_deep h))⟩)

theorem status_error (h : b.status reply = .error e) :
    Deep b reply ∨
      e.cls = .runpodApi ∧ (reply = .error e.message ∨ e.message.all PyStr.isPlain = true) := by
  rcases bind_error.mp h with hrequest | ⟨payload, hrequest, h⟩
  · exact (request_error hrequest).imp_left Or.inl
  rcases bind_error.mp h with htext | ⟨text, -, h⟩
  · exact Or.inl (Or.inr ⟨payload, hrequest, (textOr_error htext).1⟩)
  split at h
  · cases h
    exact Or.inr ⟨rfl, Or.inr (by decide)⟩
  · cases h

theorem not_surrogate {c : CodePoint} (h : PyStr.isPlain c = true) :
    ¬ PyStr.isSurrogate c = true := by
  simp only [PyStr.isPlain, PyStr.isSurrogate, Bool.and_eq_true, decide_eq_true_eq] at h ⊢
  omega

theorem logsHash_error {text : PyStr} (h : b.logsHash text = .error e) :
    (∃ c ∈ text, PyStr.isSurrogate c = true) ∧ e = { cls := .unicodeEncodeError } := by
  unfold Backend.logsHash at h
  split at h
  · rename_i hencode
    exact ⟨PyStr.encode_eq_none.mp hencode, (Except.error.inj h).symm⟩
  · cases h

/-- What is rendered can be encoded, unless it was text with a surrogate to begin with. -/
theorem rendered_ok {v : Json} {text : PyStr} (h : b.rendered v = .ok text)
    (hsurrogate : ∃ c ∈ text, PyStr.isSurrogate c = true) : v = .str text := by
  unfold Backend.rendered at h
  split at h
  · rw [Except.ok.inj h]
  · split at h
    · cases h
    · cases h
      obtain ⟨c, hc, hsurrogate⟩ := hsurrogate
      have hplain := List.all_eq_true.mp (Json.dumpsPlain_plain b.repr_plain _) c hc
      exact absurd hsurrogate (not_surrogate hplain)

theorem rendered_error {v : Json} (h : b.rendered v = .error e) :
    b.writeDepth < v.depth ∧ e = { cls := .recursionError } := by
  unfold Backend.rendered at h
  split at h
  · cases h
  · split at h
    · rename_i hdepth
      exact ⟨hdepth, (Except.error.inj h).symm⟩
    · cases h

theorem remoteLogs_error (h : b.remoteLogs payload = .error e) :
    Unloggable b payload ∧ e.caughtBy waitHandlers = false := by
  unfold Backend.remoteLogs at h
  split at h
  · rename_i v hv
    split at h
    · rename_i htrue
      rcases bind_error.mp h with hrendered | ⟨text, hrendered, h⟩
      · obtain ⟨hdepth, rfl⟩ := rendered_error hrendered
        exact ⟨⟨v, hv, htrue, Or.inr hdepth⟩, rfl⟩
      rcases bind_error.mp h with hhash | ⟨_, -, h⟩
      · obtain ⟨hsurrogate, rfl⟩ := logsHash_error hhash
        exact ⟨⟨v, hv, htrue, Or.inl ⟨text, rendered_ok hrendered hsurrogate, hsurrogate⟩⟩, rfl⟩
      · cases h
    · cases h
  · cases h

theorem remoteLogs_unloggable (h : Unloggable b payload) : ∃ e, b.remoteLogs payload = .error e := by
  obtain ⟨v, hv, htrue, hcause⟩ := h
  unfold Backend.remoteLogs
  rw [hv]
  simp only [htrue, if_true]
  rcases hcause with ⟨text, rfl, hsurrogate⟩ | hdepth
  · have hhash : b.logsHash text = .error { cls := .unicodeEncodeError } := by
      rw [Backend.logsHash, PyStr.encode_eq_none.mpr hsurrogate]
    exact ⟨_, bind_error.mpr (Or.inr ⟨text, rfl, bind_error.mpr (Or.inl hhash)⟩)⟩
  · refine ⟨{ cls := .recursionError }, bind_error.mpr (Or.inl ?_)⟩
    cases v with
    | str text => exact absurd hdepth (Nat.not_lt_zero _)
    | _ => exact if_pos hdepth

end Reading

/-! ## The result -/

/-- The error that an answer with a last status reports. -/
def reported (s : RemoteState) : Option Json :=
  if s.status = PyStr.lit success then
    match Json.get? s.payload "output" with
    | some (.obj envelope) => Json.get? envelope "error"
    | _ => none
  else Json.get? s.payload "error"

/-- What an answer with a last status can still break. -/
inductive ResultEscapes (b : Backend) (x : RemoteJob b) (s : RemoteState) : Prop where
  /-- The reported error is nested too deeply to be written out. -/
  | deep : Unwritable b (reported s) → ResultEscapes b x s
  /-- Its text does not go into the database. -/
  | refused {v : Json} : x.canceled = false → reported s = some v → v.truthy = true →
      v.depth ≤ b.reprDepth → ¬ b.Takes (v.pyStr b.printable b.repr) → ResultEscapes b x s
  /-- The verified output has more rows than the column takes. -/
  | rows {response : Response} {schemaJson : PyStr} {rows : Nat} : x.canceled = false →
      s.status = PyStr.lit success → (verifiedOutput b x s.payload).isOk = true →
      x.objects x.outputKey = .ok response → b.decode response.body = some (schemaJson, rows) →
      b.fits rows = false → ResultEscapes b x s

section Result

variable {b : Backend} {x : RemoteJob b} {s : RemoteState} {row row' : Record b} {e : PyError}
  {v : Json} {artifact : StoredArrowArtifact} {claimed : Expected}

/-- A text that `str` writes. -/
theorem text_ok (h : v.depth ≤ b.reprDepth) : b.text v = .ok (v.pyStr b.printable b.repr) :=
  if_neg (Nat.not_lt.mpr h)

/-! ### The claim of the worker -/

theorem handlerOutput_deep (hs : s.status = PyStr.lit success) (h : Unwritable b (reported s)) :
    handlerOutput b s.payload = .error { cls := .recursionError } := by
  obtain ⟨v, hv, htrue, hdepth⟩ := h
  unfold reported at hv
  rw [if_pos hs] at hv
  split at hv
  · rename_i envelope henvelope
    have htext : b.text v = .error { cls := .recursionError } := if_pos hdepth
    simp only [handlerOutput, henvelope, hv, Option.getD_some, htrue, if_true, htext]
    rfl
  · cases hv

theorem handlerOutput_reported (hs : s.status = PyStr.lit success) (hv : reported s = some v)
    (htrue : v.truthy = true) (hdepth : v.depth ≤ b.reprDepth) :
    handlerOutput b s.payload =
      .error ⟨.valueError, PyStr.lit "RunPod handler error: " ++ v.pyStr b.printable b.repr⟩ := by
  unfold reported at hv
  rw [if_pos hs] at hv
  split at hv
  · rename_i envelope henvelope
    simp only [handlerOutput, henvelope, hv, Option.getD_some, htrue, if_true, text_ok hdepth]
    rfl
  · cases hv

/-- How the handler result is refused: with a literal, or with the error it reports. -/
theorem handlerOutput_error (hs : s.status = PyStr.lit success)
    (h : handlerOutput b s.payload = .error e) :
    (Unwritable b (reported s) ∧ e = { cls := .recursionError }) ∨
      e.cls = .valueError ∧ (e.message.all PyStr.isPlain = true ∨
        ∃ v, reported s = some v ∧ v.truthy = true ∧ v.depth ≤ b.reprDepth ∧
          e.message = PyStr.lit "RunPod handler error: " ++ v.pyStr b.printable b.repr) := by
  cases hv : reported s with
  | some v =>
    by_cases htrue : v.truthy = true
    · by_cases hdepth : b.reprDepth < v.depth
      · have hdeep : Unwritable b (reported s) := ⟨v, hv, htrue, hdepth⟩
        rw [handlerOutput_deep hs hdeep] at h
        exact Or.inl ⟨hv ▸ hdeep, (Except.error.inj h).symm⟩
      · have hdepth := Nat.not_lt.mp hdepth
        rw [handlerOutput_reported hs hv htrue hdepth] at h
        cases h
        exact Or.inr ⟨rfl, Or.inr ⟨v, rfl, htrue, hdepth, rfl⟩⟩
    · -- an error that does not count as true is passed over
      unfold reported at hv
      rw [if_pos hs] at hv
      split at hv
      · rename_i envelope henvelope
        simp only [handlerOutput, henvelope, hv, Option.getD_some, htrue] at h
        cases h
      · cases hv
  | none =>
    unfold reported at hv
    rw [if_pos hs] at hv
    split at hv
    · rename_i envelope henvelope
      simp only [handlerOutput, henvelope, hv, Option.getD_none] at h
      cases h
    · rename_i hno
      unfold handlerOutput at h
      split at h
      · rename_i envelope henvelope
        exact absurd henvelope (hno envelope)
      · cases h
        exact Or.inr ⟨rfl, Or.inl (by decide)⟩

theorem outputDescriptor_error {output : Json} (h : outputDescriptor output = .error e) :
    e.cls = .valueError ∧ e.message.all PyStr.isPlain = true := by
  unfold outputDescriptor at h
  split at h
  · split at h
    · split at h
      · split at h
        · cases h
        · cases h
          exact ⟨rfl, by decide⟩
      · cases h
        exact ⟨rfl, by decide⟩
    · cases h
      exact ⟨rfl, by decide⟩
    · cases h
      exact ⟨rfl, by decide⟩
  · cases h
    exact ⟨rfl, by decide⟩

/-- A descriptor that is accepted claims a digest. -/
theorem outputDescriptor_ok {output : Json} (h : outputDescriptor output = .ok claimed) :
    claimed.digest.isSha256Digest = true := by
  unfold outputDescriptor at h
  split at h
  · split at h
    · split at h
      · rename_i hdigest
        split at h
        · cases h
          exact hdigest
        · cases h
      · cases h
    · cases h
    · cases h
  · cases h

/-- A digest is plain text, and not blank. -/
theorem digest_plain {value : PyStr} (h : value.isSha256Digest = true) :
    value.all PyStr.isPlain = true ∧ value ≠ [] := by
  simp only [PyStr.isSha256Digest, Bool.and_eq_true] at h
  obtain ⟨⟨hhead, -⟩, hdigits⟩ := h
  obtain ⟨rest, rfl⟩ := List.isPrefixOf_iff_prefix.mp hhead
  have hdrop : (PyStr.lit "sha256:" ++ rest).drop 7 = rest :=
    List.drop_left' (by decide)
  rw [hdrop] at hdigits
  constructor
  · rw [List.all_append, Bool.and_eq_true]
    refine ⟨by decide, List.all_eq_true.mpr fun c hc => ?_⟩
    have hdigit := List.all_eq_true.mp hdigits c hc
    simp only [PyStr.isHexDigit, PyStr.isPlain, Bool.or_eq_true, Bool.and_eq_true,
      decide_eq_true_eq] at hdigit ⊢
    omega
  · exact List.append_ne_nil_of_left_ne_nil (by decide) _

/-! ### The store -/

/-- An artifact error that the second `except` lists, with a text that the database takes. -/
def Ordinary (e : ArtifactError) : Prop :=
  (raised e).caughtBy resultHandlers = true ∧ (raised e).message.all PyStr.isPlain = true

theorem refusal_ordinary (refusal : Refusal) : Ordinary refusal.raised := by
  cases refusal
  · exact ⟨rfl, by decide⟩
  · exact ⟨rfl, by decide⟩

theorem validateKey_ordinary {tenantId key : String} {a : ArtifactError}
    (h : Competence.validateKey tenantId key = .error a) : Ordinary a := by
  unfold Competence.validateKey at h
  split at h
  · cases h
    exact ⟨rfl, by decide⟩
  split at h
  · cases h
    exact ⟨rfl, by decide⟩
  split at h
  · cases h
    exact ⟨rfl, by decide⟩
  · cases h

theorem readArrow_ordinary {fetch : String → Except ArtifactError Response} {key tenantId : String}
    {a : ArtifactError} (hfetch : ∀ a, fetch key = .error a → Ordinary a)
    (h : b.readArrow fetch tenantId key claimed = .error a) : Ordinary a := by
  rcases bind_error.mp h with hbytes | ⟨payload, -, h⟩
  · rcases bind_error.mp hbytes with hkey | ⟨_, -, hbytes⟩
    · exact validateKey_ordinary hkey
    rcases bind_error.mp hbytes with hresponse | ⟨response, -, hbytes⟩
    · exact hfetch _ hresponse
    split at hbytes
    · cases hbytes
      exact ⟨rfl, by decide⟩
    · cases hbytes
  · unfold StoreSettings.checkArrow at h
    split at h
    · cases h
      exact ⟨rfl, by decide⟩
    split at h
    · cases h
      exact ⟨rfl, by decide⟩
    split at h
    · cases h
      exact ⟨rfl, by decide⟩
    split at h
    · cases h
      exact ⟨rfl, by decide⟩
    · cases h

/-! ### The verified output -/

theorem verifiedOutput_deep (hs : s.status = PyStr.lit success) (h : Unwritable b (reported s)) :
    verifiedOutput b x s.payload = .error { cls := .recursionError } :=
  bind_error.mpr (Or.inl (handlerOutput_deep hs h))

theorem verifiedOutput_reported (hs : s.status = PyStr.lit success) (hv : reported s = some v)
    (htrue : v.truthy = true) (hdepth : v.depth ≤ b.reprDepth) :
    verifiedOutput b x s.payload =
      .error ⟨.valueError, PyStr.lit "RunPod handler error: " ++ v.pyStr b.printable b.repr⟩ :=
  bind_error.mpr (Or.inl (handlerOutput_reported hs hv htrue hdepth))

/-- How a claim fails: but for an error that is nested too deeply, it is caught. -/
theorem verifiedOutput_error (hs : s.status = PyStr.lit success)
    (h : verifiedOutput b x s.payload = .error e) :
    (Unwritable b (reported s) ∧ e = { cls := .recursionError }) ∨
      e.caughtBy resultHandlers = true ∧ (e.message.all PyStr.isPlain = true ∨
        ∃ v, reported s = some v ∧ v.truthy = true ∧ v.depth ≤ b.reprDepth ∧
          e.message = PyStr.lit "RunPod handler error: " ++ v.pyStr b.printable b.repr) := by
  have hvalue : e.cls = .valueError → e.caughtBy resultHandlers = true := by
    obtain ⟨cls, message⟩ := e
    rintro rfl
    rfl
  rcases bind_error.mp h with hhandler | ⟨output, -, h⟩
  · exact (handlerOutput_error hs hhandler).imp_right fun ⟨hcls, htext⟩ => ⟨hvalue hcls, htext⟩
  rcases bind_error.mp h with hdescriptor | ⟨claimed, -, h⟩
  · obtain ⟨hcls, hplain⟩ := outputDescriptor_error hdescriptor
    exact Or.inr ⟨hvalue hcls, Or.inl hplain⟩
  · obtain ⟨a, hread, rfl⟩ := mapError_error.mp h
    have hordinary : Ordinary a := by
      refine readArrow_ordinary (fun a ha => ?_) hread
      obtain ⟨refusal, -, rfl⟩ := mapError_error.mp ha
      exact refusal_ordinary refusal
    exact Or.inr ⟨hordinary.1, Or.inl hordinary.2⟩

/-- What is left of a verified output: the bytes under the chosen key, and the claim they meet. -/
theorem verifiedOutput_ok (h : verifiedOutput b x s.payload = .ok artifact) :
    ∃ output claimed response, handlerOutput b s.payload = .ok output ∧
      outputDescriptor output = .ok claimed ∧ x.objects x.outputKey = .ok response ∧
      artifact.artifactKey = x.outputKey ∧ b.Describes artifact response.body ∧
      StoreSettings.Expected.Met claimed artifact ∧ artifact.payloadDigest = claimed.digest := by
  obtain ⟨output, hhandler, h⟩ := bind_ok.mp h
  obtain ⟨claimed, hdescriptor, h⟩ := bind_ok.mp h
  obtain ⟨hkey, hmet, response, hfetch, hdescribes⟩ := StoreSettings.readArrow_ok (mapError_ok.mp h)
  have hne := (digest_plain (outputDescriptor_ok hdescriptor)).2
  exact ⟨output, claimed, response, hhandler, hdescriptor, mapError_ok.mp hfetch, hkey, hdescribes,
    hmet, hmet.1 hne⟩

/-- The text columns of a verified output are plain. -/
theorem verifiedOutput_plain (h : verifiedOutput b x s.payload = .ok artifact) :
    artifact.schemaJson.all PyStr.isPlain = true ∧
      artifact.payloadDigest.all PyStr.isPlain = true := by
  obtain ⟨output, claimed, response, -, hdescriptor, -, -, hdescribes, -, hdigest⟩ :=
    verifiedOutput_ok h
  refine ⟨b.schema_plain _ _ _ hdescribes.2, ?_⟩
  rw [hdigest]
  exact (digest_plain (outputDescriptor_ok hdescriptor)).1

/-- The last save goes through when the rows fit. -/
theorem complete_ok (h : verifiedOutput b x s.payload = .ok artifact) :
    (row.save (complete b x row artifact)).2.isOk = true ↔ b.fits artifact.rows = true := by
  obtain ⟨hschema, hdigest⟩ := verifiedOutput_plain h
  have hline : b.Takes (PyStr.lit "[RunPod] completed " ++ x.jobId.val) :=
    (takes_plain_append (by decide)).mpr x.jobId.2
  unfold complete Backend.intColumn
  rw [column_ok (takes_of_plain hschema), column_ok (takes_of_plain hdigest),
    column_ok (takes_appendLog row.logs hline)]
  cases hfits : b.fits artifact.rows with
  | true => exact iff_of_true rfl rfl
  | false => exact iff_of_false (nomatch ·) (nomatch ·)

/-- The columns it has written. -/
theorem complete_columns (h : complete b x row artifact = .ok row') :
    row'.status = .succeeded ∧ row'.outputArtifactKey = artifact.artifactKey ∧
      row'.outputSchemaJson.val = artifact.schemaJson ∧ row'.outputRows = some artifact.rows ∧
      row'.outputPayloadDigest.val = artifact.payloadDigest := by
  obtain ⟨schemaJson, hschema, h⟩ := bind_ok.mp h
  obtain ⟨rows, hrows, h⟩ := bind_ok.mp h
  obtain ⟨payloadDigest, hdigest, h⟩ := bind_ok.mp h
  obtain ⟨logs, -, h⟩ := bind_ok.mp h
  cases h
  exact ⟨rfl, rfl, column_val hschema, congrArg some (intColumn_val hrows), column_val hdigest⟩

/-! ### The two ends -/

/-- A last status is one of five words. -/
theorem over_plain {status : PyStr} (h : endsWait status = true) : status.all PyStr.isPlain = true := by
  have hmem : status ∈ (success :: failureStatuses).map PyStr.lit := by
    rcases Bool.or_eq_true_iff.mp h with h | h
    · rw [eq_of_beq h]
      exact List.mem_cons_self
    · exact List.mem_cons_of_mem _ (List.contains_iff_mem.mp h)
  have hall : ∀ word ∈ (success :: failureStatuses).map PyStr.lit,
      word.all PyStr.isPlain = true := by decide
  exact hall status hmem

/-- `wait` has raised: the task returns when the exception is listed, and its text is stored or the job
    canceled. -/
theorem interrupted_ok : (interrupted b row e).2.isOk = true ↔
    e.caughtBy waitHandlers = true ∧ (row.status = .canceled ∨ b.Takes e.message) := by
  unfold interrupted
  split
  · rename_i hcaught
    split
    · rename_i hcanceled
      exact iff_of_true rfl ⟨hcaught, Or.inl hcanceled.2⟩
    · rw [failJob_ok]
      exact ⟨fun h => ⟨hcaught, h⟩, And.right⟩
  · rename_i huncaught
    exact iff_of_false (nomatch ·) fun h => huncaught h.1

/-- A claim that is not verified, on the job that `_fail_job` finds. -/
theorem unverified_ok (hcanceled : row.status = .canceled ↔ x.canceled = true)
    (hs : s.status = PyStr.lit success) (h : verifiedOutput b x s.payload = .error e)
    (hcaught : e.caughtBy resultHandlers = true) :
    (failJob b row e.message).2.isOk = true ↔ ¬ ResultEscapes b x s := by
  rw [failJob_ok, hcanceled]
  constructor
  · rintro hstored hescapes
    cases hescapes with
    | deep hdeep =>
      cases h.symm.trans (verifiedOutput_deep hs hdeep)
      cases hcaught
    | refused hnot hv htrue hdepth hrefused =>
      cases h.symm.trans (verifiedOutput_reported hs hv htrue hdepth)
      refine hstored.elim (fun hc => nomatch hnot.symm.trans hc) fun htakes => hrefused ?_
      exact (takes_plain_append (by decide)).mp htakes
    | rows _ _ hok _ _ _ =>
      rw [h] at hok
      cases hok
  · intro hnot
    by_contra hstored
    obtain ⟨hnc, hrefused⟩ := not_or.mp hstored
    have hnc : x.canceled = false := by simpa using hnc
    rcases verifiedOutput_error hs h with ⟨hdeep, -⟩ | ⟨-, hplain | ⟨v, hv, htrue, hdepth, htext⟩⟩
    · exact hnot (.deep hdeep)
    · exact hrefused (takes_of_plain hplain)
    · refine hnot (.refused hnc hv htrue hdepth fun htakes => hrefused ?_)
      rw [htext]
      exact (takes_plain_append (by decide)).mpr htakes

/-- The error of a job that did not complete, on the same. -/
theorem failed_ok (hcanceled : row.status = .canceled ↔ x.canceled = true)
    (hover : endsWait s.status = true) (hs : s.status ≠ PyStr.lit success) :
    (concluded b x row s).2.isOk = true ↔ ¬ ResultEscapes b x s := by
  have hreported : reported s = Json.get? s.payload "error" := if_neg hs
  unfold concluded
  rw [if_neg hs]
  cases htext : b.textOr (Json.get? s.payload "error")
      (PyStr.lit "RunPod job finished as " ++ s.status) with
  | error e =>
    refine iff_of_false (nomatch ·) fun hnot => hnot (.deep ?_)
    rw [hreported]
    exact (textOr_error htext).1
  | ok error =>
    show (failJob b row error).2.isOk = true ↔ _
    rw [failJob_ok, hcanceled]
    have hdefault : b.Takes (PyStr.lit "RunPod job finished as " ++ s.status) :=
      (takes_plain_append (by decide)).mpr (takes_of_plain (over_plain hover))
    constructor
    · rintro hstored hescapes
      cases hescapes with
      | deep hdeep =>
        rw [hreported] at hdeep
        cases htext.symm.trans (textOr_deep hdeep)
      | refused hnot hv htrue hdepth hrefused =>
        rw [hreported] at hv
        simp only [Backend.textOr, hv, htrue, if_true, text_ok hdepth] at htext
        cases htext
        exact hstored.elim (fun hc => nomatch hnot.symm.trans hc) hrefused
      | rows _ hcompleted _ _ _ _ => exact hs hcompleted
    · intro hnot
      by_contra hstored
      obtain ⟨hnc, hrefused⟩ := not_or.mp hstored
      have hnc : x.canceled = false := by simpa using hnc
      unfold Backend.textOr at htext
      split at htext
      · rename_i v hv
        split at htext
        · rename_i htrue
          unfold Backend.text at htext
          split at htext
          · cases htext
          · rename_i hdepth
            cases htext
            exact hnot (.refused hnc (hreported.trans hv) htrue (Nat.not_lt.mp hdepth) hrefused)
        · cases htext
          exact hrefused hdefault
      · cases htext
        exact hrefused hdefault

/-- `wait` has returned: nothing else than `ResultEscapes` keeps the task from ending. -/
theorem concluded_ok (hcanceled : row.status = .canceled ↔ x.canceled = true)
    (hover : endsWait s.status = true) :
    (concluded b x row s).2.isOk = true ↔ ¬ ResultEscapes b x s := by
  by_cases hs : s.status = PyStr.lit success
  · unfold concluded
    rw [if_pos hs]
    cases hverified : verifiedOutput b x s.payload with
    | error e =>
      by_cases hcaught : e.caughtBy resultHandlers = true
      · simp only [hcaught, if_true]
        exact unverified_ok hcanceled hs hverified hcaught
      · simp only [hcaught]
        refine iff_of_false (nomatch ·) fun hnot => hnot (.deep ?_)
        exact ((verifiedOutput_error hs hverified).resolve_right fun h => hcaught h.1).1
    | ok artifact =>
      by_cases hc : row.status = .canceled
      · simp only [hc, if_true]
        refine iff_of_true rfl fun hescapes => ?_
        have hcanceled := hcanceled.mp hc
        cases hescapes with
        | deep hdeep => cases hverified.symm.trans (verifiedOutput_deep hs hdeep)
        | refused hnot _ _ _ _ => cases hnot.symm.trans hcanceled
        | rows hnot _ _ _ _ _ => cases hnot.symm.trans hcanceled
      · simp only [hc, if_false]
        rw [complete_ok hverified]
        obtain ⟨_, _, response, -, -, hobject, -, hdescribes, -⟩ := verifiedOutput_ok hverified
        constructor
        · rintro hfits hescapes
          cases hescapes with
          | deep hdeep => cases hverified.symm.trans (verifiedOutput_deep hs hdeep)
          | refused _ hv htrue hdepth _ =>
            cases hverified.symm.trans (verifiedOutput_reported hs hv htrue hdepth)
          | rows _ _ _ hobject' hdecode hrows =>
            cases hobject.symm.trans hobject'
            cases hdescribes.2.symm.trans hdecode
            cases hrows.symm.trans hfits
        · intro hnot
          by_contra hfits
          have hnc : x.canceled = false := by
            simpa using fun hx => hc (hcanceled.mpr hx)
          exact hnot (.rows hnc hs (hverified ▸ rfl) hobject hdescribes.2 (by simpa using hfits))
  · exact failed_ok hcanceled hover hs

end Result

end ControlPlane.Orchestration
