/-
  HANDLERS: `handler` of both RunPod workers, on any job input.

  A handler validates the request, downloads the input artifact, computes, and uploads the output.  It
  should ALWAYS ANSWER with an object, and an exception that its `except` clause does not list leaves
  it instead.  What is outside (the network, Arrow, the model) raises whatever it raises; inside,

  * the offload worker accepts a `max_bytes` that is null and adds one to it, accepts a descriptor
    without `rows` and subscripts it, and looks a column up that the artifact may have twice,
  * the extraction worker looks an operation up in a set that may be a list or an object.

  1. `finish_total`: the last stage, common to both.
  2. `OffloadWorker.handler_total_iff`, `ExtractionWorker.handler_total_iff`: when a handler answers.
-/
import ControlPlane.Orchestration.Community
import ControlPlane.Workers.Requests

namespace ControlPlane.Workers

open Orchestration (ArrowTable CommunityError communityAssign)
open PyStr (lit)

/-! ## What is outside -/

/-- What the workers see of a decoded Arrow stream. -/
structure Decoded where
  table : ArrowTable
  schemaJson : PyStr
  numRows : Nat
  /-- `table.schema.equals(input_schema(), check_metadata=False)`. -/
  isPassages : Bool

/-- An output artifact, encoded. -/
structure Delivery where
  payload : List UInt8
  schemaJson : PyStr
  rows : Nat

/-- The network, Arrow, the contract file and the model. -/
structure Platform where
  maxArtifactBytes : Int
  urlopen : PyStr → Except Raised (List UInt8)
  put : PyStr → List UInt8 → Except Raised Unit
  hexdigest : List UInt8 → PyStr
  /-- `none` is one of the exceptions that `_decode_arrow` lists. -/
  decode : List UInt8 → Option Decoded
  encode : List (PyStr × Nat) → List UInt8
  loadContract : Except Raised Fields
  runAtlas : Decoded → Fields → Fields → Except Raised (List Fields)
  runTyped : Decoded → Fields → Fields → Except Raised (List Fields)
  /-- `pa.Table.from_pylist` with the schema of the contract, and `_encode_arrow`. -/
  fromPylist : List Fields → Fields → Except Raised Delivery

/-- `_sha256_digest`, `_sha256`. -/
def Platform.digest (p : Platform) (payload : List UInt8) : PyStr :=
  lit "sha256:" ++ p.hexdigest payload

/-! ## Steps of both handlers -/

/-- `str(value)` of a string. -/
def text : Json → PyStr
  | .str s => s
  | _ => []

def limit : Json → Int
  | .int n => n
  | _ => 0

/-- `if not ok: raise ValueError(message)`. -/
def demand (ok : Bool) (message : String) : Except Raised Unit :=
  if ok then .ok () else .error ⟨.valueError, lit message⟩

/-- `response.read(n)`; a negative number reads everything. -/
def readUpTo (body : List UInt8) (n : Int) : List UInt8 :=
  if n < 0 then body else body.take n.toNat

/-- `_download`. -/
def download (p : Platform) (exceeds : String) (url : PyStr) (maxBytes : Json) :
    Except Raised (List UInt8) := do
  let body ← p.urlopen url
  match maxBytes with
  | .int n =>
      let payload := readUpTo body (n + 1)
      if n < payload.length then .error ⟨.valueError, lit exceeds⟩ else .ok payload
  | _ => .error { cls := .typeError }

/-- `_decode_arrow`. -/
def decodeArrow (p : Platform) (payload : List UInt8) : Except Raised Decoded :=
  match p.decode payload with
  | some input => .ok input
  | none => .error ⟨.valueError, lit "input artifact is not a valid Arrow IPC stream"⟩

/-- `descriptor[name]`. -/
def subscript (descriptor : Fields) (name : String) : Except Raised Json :=
  match Json.get? descriptor name with
  | some value => .ok value
  | none => .error ⟨.keyError, lit ("'" ++ name ++ "'")⟩

/-- `num_rows == rows`. -/
def isRows (numRows : Nat) : Json → Bool
  | .int n => n == numRows
  | _ => false

/-- What is to be done at the end of the `try` block. -/
inductive Work where
  | deliver (d : Delivery)
  /-- It returns this error. -/
  | refuse (message : String)

/-- One call of a handler: what it returns or raises, and every PUT it has made. -/
structure Run where
  result : Except Raised Fields
  sent : List (PyStr × List UInt8) := []

def errorReply (message : PyStr) : Fields := [(lit "error", .str message)]

def outputReply (p : Platform) (d : Delivery) : Fields :=
  [(lit "output", .obj
    [(lit "schema_json", .str d.schemaJson), (lit "rows", .int d.rows),
      (lit "payload_digest", .str (p.digest d.payload))])]

/-- The `except` clause. -/
def failed (catches : List ErrorClass) (contract : String) (sent : List (PyStr × List UInt8))
    (e : Raised) : Run :=
  if e.cls ∈ catches then
    ⟨.ok (errorReply (lit (contract ++ " execution failed: ") ++ e.text)), sent⟩
  else ⟨.error e, sent⟩

/-- The end of the `try` block with the upload, and what comes behind it. -/
def finish (p : Platform) (catches : List ErrorClass) (contract : String) (url : PyStr)
    (work : Except Raised Work) : Run :=
  match work with
  | .error e => failed catches contract [] e
  | .ok (.refuse message) => ⟨.ok (errorReply (lit message)), []⟩
  | .ok (.deliver d) => match p.put url d.payload with
      | .error e => failed catches contract [(url, d.payload)] e
      | .ok () => ⟨.ok (outputReply p d), [(url, d.payload)]⟩

/-- What a validation makes of a request that it refuses. -/
def refused (prompt : String) : Stop → Run
  | .invalid message => ⟨.ok (errorReply (lit prompt ++ message)), []⟩
  | .raised e => ⟨.error e, []⟩

/-! ## The handlers -/

namespace OffloadWorker

/-- `_schema_json` of the table that `_community_assign` builds. -/
def outputSchemaJson : PyStr :=
  lit ("\x7b\"fields\":[\x7b\"name\":\"node\",\"nullable\":true,\"type\":\"string\"\x7d," ++
    "\x7b\"name\":\"community_id\",\"nullable\":true,\"type\":\"int64\"\x7d],\"metadata\":\x7b\x7d\x7d")

def raisedOf : CommunityError → Raised
  | .valueError message => ⟨.valueError, message⟩
  | .keyError => { cls := .keyError }

/-- The `try` block up to the upload. -/
def work (p : Platform) (descriptor : Fields) (maxBytes : Json) : Except Raised Work := do
  let payload ← download p "input artifact exceeds the worker maximum"
    (text (get descriptor "read_url")) maxBytes
  demand (p.digest payload == text (get descriptor "payload_digest"))
    "input artifact digest does not match the descriptor"
  let input ← decodeArrow p payload
  demand (input.schemaJson == text (get descriptor "schema_json"))
    "input artifact schema does not match the descriptor"
  let rows ← subscript descriptor "rows"
  demand (isRows input.numRows rows) "input artifact row count does not match the descriptor"
  let table ← (communityAssign input.table).mapError raisedOf
  let payload := p.encode table
  -- `_upload`
  demand (decide ((payload.length : Int) ≤ limit maxBytes))
    "output artifact exceeds the worker maximum"
  .ok (.deliver ⟨payload, outputSchemaJson, table.length⟩)

def catches : List ErrorClass := [.osError, .valueError]

def community : String := "data_science.community.assign"

/-- `handler`, on `job.get("input")`. -/
def handler (p : Platform) (request : Json) : Run :=
  match validateInput request, request with
  | .error stop, _ => refused "invalid theorem.offload.v1 input: " stop
  | .ok _, .obj request =>
      let operation := get request "operation"
      if isText community operation = false then
        ⟨.ok (errorReply (lit "Theorem Python offload worker has no real Arrow runner for " ++
          text operation ++ lit "; no output descriptor was produced.")), []⟩
      else match get request "input", get request "output" with
        | .obj descriptor, .obj output =>
            finish p catches offloadContract (text (get output "write_url"))
              (work p descriptor
                ((Json.get? request "max_bytes").getD (.int p.maxArtifactBytes)))
        | _, _ => ⟨.error { cls := .other }, []⟩
  | .ok _, _ => ⟨.error { cls := .other }, []⟩

end OffloadWorker

namespace ExtractionWorker

def runModel (p : Platform) (operation : Json) (input : Decoded) (params contract : Fields) :
    Except Raised (List Fields) :=
  if endsWith ".atlas" operation then p.runAtlas input params contract
  else p.runTyped input params contract

/-- The `try` block up to the upload. -/
def work (p : Platform) (operation : Json) (descriptor params : Fields) (maxBytes : Json) :
    Except Raised Work := do
  let payload ← download p "input artifact exceeds max_bytes" (text (get descriptor "read_url"))
    maxBytes
  -- `_validated_input_table`
  demand (p.digest payload == text (get descriptor "payload_digest"))
    "input artifact digest does not match the descriptor"
  let input ← decodeArrow p payload
  demand input.isPassages "input artifact must use the extraction passage schema"
  demand (input.schemaJson == text (get descriptor "schema_json"))
    "input artifact schema does not match the descriptor"
  let rows ← subscript descriptor "rows"
  demand (isRows input.numRows rows) "input artifact row count does not match the descriptor"
  let contract ← p.loadContract
  let rows ← runModel p operation input params contract
  let d ← p.fromPylist rows contract
  .ok (if limit maxBytes < d.payload.length then .refuse "output_exceeds_max_bytes" else .deliver d)

def catches : List ErrorClass := [.osError, .valueError, .keyError, .typeError]

/-- `execute`, as `handler` calls it. -/
def execute (p : Platform) (request : Json) : Run :=
  match validateInput p.maxArtifactBytes request, request with
  | .error stop, _ => refused "invalid theorem.offload.v1 input: " stop
  | .ok _, .obj request =>
      match get request "input", get request "output", get request "params" with
      | .obj descriptor, .obj output, .obj params =>
          finish p catches extractionContract (text (get output "write_url"))
            (work p (get request "operation") descriptor params
              ((Json.get? request "max_bytes").getD (.int p.maxArtifactBytes)))
      | _, _, _ => ⟨.error { cls := .other }, []⟩
  | .ok _, _ => ⟨.error { cls := .other }, []⟩

/-- `handler`, on `job.get("input")`. -/
def handler (p : Platform) (request : Json) : Run :=
  if isMapping request = false then
    ⟨.ok (errorReply (lit "RunPod job must contain an input object")), []⟩
  else execute p request

end ExtractionWorker

/-! ## What is caught -/

section Caught

variable {α β : Type} {cs : List ErrorClass} {x : Except Raised α} {g : α → Except Raised β} {a : α}
  {ok : Bool} {message exceeds contract : String} {rest : Except Raised β} {p : Platform}
  {url : PyStr} {body payload : List UInt8} {n : Int} {input : Decoded} {descriptor : Fields}
  {work : Except Raised Work}

/-- An `except` clause with these classes catches what this raises. -/
def Caught (cs : List ErrorClass) (x : Except Raised α) : Prop :=
  ∀ e, x = .error e → e.cls ∈ cs

theorem caught_ok (cs : List ErrorClass) (a : α) : Caught cs (.ok a) := nofun

theorem caught_bind :
    Caught cs (x >>= g) ↔ Caught cs x ∧ ∀ a, x = .ok a → Caught cs (g a) := by
  cases x with
  | error e =>
    constructor
    · intro h
      refine ⟨fun e' heq => ?_, nofun⟩
      cases heq
      exact h e rfl
    · rintro ⟨h, -⟩ e' heq
      cases heq
      exact h e rfl
  | ok a =>
    constructor
    · intro h
      refine ⟨caught_ok cs a, fun a' heq => ?_⟩
      cases heq
      exact h
    · rintro ⟨-, h⟩
      exact h a rfl

theorem caught_demand (hvalue : .valueError ∈ cs) :
    Caught cs (demand ok message >>= fun _ => rest) ↔ (ok = true → Caught cs rest) := by
  cases ok with
  | true => exact ⟨fun h _ => h, fun h => h rfl⟩
  | false =>
    refine iff_of_true (fun e heq => ?_) nofun
    cases heq
    exact hvalue

/-- Reading one byte too many shows whether there is one. -/
theorem readUpTo_succ : (readUpTo body (n + 1)).length ≤ n ↔ (body.length : Int) ≤ n := by
  unfold readUpTo
  split
  · rfl
  · rw [List.length_take]
    omega

theorem readUpTo_all (h : (body.length : Int) ≤ n) : readUpTo body (n + 1) = body := by
  rw [readUpTo, if_neg (by omega), List.take_of_length_le (by omega)]

theorem demand_ok {u : Unit} : demand ok message = .ok u ↔ ok = true := by
  cases ok <;> simp [demand]

theorem download_ok : download p exceeds url (.int n) = .ok payload ↔
    p.urlopen url = .ok payload ∧ (payload.length : Int) ≤ n := by
  unfold download
  rw [Fallible.bind_ok]
  constructor
  · rintro ⟨body, hbody, h⟩
    dsimp only at h
    split at h
    · cases h
    · rename_i hlength
      have hle := readUpTo_succ.mp (not_lt.mp hlength)
      rw [readUpTo_all hle] at h
      cases h
      exact ⟨hbody, hle⟩
  · rintro ⟨hbody, hle⟩
    refine ⟨payload, hbody, ?_⟩
    dsimp only
    rw [readUpTo_all hle, if_neg (not_lt.mpr hle)]

theorem caught_download (hvalue : .valueError ∈ cs) :
    Caught cs (download p exceeds url (.int n)) ↔ Caught cs (p.urlopen url) := by
  unfold download
  rw [caught_bind]
  refine and_iff_left fun body _ => ?_
  dsimp only
  split
  · intro e heq
    cases heq
    exact hvalue
  · exact caught_ok _ _

/-- With a limit that is null, what was opened cannot be read. -/
theorem caught_download_null (htype : .typeError ∉ cs) :
    Caught cs (download p exceeds url .null) ↔
      Caught cs (p.urlopen url) ∧ ∀ body, p.urlopen url ≠ .ok body := by
  unfold download
  rw [caught_bind]
  refine and_congr_right fun _ => forall_congr' fun body => ?_
  exact imp_congr_right fun _ => iff_of_false (fun h => htype (h _ rfl)) id

theorem decodeArrow_ok : decodeArrow p payload = .ok input ↔ p.decode payload = some input := by
  unfold decodeArrow
  cases p.decode payload <;> simp

theorem caught_decodeArrow (hvalue : .valueError ∈ cs) : Caught cs (decodeArrow p payload) := by
  unfold decodeArrow
  split
  · exact caught_ok _ _
  · intro e heq
    cases heq
    exact hvalue

/-- The handler answers with one of the two, and an error of which the upload is not the cause comes
    before any upload. -/
def Total (p : Platform) (run : Run) : Prop :=
  ∃ reply, run.result = .ok reply ∧
    ((Json.get? reply "output").isSome ≠ (Json.get? reply "error").isSome) ∧
    ((Json.get? reply "error").isSome = true → ∀ x ∈ run.sent, ∃ e, p.put x.1 x.2 = .error e)

theorem total_error (message : PyStr) {sent : List (PyStr × List UInt8)}
    (hsent : ∀ x ∈ sent, ∃ e, p.put x.1 x.2 = .error e) :
    Total p ⟨.ok (errorReply message), sent⟩ :=
  ⟨errorReply message, rfl, Bool.false_ne_true, fun _ => hsent⟩

theorem not_total {e : Raised} {sent : List (PyStr × List UInt8)} :
    ¬ Total p ⟨.error e, sent⟩ := by
  rintro ⟨reply, hreply, -⟩
  cases hreply

theorem failed_total {e : Raised} {sent : List (PyStr × List UInt8)}
    (hsent : ∀ x ∈ sent, ∃ e, p.put x.1 x.2 = .error e) :
    Total p (failed cs contract sent e) ↔ e.cls ∈ cs := by
  unfold failed
  split
  · rename_i hmem
    exact iff_of_true (total_error _ hsent) hmem
  · rename_i hmem
    exact iff_of_false not_total hmem

/-- **The last stage** answers iff what the work and the upload raise is caught. -/
theorem finish_total : Total p (finish p cs contract url work) ↔
    Caught cs work ∧ ∀ d, work = .ok (.deliver d) → Caught cs (p.put url d.payload) := by
  unfold finish
  cases work with
  | error e =>
    dsimp only
    rw [failed_total fun _ hx => absurd hx List.not_mem_nil]
    constructor
    · intro h
      refine ⟨fun e' heq => ?_, nofun⟩
      cases heq
      exact h
    · rintro ⟨h, -⟩
      exact h e rfl
  | ok w =>
    rw [and_iff_right (caught_ok cs w)]
    cases w with
    | refuse message =>
      exact iff_of_true (total_error _ fun _ hx => absurd hx List.not_mem_nil) nofun
    | deliver d =>
      have hdeliver : (∀ d', Except.ok (Work.deliver d) = (.ok (.deliver d') : Except Raised Work) →
          Caught cs (p.put url d'.payload)) ↔ Caught cs (p.put url d.payload) := by
        constructor
        · exact fun h => h d rfl
        · intro h d' heq
          cases heq
          exact h
      rw [hdeliver]
      dsimp only
      cases hput : p.put url d.payload with
      | ok u =>
        refine iff_of_true ⟨outputReply p d, rfl, Bool.false_ne_true.symm, ?_⟩ (caught_ok _ _)
        intro herror
        cases herror
      | error e =>
        refine (failed_total ?_).trans ?_
        · intro x hx
          rw [List.mem_singleton.mp hx]
          exact ⟨e, hput⟩
        · constructor
          · intro h e' heq
            cases heq
            exact h
          · exact fun h => h e rfl

end Caught

/-! ## Tables with a column twice -/

/-- The columns are there, and one of them more than once. -/
def Ambiguous (table : ArrowTable) : Prop :=
  (∀ name ∈ Orchestration.required, name ∈ table.columnNames) ∧
    ∃ name ∈ Orchestration.required, table.columnNames.count name ≠ 1

theorem column_ok {table : ArrowTable} {name : PyStr} :
    (∃ c, table.column name = .ok c) ↔ table.columnNames.count name = 1 := by
  have hcount : table.columnNames.count name =
      (table.columns.filter fun c => c.1 = name).length := by
    rw [ArrowTable.columnNames, List.count, List.countP_map, List.countP_eq_length_filter]
    refine congrArg List.length (List.filter_congr fun c _ => ?_)
    exact Bool.eq_iff_iff.mpr (beq_iff_eq.trans decide_eq_true_iff.symm)
  rw [hcount]
  unfold ArrowTable.column
  split
  · rename_i c hfilter
    rw [hfilter]
    exact iff_of_true ⟨c.2, rfl⟩ rfl
  · rename_i hfilter
    refine iff_of_false nofun fun hlength => ?_
    obtain ⟨c, hc⟩ := List.length_eq_one_iff.mp hlength
    exact hfilter c hc

theorem missingColumns_nil {table : ArrowTable} : Orchestration.missingColumns table = [] ↔
    ∀ name ∈ Orchestration.required, name ∈ table.columnNames := by
  rw [Orchestration.missingColumns, ← List.length_eq_zero_iff,
    (Sorting.sortedBy_perm _ _).length_eq, List.length_eq_zero_iff, List.filter_eq_nil_iff]
  simp

/-- **A column twice** is the one thing that `_community_assign` has no `ValueError` for. -/
theorem keyError_iff {table : ArrowTable} :
    communityAssign table = .error .keyError ↔ Ambiguous table := by
  have hassign : communityAssign table = .error .keyError ↔
      Orchestration.edgesOf table = .error .keyError := by
    unfold communityAssign
    cases Orchestration.edgesOf table with
    | error e =>
      constructor
      · intro h
        cases h
        rfl
      · intro h
        cases h
        rfl
    | ok edges =>
      obtain ⟨rows, hrows, -⟩ := Orchestration.components_spec edges
      dsimp only
      rw [hrows]
      exact iff_of_false nofun nofun
  rw [hassign, Ambiguous, ← missingColumns_nil]
  unfold Orchestration.edgesOf
  split
  · rename_i hmissing
    exact iff_of_false nofun fun h => hmissing h.1
  · rename_i hmissing
    rw [and_iff_right (not_not.mp hmissing)]
    have hboth : (∃ name ∈ Orchestration.required, table.columnNames.count name ≠ 1) ↔
        ¬ ((∃ c, table.column (lit "source") = .ok c) ∧
          ∃ c, table.column (lit "target") = .ok c) := by
      rw [column_ok, column_ok, not_and_or]
      simp [Orchestration.required]
    rw [hboth]
    cases table.column (lit "source") with
    | error e => exact iff_of_true rfl fun h => nomatch h.1
    | ok source =>
      cases table.column (lit "target") with
      | error e => cases source <;> exact iff_of_true rfl fun h => nomatch h.2
      | ok target =>
        refine iff_of_false ?_ (not_not.mpr ⟨⟨source, rfl⟩, target, rfl⟩)
        cases source with
        | other => exact nofun
        | string sources =>
          cases target with
          | other => exact nofun
          | string targets =>
            dsimp only
            split
            · unfold Orchestration.zipStrict
              split <;> exact nofun
            · exact nofun

/-! ## The offload worker -/

section Handlers

variable {p : Platform} {request : Json} {fields descriptor output params : Fields} {maxBytes : Json}
  {input : Decoded}

/-- The artifact is there, is not too long, and is the one that the descriptor names. -/
def Reads (p : Platform) (descriptor : Fields) (maxBytes : Json) (input : Decoded) : Prop :=
  ∃ body, p.urlopen (text (get descriptor "read_url")) = .ok body ∧
    (body.length : Int) ≤ limit maxBytes ∧
    p.digest body = text (get descriptor "payload_digest") ∧ p.decode body = some input ∧
    input.schemaJson = text (get descriptor "schema_json")

/-- `request.get("max_bytes", MAX_ARTIFACT_BYTES)`. -/
def maxBytesOf (p : Platform) (fields : Fields) : Json :=
  (Json.get? fields "max_bytes").getD (.int p.maxArtifactBytes)

namespace OffloadWorker

/-- What the handler does not answer to, for a request that it executes. -/
structure Answers (p : Platform) (fields descriptor output : Fields) : Prop where
  /-- The download raises nothing but what is listed. -/
  download : Caught catches (p.urlopen (text (get descriptor "read_url")))
  /-- There is no `max_bytes` that is null. -/
  maxBytes : Json.get? fields "max_bytes" = some .null →
    ∀ body, p.urlopen (text (get descriptor "read_url")) ≠ .ok body
  /-- The descriptor has `rows`, be they null. -/
  rows : ∀ input, Reads p descriptor (maxBytesOf p fields) input →
    (Json.get? descriptor "rows").isSome = true
  /-- No column of the artifact is there twice. -/
  columns : ∀ input, Reads p descriptor (maxBytesOf p fields) input →
    isRows input.numRows (get descriptor "rows") = true → ¬ Ambiguous input.table
  /-- The upload raises nothing but what is listed. -/
  upload : ∀ input table, Reads p descriptor (maxBytesOf p fields) input →
    isRows input.numRows (get descriptor "rows") = true → communityAssign input.table = .ok table →
    ((p.encode table).length : Int) ≤ limit (maxBytesOf p fields) →
    Caught catches (p.put (text (get output "write_url")) (p.encode table))

theorem valueError_mem : ErrorClass.valueError ∈ catches := by decide

theorem keyError_not_mem : ErrorClass.keyError ∉ catches := by decide

theorem typeError_not_mem : ErrorClass.typeError ∉ catches := by decide

theorem caught_subscript {name : String} :
    Caught catches (subscript descriptor name) ↔ (Json.get? descriptor name).isSome = true := by
  unfold subscript
  cases Json.get? descriptor name with
  | some value => exact iff_of_true (caught_ok _ _) rfl
  | none => exact iff_of_false (fun h => keyError_not_mem (h _ rfl)) Bool.false_ne_true

theorem caught_assign {table : ArrowTable} :
    Caught catches ((communityAssign table).mapError raisedOf) ↔ ¬ Ambiguous table := by
  rw [← keyError_iff]
  cases communityAssign table with
  | ok rows => exact iff_of_true (caught_ok _ _) nofun
  | error e =>
    cases e with
    | keyError => exact iff_of_false (fun h => keyError_not_mem (h _ rfl)) (not_not.mpr rfl)
    | valueError message =>
      refine iff_of_true (fun e heq => ?_) nofun
      cases heq
      exact valueError_mem

theorem subscript_ok {name : String} {value : Json} :
    subscript descriptor name = .ok value ↔ Json.get? descriptor name = some value := by
  unfold subscript
  cases Json.get? descriptor name <;> simp

variable {n : Int}

/-- The work with a limit. -/
theorem caught_work : Caught catches (work p descriptor (.int n)) ↔
    Caught catches (p.urlopen (text (get descriptor "read_url"))) ∧
      ∀ input, Reads p descriptor (.int n) input → (Json.get? descriptor "rows").isSome = true ∧
        (isRows input.numRows (get descriptor "rows") = true → ¬ Ambiguous input.table) := by
  unfold work
  rw [caught_bind, caught_download valueError_mem]
  refine and_congr_right fun _ => ?_
  constructor
  · rintro h input ⟨body, hbody, hlimit, hdigest, hdecode, hschema⟩
    have h := (caught_demand valueError_mem).mp (h body (download_ok.mpr ⟨hbody, hlimit⟩))
      (beq_iff_eq.mpr hdigest)
    have h := (caught_demand valueError_mem).mp
      ((caught_bind.mp h).2 input (decodeArrow_ok.mpr hdecode)) (beq_iff_eq.mpr hschema)
    have hsome := caught_subscript.mp (caught_bind.mp h).1
    refine ⟨hsome, fun hrows => ?_⟩
    obtain ⟨rows, hget⟩ := Option.isSome_iff_exists.mp hsome
    rw [get, hget] at hrows
    have h := (caught_demand valueError_mem).mp
      ((caught_bind.mp h).2 rows (subscript_ok.mpr hget)) hrows
    exact caught_assign.mp (caught_bind.mp h).1
  · intro h body hbody
    obtain ⟨hbody, hlimit⟩ := download_ok.mp hbody
    refine (caught_demand valueError_mem).mpr fun hdigest => ?_
    refine caught_bind.mpr ⟨caught_decodeArrow valueError_mem, fun input hdecode => ?_⟩
    refine (caught_demand valueError_mem).mpr fun hschema => ?_
    obtain ⟨hsome, hcolumns⟩ := h input ⟨body, hbody, hlimit, beq_iff_eq.mp hdigest,
      decodeArrow_ok.mp hdecode, beq_iff_eq.mp hschema⟩
    refine caught_bind.mpr ⟨caught_subscript.mpr hsome, fun rows hget => ?_⟩
    refine (caught_demand valueError_mem).mpr fun hrows => ?_
    rw [get, subscript_ok.mp hget] at hcolumns
    refine caught_bind.mpr ⟨caught_assign.mpr (hcolumns hrows), fun table _ => ?_⟩
    exact (caught_demand valueError_mem).mpr fun _ => caught_ok _ _

/-- What the work delivers. -/
theorem work_deliver {d : Delivery} : work p descriptor (.int n) = .ok (.deliver d) ↔
    ∃ input table, Reads p descriptor (.int n) input ∧
      (Json.get? descriptor "rows").isSome = true ∧
      isRows input.numRows (get descriptor "rows") = true ∧
      communityAssign input.table = .ok table ∧ ((p.encode table).length : Int) ≤ n ∧
      d = ⟨p.encode table, outputSchemaJson, table.length⟩ := by
  unfold work
  simp only [Fallible.bind_ok, demand_ok, download_ok, decodeArrow_ok, subscript_ok,
    Fallible.mapError_ok, beq_iff_eq, limit]
  constructor
  · rintro ⟨body, ⟨hbody, hlimit⟩, -, hdigest, input, hdecode, -, hschema, rows, hget, -, hrows,
      table, htable, -, hlength, heq⟩
    cases heq
    refine ⟨input, table, ⟨body, hbody, hlimit, hdigest, hdecode, hschema⟩, ?_, ?_, htable,
      of_decide_eq_true hlength, rfl⟩
    · rw [hget]
      rfl
    · rwa [get, hget]
  · rintro ⟨input, table, ⟨body, hbody, hlimit, hdigest, hdecode, hschema⟩, hsome, hrows, htable,
      hlength, rfl⟩
    obtain ⟨rows, hget⟩ := Option.isSome_iff_exists.mp hsome
    rw [get, hget] at hrows
    exact ⟨body, ⟨hbody, hlimit⟩, (), hdigest, input, hdecode, (), hschema, rows, hget, (), hrows,
      table, htable, (), decide_eq_true hlength, rfl⟩

/-- Without a limit nothing is delivered. -/
theorem work_null (w : Work) : work p descriptor .null ≠ .ok w := by
  intro h
  obtain ⟨payload, hpayload, -⟩ := Fallible.bind_ok.mp h
  obtain ⟨body, -, hbody⟩ := Fallible.bind_ok.mp hpayload
  cases hbody

theorem caught_work_null : Caught catches (work p descriptor .null) ↔
    Caught catches (p.urlopen (text (get descriptor "read_url"))) ∧
      ∀ body, p.urlopen (text (get descriptor "read_url")) ≠ .ok body := by
  unfold work
  rw [caught_bind, caught_download_null typeError_not_mem]
  refine and_iff_left_of_imp fun h payload hpayload => ?_
  obtain ⟨body, hbody, -⟩ := Fallible.bind_ok.mp hpayload
  exact absurd hbody (h.2 body)

/-- **A request that is executed** gets its answer iff nothing leaves the handler. -/
theorem finish_answers
    (hmax : (isNull (get fields "max_bytes") || positive (get fields "max_bytes")) = true) :
    Total p (finish p catches offloadContract (text (get output "write_url"))
      (work p descriptor (maxBytesOf p fields))) ↔ Answers p fields descriptor output := by
  have hcases : (∃ n, maxBytesOf p fields = .int n ∧ Json.get? fields "max_bytes" ≠ some .null) ∨
      maxBytesOf p fields = .null ∧ Json.get? fields "max_bytes" = some .null := by
    unfold maxBytesOf
    unfold get at hmax
    cases hget : Json.get? fields "max_bytes" with
    | none => exact Or.inl ⟨p.maxArtifactBytes, rfl, nofun⟩
    | some value =>
      rw [hget] at hmax
      cases value with
      | int n => exact Or.inl ⟨n, rfl, nofun⟩
      | null => exact Or.inr ⟨rfl, rfl⟩
      | _ => cases hmax
  rw [finish_total]
  rcases hcases with ⟨n, hn, hnotnull⟩ | ⟨hnull, hget⟩
  · rw [hn, caught_work]
    constructor
    · rintro ⟨⟨hdownload, hread⟩, hupload⟩
      refine ⟨hdownload, fun h => absurd h hnotnull, fun input h => ?_, fun input h => ?_,
        fun input table h hrows htable hlength => ?_⟩
      · exact (hread input (hn ▸ h)).1
      · exact (hread input (hn ▸ h)).2
      · rw [hn] at h hlength
        exact hupload _ (work_deliver.mpr ⟨input, table, h, (hread input h).1, hrows, htable, hlength,
          rfl⟩)
    · intro h
      have hread := h.rows
      have hcolumns := h.columns
      have hupload := h.upload
      rw [hn] at hread hcolumns hupload
      refine ⟨⟨h.download, fun input hreads => ⟨hread input hreads, hcolumns input hreads⟩⟩,
        fun d hd => ?_⟩
      obtain ⟨input, table, hreads, -, hrows, htable, hlength, rfl⟩ := work_deliver.mp hd
      exact hupload input table hreads hrows htable hlength
  · rw [hnull, caught_work_null]
    constructor
    · rintro ⟨⟨hdownload, hnothing⟩, -⟩
      have hreads : ∀ input, ¬ Reads p descriptor (maxBytesOf p fields) input := by
        rintro input ⟨body, hbody, -⟩
        exact hnothing body hbody
      exact ⟨hdownload, fun _ => hnothing, fun input h => absurd h (hreads input),
        fun input h => absurd h (hreads input), fun input _ h => absurd h (hreads input)⟩
    · intro h
      exact ⟨⟨h.download, h.maxBytes hget⟩, fun d hd => absurd hd (work_null _)⟩

/-- The requests whose execution is answered. -/
def Handles (p : Platform) (request : Json) : Prop :=
  ∀ fields descriptor output, request = .obj fields → Valid fields descriptor output →
    isText community (get fields "operation") = true → Answers p fields descriptor output

/-- **The offload worker** answers. -/
theorem handler_total_iff : Total p (handler p request) ↔ Handles p request := by
  unfold handler
  cases hvalid : validateInput request with
  | error stop =>
    have hinvalid : Handles p request := by
      intro fields descriptor output heq hfields
      rw [validateInput_iff.mpr ⟨fields, descriptor, output, heq, hfields⟩] at hvalid
      cases hvalid
    cases stop with
    | invalid message => exact iff_of_true (total_error _ fun _ hx => absurd hx List.not_mem_nil) hinvalid
    | raised e => exact absurd hvalid (quiet_validateInput request e)
  | ok u =>
    obtain ⟨fields, descriptor, output, rfl, hfields⟩ := validateInput_iff.mp hvalid
    have hsame : ∀ descriptor' output', Valid fields descriptor' output' →
        descriptor' = descriptor ∧ output' = output := by
      intro descriptor' output' h
      have hinput := h.artifacts.input.symm.trans hfields.artifacts.input
      have houtput := h.artifacts.outputMapping.symm.trans hfields.artifacts.outputMapping
      cases hinput
      cases houtput
      exact ⟨rfl, rfl⟩
    dsimp only
    split
    · rename_i hother
      refine iff_of_true (total_error _ fun _ hx => absurd hx List.not_mem_nil) ?_
      intro fields' descriptor' output' heq _ hcommunity
      cases heq
      rw [hother] at hcommunity
      cases hcommunity
    · rename_i hcommunity
      rw [Bool.not_eq_false] at hcommunity
      rw [hfields.artifacts.input, hfields.artifacts.outputMapping]
      refine (finish_answers hfields.maxBytes).trans ?_
      constructor
      · intro h fields' descriptor' output' heq hvalid' _
        cases heq
        obtain ⟨rfl, rfl⟩ := hsame _ _ hvalid'
        exact h
      · exact fun h => h fields descriptor output rfl hfields hcommunity

end OffloadWorker

/-! ## The extraction worker -/

namespace ExtractionWorker

/-- The artifact is the one that the descriptor names, and holds passages. -/
structure Admits (p : Platform) (descriptor : Fields) (maxBytes : Json) (input : Decoded) : Prop where
  reads : Reads p descriptor maxBytes input
  passages : input.isPassages = true
  rows : isRows input.numRows (get descriptor "rows") = true

/-- What the handler does not answer to, for a request that it executes: the download, the contract
    file, the model, the table of its rows and the upload raise nothing but what is listed. -/
structure Answers (p : Platform) (fields descriptor output params : Fields) : Prop where
  download : Caught catches (p.urlopen (text (get descriptor "read_url")))
  contract : ∀ input, Admits p descriptor (maxBytesOf p fields) input → Caught catches p.loadContract
  model : ∀ input contract, Admits p descriptor (maxBytesOf p fields) input →
    p.loadContract = .ok contract →
    Caught catches (runModel p (get fields "operation") input params contract)
  table : ∀ input contract rows, Admits p descriptor (maxBytesOf p fields) input →
    p.loadContract = .ok contract →
    runModel p (get fields "operation") input params contract = .ok rows →
    Caught catches (p.fromPylist rows contract)
  upload : ∀ input contract rows d, Admits p descriptor (maxBytesOf p fields) input →
    p.loadContract = .ok contract →
    runModel p (get fields "operation") input params contract = .ok rows →
    p.fromPylist rows contract = .ok d → (d.payload.length : Int) ≤ limit (maxBytesOf p fields) →
    Caught catches (p.put (text (get output "write_url")) d.payload)

theorem valueError_mem : ErrorClass.valueError ∈ catches := by decide

theorem keyError_mem : ErrorClass.keyError ∈ catches := by decide

theorem caught_subscript {name : String} : Caught catches (subscript descriptor name) := by
  unfold subscript
  split
  · exact caught_ok _ _
  · intro e heq
    cases heq
    exact keyError_mem

variable {operation : Json} {n : Int} {contract : Fields} {rows : List Fields}

/-- The work up to the contract. -/
theorem caught_work : Caught catches (work p operation descriptor params (.int n)) ↔
    Caught catches (p.urlopen (text (get descriptor "read_url"))) ∧
      ∀ input, Admits p descriptor (.int n) input → Caught catches p.loadContract ∧
        ∀ contract, p.loadContract = .ok contract →
          Caught catches (runModel p operation input params contract) ∧
          ∀ rows, runModel p operation input params contract = .ok rows →
            Caught catches (p.fromPylist rows contract) := by
  unfold work
  rw [caught_bind, caught_download valueError_mem]
  refine and_congr_right fun _ => ?_
  constructor
  · rintro h input ⟨⟨body, hbody, hlimit, hdigest, hdecode, hschema⟩, hpassages, hrows⟩
    have h := (caught_demand valueError_mem).mp (h body (download_ok.mpr ⟨hbody, hlimit⟩))
      (beq_iff_eq.mpr hdigest)
    have h := (caught_demand valueError_mem).mp
      ((caught_bind.mp h).2 input (decodeArrow_ok.mpr hdecode)) hpassages
    have h := (caught_demand valueError_mem).mp h (beq_iff_eq.mpr hschema)
    obtain ⟨rows, hget⟩ : ∃ rows, Json.get? descriptor "rows" = some rows := by
      rw [get] at hrows
      cases hget : Json.get? descriptor "rows" with
      | some rows => exact ⟨rows, rfl⟩
      | none =>
        rw [hget] at hrows
        cases hrows
    rw [get, hget] at hrows
    have h := (caught_demand valueError_mem).mp
      ((caught_bind.mp h).2 rows (OffloadWorker.subscript_ok.mpr hget)) hrows
    obtain ⟨hcontract, h⟩ := caught_bind.mp h
    refine ⟨hcontract, fun contract hload => ?_⟩
    obtain ⟨hmodel, h⟩ := caught_bind.mp (h contract hload)
    refine ⟨hmodel, fun rows hrun => ?_⟩
    exact (caught_bind.mp (h rows hrun)).1
  · intro h body hbody
    obtain ⟨hbody, hlimit⟩ := download_ok.mp hbody
    refine (caught_demand valueError_mem).mpr fun hdigest => ?_
    refine caught_bind.mpr ⟨caught_decodeArrow valueError_mem, fun input hdecode => ?_⟩
    refine (caught_demand valueError_mem).mpr fun hpassages => ?_
    refine (caught_demand valueError_mem).mpr fun hschema => ?_
    refine caught_bind.mpr ⟨caught_subscript, fun rows hget => ?_⟩
    refine (caught_demand valueError_mem).mpr fun hrows => ?_
    have hget : get descriptor "rows" = rows := by
      rw [get, OffloadWorker.subscript_ok.mp hget, Option.getD_some]
    obtain ⟨hcontract, h⟩ := h input ⟨⟨body, hbody, hlimit, beq_iff_eq.mp hdigest,
      decodeArrow_ok.mp hdecode, beq_iff_eq.mp hschema⟩, hpassages, hget ▸ hrows⟩
    refine caught_bind.mpr ⟨hcontract, fun contract hload => ?_⟩
    obtain ⟨hmodel, h⟩ := h contract hload
    refine caught_bind.mpr ⟨hmodel, fun rows hrun => ?_⟩
    exact caught_bind.mpr ⟨h rows hrun, fun d _ => caught_ok _ _⟩

/-- What the work delivers. -/
theorem work_deliver {d : Delivery} :
    work p operation descriptor params (.int n) = .ok (.deliver d) ↔
      ∃ input contract rows, Admits p descriptor (.int n) input ∧ p.loadContract = .ok contract ∧
        runModel p operation input params contract = .ok rows ∧ p.fromPylist rows contract = .ok d ∧
        (d.payload.length : Int) ≤ n := by
  unfold work
  simp only [Fallible.bind_ok, demand_ok, download_ok, decodeArrow_ok, OffloadWorker.subscript_ok,
    beq_iff_eq]
  constructor
  · rintro ⟨body, ⟨hbody, hlimit⟩, -, hdigest, input, hdecode, -, hpassages, -, hschema, rows, hget,
      -, hrows, contract, hload, rows', hrun, d', htable, heq⟩
    have heq := Except.ok.inj heq
    split at heq
    · cases heq
    · rename_i hlength
      cases heq
      refine ⟨input, contract, rows', ⟨⟨body, hbody, hlimit, hdigest, hdecode, hschema⟩, hpassages, ?_⟩,
        hload, hrun, htable, not_lt.mp hlength⟩
      rwa [get, hget]
  · rintro ⟨input, contract, rows', ⟨⟨body, hbody, hlimit, hdigest, hdecode, hschema⟩, hpassages,
      hrows⟩, hload, hrun, htable, hlength⟩
    cases hget : Json.get? descriptor "rows" with
    | none =>
      rw [get, hget] at hrows
      cases hrows
    | some rows =>
      rw [get, hget] at hrows
      refine ⟨body, ⟨hbody, hlimit⟩, (), hdigest, input, hdecode, (), hpassages, (), hschema, rows, rfl,
        (), hrows, contract, hload, rows', hrun, d, htable, ?_⟩
      exact congrArg Except.ok (if_neg (not_lt.mpr hlength))

/-- **A request that is executed** gets its answer iff nothing leaves the handler. -/
theorem finish_answers (hmax : positive (maxBytesOf p fields) = true) :
    Total p (finish p catches extractionContract (text (get output "write_url"))
      (work p (get fields "operation") descriptor params (maxBytesOf p fields))) ↔
        Answers p fields descriptor output params := by
  obtain ⟨n, hn⟩ : ∃ n, maxBytesOf p fields = .int n := by
    cases hvalue : maxBytesOf p fields with
    | int n => exact ⟨n, rfl⟩
    | _ =>
      rw [hvalue] at hmax
      cases hmax
  rw [finish_total, hn, caught_work]
  constructor
  · rintro ⟨⟨hdownload, hadmits⟩, hupload⟩
    refine ⟨hdownload, fun input h => ?_, fun input contract h hload => ?_,
      fun input contract rows h hload hrun => ?_, fun input contract rows d h hload hrun htable hlength => ?_⟩
    · exact (hadmits input (hn ▸ h)).1
    · exact ((hadmits input (hn ▸ h)).2 contract hload).1
    · exact ((hadmits input (hn ▸ h)).2 contract hload).2 rows hrun
    · rw [hn] at h hlength
      exact hupload d (work_deliver.mpr ⟨input, contract, rows, h, hload, hrun, htable, hlength⟩)
  · intro h
    have hcontract := h.contract
    have hmodel := h.model
    have htable := h.table
    have hupload := h.upload
    rw [hn] at hcontract hmodel htable hupload
    refine ⟨⟨h.download, fun input hadmits => ⟨hcontract input hadmits, fun contract hload =>
      ⟨hmodel input contract hadmits hload, fun rows hrun =>
        htable input contract rows hadmits hload hrun⟩⟩⟩, fun d hd => ?_⟩
    obtain ⟨input, contract, rows, hadmits, hload, hrun, hok, hlength⟩ := work_deliver.mp hd
    exact hupload input contract rows d hadmits hload hrun hok hlength

/-- The requests that are answered: an operation that can be looked up, and an execution that is
    answered. -/
def Handles (p : Platform) (request : Json) : Prop :=
  ∀ fields, request = .obj fields →
    (isText offloadContract (get fields "contract") = true →
      unhashable (get fields "operation") = false) ∧
    ∀ descriptor output params, Valid p.maxArtifactBytes fields descriptor output params →
      Answers p fields descriptor output params

/-- **The extraction worker** answers. -/
theorem handler_total_iff : Total p (handler p request) ↔ Handles p request := by
  unfold handler
  split
  · rename_i hmapping
    refine iff_of_true (total_error _ fun _ hx => absurd hx List.not_mem_nil) ?_
    intro fields heq
    rw [heq] at hmapping
    cases hmapping
  · rename_i hmapping
    obtain ⟨fields, rfl⟩ : ∃ fields, request = .obj fields := by
      cases request with
      | obj fields => exact ⟨fields, rfl⟩
      | _ => exact absurd rfl hmapping
    unfold execute
    cases hvalid : validateInput p.maxArtifactBytes (.obj fields) with
    | error stop =>
      have hinvalid : ∀ descriptor output params,
          ¬ Valid p.maxArtifactBytes fields descriptor output params := by
        intro descriptor output params h
        rw [validateInput_iff.mpr ⟨fields, descriptor, output, params, rfl, h⟩] at hvalid
        cases hvalid
      cases stop with
      | invalid message =>
        refine iff_of_true (total_error _ fun _ hx => absurd hx List.not_mem_nil) ?_
        intro fields' heq
        cases heq
        refine ⟨fun hcontract => ?_, fun _ _ _ h => absurd h (hinvalid _ _ _)⟩
        by_contra hunhashable
        rw [Bool.not_eq_false] at hunhashable
        rw [validateInput_raised.mpr ⟨hcontract, hunhashable, rfl⟩] at hvalid
        cases hvalid
      | raised e =>
        obtain ⟨hcontract, hunhashable, -⟩ := validateInput_raised.mp hvalid
        refine iff_of_false not_total fun h => ?_
        have hhashable := (h fields rfl).1 hcontract
        rw [hunhashable] at hhashable
        cases hhashable
    | ok u =>
      obtain ⟨fields', descriptor, output, params, heq, hfields⟩ := validateInput_iff.mp hvalid
      cases heq
      dsimp only
      rw [hfields.artifacts.input, hfields.artifacts.outputMapping, hfields.paramsMapping]
      refine (finish_answers hfields.maxBytes).trans ?_
      constructor
      · intro h fields' heq
        cases heq
        refine ⟨fun _ => hashable_of_oneOf hfields.operation, fun descriptor' output' params' h' => ?_⟩
        have hinput := h'.artifacts.input.symm.trans hfields.artifacts.input
        have houtput := h'.artifacts.outputMapping.symm.trans hfields.artifacts.outputMapping
        have hparams := h'.paramsMapping.symm.trans hfields.paramsMapping
        cases hinput
        cases houtput
        cases hparams
        exact h
      · exact fun h => (h fields rfl).2 descriptor output params hfields

end ExtractionWorker

/-! ## Both workers -/

/-- **Total at the provider boundary?**  Each handler answers, with one of `output` and `error` and with
    no upload before an error that is not the upload's, exactly on the requests that it handles. -/
theorem handlers_total_iff (p q : Platform) (request : Json) :
    (Total p (OffloadWorker.handler p request) ↔ OffloadWorker.Handles p request) ∧
      (Total q (ExtractionWorker.handler q request) ↔ ExtractionWorker.Handles q request) :=
  ⟨OffloadWorker.handler_total_iff, ExtractionWorker.handler_total_iff⟩

end Handlers

/-- A server that answers everything with nothing, and no contract file. -/
def toyPlatform : Platform where
  maxArtifactBytes := 1024
  urlopen _ := .ok []
  put _ _ := .ok ()
  hexdigest _ := lit "e3b0c44298fc1c149afbf4c8996fb92427ae41e4649b934ca495991b7852b855"
  decode _ := none
  encode _ := []
  loadContract := .error { cls := .osError }
  runAtlas _ _ _ := .ok []
  runTyped _ _ _ := .ok []
  fromPylist _ _ := .ok ⟨[], [], 0⟩

/-- An operation that is a list. -/
def toyListed : Json :=
  .obj [(lit "contract", .str (lit offloadContract)), (lit "operation", .arr [])]

/-- It raises out of the extraction worker. -/
theorem handlers_raise : ¬ ∀ (p q : Platform) (request : Json),
    Total p (OffloadWorker.handler p request) ∧ Total q (ExtractionWorker.handler q request) := by
  intro hlaw
  have htotal := (hlaw toyPlatform toyPlatform toyListed).2
  have hraises : ExtractionWorker.handler toyPlatform toyListed = ⟨.error { cls := .typeError }, []⟩ :=
    rfl
  rw [hraises] at htotal
  exact not_total htotal

/-- A limit that is null. -/
def toyUnlimited : Json :=
  .obj [(lit "contract", .str (lit offloadContract)),
    (lit "operation", .str (lit OffloadWorker.community)), (lit "operation_id", .str (lit "op")),
    (lit "input", .obj [(lit "schema_json", .str []), (lit "rows", .int 0),
      (lit "payload_digest", .str (toyPlatform.digest [])), (lit "artifact_key", .str (lit "in")),
      (lit "read_url", .str (lit "https://store/in"))]),
    (lit "output", .obj [(lit "artifact_key", .str (lit "out")),
      (lit "write_url", .str (lit "https://store/out"))]),
    (lit "params", .obj []), (lit "max_bytes", .null)]

example : OffloadWorker.validateInput toyUnlimited = .ok () := by decide +kernel

example : (OffloadWorker.handler toyPlatform toyUnlimited).result = .error { cls := .typeError } := rfl

end ControlPlane.Workers
