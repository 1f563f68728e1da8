/-
  REMOTE PASSAGES: `_remote_source_pages` of `apps/extraction/planner.py`.

  A listing is read page by page.  Each request names a cursor and a limit; a page that is too large is
  asked for again with HALF the limit, and the limit stays halved.  The next page starts at the cursor
  that the last one ended with.

  The server may answer every request differently, so it is a function of the number of the request and
  of the query.  A page is a body of bytes, and all of it is read here as the code reads it.

  1. The inner loop ends: fewer halvings than the limit reach 1 (`requestPage_isSome`).
  2. Against a server that serves a list, page by page, the pages are the list (`pagesFrom_exact`): a
     retry asks for the same position, and nothing that was read is asked for again.
  3. No cursor is followed twice, whatever the server does (`pagesFrom_refuses`); so a server with
     finitely many cursors cannot keep the loop going (`pagesFrom_ends`).
-/
import ControlPlane.Extraction.Reviews
import ControlPlane.Fallible
import ControlPlane.PyError

namespace ControlPlane.Extraction

/-! ## Requests and replies -/

/-- The settings, and the arguments of the generator. -/
structure Remote where
  py : Interpreter
  /-- `str(tenant_id)`. -/
  tenantId : PyStr
  sourceKind : PyStr
  /-- `settings.THEOREM_MACHINE_KEY_PASSAGES`. -/
  machineKey : PyStr
  maxResponseBytes : Int

namespace Remote

/-- The parameters of a request. -/
structure Query where
  tenant : PyStr
  source : PyStr
  limit : Nat
  cursor : Option PyStr
  deriving DecidableEq

/-- What a request is answered with: an HTTP error, or a body in chunks, which may break off with one. -/
inductive Reply where
  | httpError
  | stream (chunks : List (List UInt8)) (breaksOff : Bool)

/-- The answer to each request, by its number. -/
abbrev Server := Nat → Query → Reply

/-- What the generator raises. -/
inductive PageError where
  /-- `ExtractionPlanningError`. -/
  | planning (detail : String)
  /-- `_RemotePageTooLarge`. -/
  | tooLarge
  /-- Of another class. -/
  | other (e : PyError)
  deriving DecidableEq, Repr

structure Passage where
  passageId : PyStr
  text : PyStr
  metadataJson : Option PyStr
  deriving DecidableEq, Repr

variable (r : Remote)

/-! ## One page -/

/-- The loop over the chunks; `none` is `_RemotePageTooLarge`. -/
def collect (maxBytes : Int) (encoded : List UInt8) : List (List UInt8) → Option (List UInt8)
  | [] => some encoded
  | chunk :: chunks =>
      if maxBytes < (encoded.length + chunk.length : Nat) then none
      else collect maxBytes (encoded ++ chunk) chunks

/-- The body of the inner `try`. -/
def receive : Reply → Except PageError Json
  | .httpError => .error (.planning "passage listing request failed")
  | .stream chunks breaksOff => match collect r.maxResponseBytes [] chunks with
    | none => .error .tooLarge
    | some encoded =>
        if breaksOff then .error (.planning "passage listing request failed")
        else match Json.loads r.py encoded with
          | .ok payload => .ok payload
          | .error .malformed => .error (.planning "passage listing request failed")
          | .error .intDigits => .error (.other ⟨.valueError, []⟩)
          | .error .recursion => .error (.other ⟨.recursionError, []⟩)

/-- `json.dumps(metadata, sort_keys=True, separators=(",", ":"))`. -/
def metadataText (metadata : Json) : Except PageError PyStr :=
  if r.py.writeDepth < metadata.depth then .error (.other ⟨.recursionError, []⟩)
  else .ok (Json.dumpsIn JsonReader.compact r.py.repr metadata)

/-- `metadata_json`, or the text of `metadata`. -/
def metadataJson (item : List (PyStr × Json)) : Except PageError (Option PyStr) :=
  match (Json.get? item "metadata_json").getD .null with
  | .str text => .ok (some text)
  | .null => match (Json.get? item "metadata").getD .null with
    | .null => .ok none
    | metadata => (r.metadataText metadata).map some
  | _ => .error (.planning "metadata_json must be a string or null")

/-- `item.get("passage_id") or item.get("id")`. -/
def passageId (item : List (PyStr × Json)) : Json :=
  let passageId := (Json.get? item "passage_id").getD .null
  if passageId.truthy then passageId else (Json.get? item "id").getD .null

/-- The body of the loop over the rows.  The text of the tenant's id is the text of no value but a
    string. -/
def readRow : Json → Except PageError Passage
  | .obj item =>
      let crossed : Except PageError Passage :=
        .error (.planning "passage listing crossed the admitted tenant")
      let passage : Except PageError Passage :=
        match passageId item, Json.get? item "text" with
        | .str passageId, some (.str text) =>
            (r.metadataJson item).map fun metadataJson => ⟨passageId, text, metadataJson⟩
        | _, _ => .error (.planning "passage rows require passage_id and text")
      match (Json.get? item "tenant_id").getD .null with
      | .null => passage
      | .str tenant => if tenant = r.tenantId then passage else crossed
      | _ => crossed
  | _ => .error (.planning "passage listing rows must be objects")

/-- A lone surrogate has no place in an Arrow string. -/
def encodable (p : Passage) : Bool :=
  !(p.passageId.any PyStr.isSurrogate || p.text.any PyStr.isSurrogate ||
    p.metadataJson.any fun text => text.any PyStr.isSurrogate)

/-- `pa.Table.from_pylist(passages, schema=passage_schema())`. -/
def table (passages : List Passage) : Except PageError (List Passage) :=
  if passages.all encodable then .ok passages else .error (.other ⟨.unicodeEncodeError, []⟩)

/-- `raw_passages`. -/
def rawPassages : Json → Json
  | .obj payload => (Json.get? payload "passages").getD .null
  | payload => payload

/-- `next_cursor`. -/
def nextCursor : Json → Json
  | .obj payload => (Json.get? payload "next_cursor").getD .null
  | _ => .null

/-- The table of a page. -/
def pageTable (payload : Json) : Except PageError (List Passage) :=
  match rawPassages payload with
  | .arr items => do
      let passages ← items.mapM r.readRow
      table passages
  | _ => .error (.planning "passage listing must return a list")

/-! ## The loops -/

/-- Where the generator is. -/
structure Progress where
  requests : Nat
  cursor : Option PyStr
  seenCursors : List PyStr
  pageSize : Nat
  deriving DecidableEq

def query (cursor : Option PyStr) (limit : Nat) : Query := ⟨r.tenantId, r.sourceKind, limit, cursor⟩

variable (server : Server)

/-- The inner loop; `none` says that the fuel is spent. -/
def requestPage : Nat → Progress → Option (Except PageError (Json × Progress))
  | fuel, s => match r.receive (server s.requests (r.query s.cursor s.pageSize)) with
    | .ok payload => some (.ok (payload, { s with requests := s.requests + 1 }))
    | .error .tooLarge =>
        if s.pageSize = 1 then some (.error .tooLarge)
        else match fuel with
          | 0 => none
          | fuel + 1 => requestPage fuel
              { s with requests := s.requests + 1, pageSize := max 1 (s.pageSize / 2) }
    | .error e => some (.error e)

/-- What follows the `yield`; `none` leaves the outer loop. -/
def advance (s : Progress) : Json → Except PageError (Option Progress)
  | .null => .ok none
  | .str (c :: rest) =>
      if c :: rest ∈ s.seenCursors then .error (.planning "passage listing repeated a cursor")
      else .ok (some
        { s with seenCursors := (c :: rest) :: s.seenCursors, cursor := some (c :: rest) })
  | _ => .error (.planning "passage listing next_cursor must be a non-empty string")

/-- How the generator ends; `running` says that the fuel is spent. -/
inductive Ending where
  | finished
  | raised (e : PageError)
  | running
  deriving DecidableEq

/-- The tables that were yielded, each with the next cursor of its page. -/
structure Run where
  pages : List (List Passage × Json)
  ending : Ending

/-- The outer loop. -/
def pagesFrom : Nat → Progress → Run
  | 0, _ => ⟨[], .running⟩
  | fuel + 1, s => match r.requestPage server s.pageSize s with
    | none => ⟨[], .running⟩
    | some (.error e) => ⟨[], .raised e⟩
    | some (.ok (payload, s)) => match r.pageTable payload with
      | .error e => ⟨[], .raised e⟩
      | .ok table => match advance s (nextCursor payload) with
        | .error e => ⟨[(table, nextCursor payload)], .raised e⟩
        | .ok none => ⟨[(table, nextCursor payload)], .finished⟩
        | .ok (some s) =>
            let run := pagesFrom fuel s
            ⟨(table, nextCursor payload) :: run.pages, run.ending⟩

def remotePageSize : Int := 1000

def remoteEstimatedPassageBytes : Int := 1024

/-- The first limit. -/
def firstPageSize : Nat :=
  (max 1 (min remotePageSize (r.maxResponseBytes / remoteEstimatedPassageBytes))).toNat

/-- `_remote_source_pages`, until the fuel is spent. -/
def remoteSourcePages (fuel : Nat) : Run :=
  if r.machineKey = [] then
    ⟨[], .raised (.planning "THEOREM_MACHINE_KEY_PASSAGES is required")⟩
  else r.pagesFrom server fuel ⟨0, none, [], r.firstPageSize⟩

variable {r server} {s : Progress} {payload : Json} {fuel : Nat}

/-! ## The inner loop -/

theorem collect_some {maxBytes : Int} {chunks : List (List UInt8)} {encoded body : List UInt8}
    (h : collect maxBytes encoded chunks = some body) : body = encoded ++ chunks.flatten := by
  induction chunks generalizing encoded with
  | nil =>
    rw [List.flatten_nil, List.append_nil]
    exact (Option.some.inj h).symm
  | cons chunk chunks ih =>
    rw [collect] at h
    split at h
    · cases h
    · rw [ih h, List.flatten_cons, List.append_assoc]

theorem collect_none {maxBytes : Int} {chunks : List (List UInt8)} {encoded : List UInt8}
    (h : collect maxBytes encoded chunks = none) :
    maxBytes < ((encoded ++ chunks.flatten).length : Nat) := by
  induction chunks generalizing encoded with
  | nil => cases h
  | cons chunk chunks ih =>
    rw [collect] at h
    rw [List.flatten_cons, List.length_append, List.length_append]
    split at h
    · omega
    · have hrest := ih h
      rw [List.length_append, List.length_append] at hrest
      omega

/-- What the inner loop returns is the reply to a request for the page at hand: a page, or an error
    that is not about its size, or one that is, to a request for a single row. -/
def Requested (r : Remote) (server : Server) (s : Progress) :
    Except PageError (Json × Progress) → Prop
  | .ok (payload, s') => ∃ k size, 1 ≤ size ∧
      r.receive (server k (r.query s.cursor size)) = .ok payload ∧
        s' = { s with requests := k + 1, pageSize := size }
  | .error e => ∃ k size, 1 ≤ size ∧ r.receive (server k (r.query s.cursor size)) = .error e ∧
      (e = .tooLarge → size = 1)

theorem requestPage_of_ok (h : r.receive (server s.requests (r.query s.cursor s.pageSize)) =
    .ok payload) : r.requestPage server fuel s =
      some (.ok (payload, { s with requests := s.requests + 1 })) := by
  unfold requestPage
  rw [h]

theorem requestPage_of_error {e : PageError} (he : e = .tooLarge → s.pageSize = 1)
    (h : r.receive (server s.requests (r.query s.cursor s.pageSize)) = .error e) :
    r.requestPage server fuel s = some (.error e) := by
  unfold requestPage
  rw [h]
  cases e with
  | tooLarge => simp [he rfl]
  | planning | other => rfl

theorem requestPage_of_tooLarge (hsize : s.pageSize ≠ 1)
    (h : r.receive (server s.requests (r.query s.cursor s.pageSize)) = .error .tooLarge) :
    r.requestPage server (fuel + 1) s = r.requestPage server fuel
      { s with requests := s.requests + 1, pageSize := max 1 (s.pageSize / 2) } := by
  rw [requestPage, h]
  simp [hsize]

/-- **The inner loop ends**, whatever the server answers: a limit of more than 1 gets smaller. -/
theorem requestPage_spec (r : Remote) (server : Server) (fuel : Nat) : ∀ s : Progress,
    1 ≤ s.pageSize → s.pageSize ≤ fuel + 1 →
      ∃ result, r.requestPage server fuel s = some result ∧ Requested r server s result := by
  induction fuel with
  | zero =>
    intro s hpos hsize
    have hone : s.pageSize = 1 := by omega
    cases h : r.receive (server s.requests (r.query s.cursor s.pageSize)) with
    | ok payload => exact ⟨_, requestPage_of_ok h, _, _, hpos, h, rfl⟩
    | error e => exact ⟨_, requestPage_of_error (fun _ => hone) h, _, _, hpos, h, fun _ => hone⟩
  | succ fuel ih =>
    intro s hpos hsize
    cases h : r.receive (server s.requests (r.query s.cursor s.pageSize)) with
    | ok payload => exact ⟨_, requestPage_of_ok h, _, _, hpos, h, rfl⟩
    | error e =>
      by_cases he : e = .tooLarge → s.pageSize = 1
      · exact ⟨_, requestPage_of_error he h, _, _, hpos, h, he⟩
      · -- the same cursor, and half the limit
        obtain ⟨rfl, hne⟩ := Classical.not_imp.mp he
        rw [requestPage_of_tooLarge hne h]
        obtain ⟨result, hresult, hrequested⟩ := ih
          { s with requests := s.requests + 1, pageSize := max 1 (s.pageSize / 2) }
          (Nat.le_max_left _ _) (by simp only; omega)
        refine ⟨result, hresult, ?_⟩
        match result, hrequested with
        | .ok _, hrequested => exact hrequested
        | .error _, hrequested => exact hrequested

/-! ## Servers of a list -/

/-- The cursor of a position: the first page has none. -/
def cursorAt (name : Nat → PyStr) (p : Nat) : Option PyStr := if p = 0 then none else some (name p)

/-- The server answers with the rows from the position on, at least one where there is one and not more
    than the limit, and it ends a page that is not the last with the name of the next position.  How
    many rows, how they are written and how long the body is may differ from request to request. -/
structure Serves (r : Remote) (server : Server) (items : List Json) (name : Nat → PyStr) : Prop where
  distinct : ∀ p < items.length, ∀ q < items.length, name p = name q → p = q
  page : ∀ k p limit, p < items.length ∨ p = 0 → 1 ≤ limit → ∃ count chunks payload,
    server k (r.query (cursorAt name p) limit) = .stream chunks false ∧
      Json.loads r.py chunks.flatten = .ok payload ∧ (p < items.length → 1 ≤ count) ∧
        count ≤ limit ∧ p + count ≤ items.length ∧
          rawPassages payload = .arr ((items.drop p).take count) ∧
            nextCursor payload =
              if p + count < items.length then .str (name (p + count)) else .null

/-- The rows are those of these passages, which an Arrow table can hold. -/
structure Lists (r : Remote) (items : List Json) (passages : List Passage) : Prop where
  rows : items.mapM r.readRow = .ok passages
  encodable : passages.all encodable = true

/-- The page that a request for a single row at this position was answered with is too large. -/
def SingleTooLarge (r : Remote) (server : Server) (name : Nat → PyStr) (p : Nat) : Prop :=
  ∃ k chunks, server k (r.query (cursorAt name p) 1) = .stream chunks false ∧
    r.maxResponseBytes < (chunks.flatten.length : Nat)

variable {items : List Json} {name : Nat → PyStr} {passages : List Passage} {p k size count : Nat}

theorem receive_stream {chunks : List (List UInt8)}
    (hloads : Json.loads r.py chunks.flatten = .ok payload) :
    r.receive (.stream chunks false) = .ok payload ∨
      r.receive (.stream chunks false) = .error .tooLarge ∧
        r.maxResponseBytes < (chunks.flatten.length : Nat) := by
  rw [receive]
  cases hcollect : collect r.maxResponseBytes [] chunks with
  | none => exact .inr ⟨rfl, collect_none hcollect⟩
  | some encoded =>
    obtain rfl : encoded = chunks.flatten := collect_some hcollect
    simp [hloads]

/-- Part of the rows is part of the passages. -/
theorem Lists.pageTable (h : Lists r items passages)
    (hraw : rawPassages payload = .arr ((items.drop p).take count)) :
    r.pageTable payload = .ok ((passages.drop p).take count) := by
  have hrows : ((items.drop p).take count).mapM r.readRow = .ok ((passages.drop p).take count) :=
    Fallible.mapM_ok.mpr (List.forall₂_take count (List.forall₂_drop p (Fallible.mapM_ok.mp h.rows)))
  have hall : ((passages.drop p).take count).all Remote.encodable = true := by
    refine List.all_eq_true.mpr fun passage hpassage => ?_
    exact List.all_eq_true.mp h.encodable passage (List.mem_of_mem_drop (List.mem_of_mem_take hpassage))
  rw [Remote.pageTable, hraw]
  simp only [hrows]
  exact if_pos hall

/-- What the generator has seen when it is at a position: names of positions that lie behind. -/
structure At (name : Nat → PyStr) (p : Nat) (s : Progress) : Prop where
  cursor : s.cursor = cursorAt name p
  seen : ∀ c ∈ s.seenCursors, ∃ q ≤ p, c = name q
  pageSize : 1 ≤ s.pageSize

/-- The tables are the passages from a position on, or a page of one passage is too large and they are
    the passages in front of it. -/
def Exact (r : Remote) (server : Server) (name : Nat → PyStr) (passages : List Passage) (p : Nat)
    (run : Run) : Prop :=
  let yielded := (run.pages.map Prod.fst).flatten
  run.ending = .finished ∧ yielded = passages.drop p ∨
    run.ending = .raised .tooLarge ∧ yielded <+: passages.drop p ∧
      SingleTooLarge r server name (p + yielded.length)

/-- A page in front of an exact rest. -/
theorem Exact.cons {run : Run} {next : Json} (hcount : p + count ≤ passages.length)
    (h : Exact r server name passages (p + count) run) :
    Exact r server name passages p ⟨((passages.drop p).take count, next) :: run.pages, run.ending⟩ := by
  have hsplit : passages.drop p = (passages.drop p).take count ++ passages.drop (p + count) := by
    rw [← List.drop_drop, List.take_append_drop]
  have hlength : ((passages.drop p).take count).length = count := by
    rw [List.length_take, List.length_drop]
    omega
  rcases h with ⟨hending, hyielded⟩ | ⟨hending, hyielded, hlarge⟩
  · refine .inl ⟨hending, ?_⟩
    rw [List.map_cons, List.flatten_cons, hyielded]
    exact hsplit.symm
  · refine .inr ⟨hending, ?_, ?_⟩
    · rw [List.map_cons, List.flatten_cons]
      nth_rewrite 2 [hsplit]
      exact (List.prefix_append_right_inj _).mpr hyielded
    · rw [List.map_cons, List.flatten_cons, List.length_append, hlength, ← Nat.add_assoc]
      exact hlarge

/-- **From any position on** the pages are what the server serves. -/
theorem pagesFrom_exact (hserves : Serves r server items name) (hname : ∀ p, name p ≠ [])
    (hlists : Lists r items passages) (fuel : Nat) : ∀ (p : Nat) (s : Progress), At name p s →
      p < items.length ∨ p = 0 → items.length < fuel + p →
        Exact r server name passages p (r.pagesFrom server fuel s) := by
  have hlength : passages.length = items.length :=
    (Fallible.mapM_ok.mp hlists.rows).length_eq.symm
  induction fuel with
  | zero => intro p s _ hp hfuel; omega
  | succ fuel ih =>
    intro p s hat hp hfuel
    obtain ⟨result, hresult, hrequested⟩ :=
      requestPage_spec r server s.pageSize s hat.pageSize (Nat.le_succ _)
    rw [pagesFrom, hresult]
    match result, hrequested with
    | .error e, ⟨k, size, hsize, hreceive, hone⟩ =>
      rw [hat.cursor] at hreceive
      obtain ⟨count, chunks, payload, hreply, hloads, -⟩ := hserves.page k p size hp hsize
      rw [hreply] at hreceive
      rcases receive_stream (r := r) hloads with hok | ⟨herror, hlarge⟩
      · cases hok.symm.trans hreceive
      · obtain rfl : e = .tooLarge := Except.error.inj (hreceive.symm.trans herror)
        obtain rfl := hone rfl
        exact .inr ⟨rfl, List.nil_prefix, k, chunks, hreply, hlarge⟩
    | .ok (payload, s'), ⟨k, size, hsize, hreceive, hs'⟩ =>
      rw [hat.cursor] at hreceive
      obtain ⟨count, chunks, payload', hreply, hloads, hpos, -, hcount, hraw, hnext⟩ :=
        hserves.page k p size hp hsize
      rw [hreply] at hreceive
      obtain rfl : payload' = payload := by
        rcases receive_stream (r := r) hloads with hok | ⟨herror, -⟩
        · exact Except.ok.inj (hok.symm.trans hreceive)
        · cases herror.symm.trans hreceive
      simp only [hlists.pageTable hraw, hnext]
      by_cases hlast : p + count < items.length
      · -- the next position has a name that was not seen
        obtain ⟨c, rest, hc⟩ := List.exists_cons_of_ne_nil (hname (p + count))
        have hnew : name (p + count) ∉ s'.seenCursors := by
          rw [hs']
          intro hmem
          obtain ⟨q, hq, heq⟩ := hat.seen _ hmem
          have := hserves.distinct (p + count) hlast q (by omega) heq
          have := hpos (by omega)
          omega
        have hadvance : advance s' (.str (name (p + count))) = .ok (some { s' with
            seenCursors := name (p + count) :: s'.seenCursors
            cursor := some (name (p + count)) }) := by
          rw [hc] at hnew ⊢
          simp only [advance, if_neg hnew]
        rw [if_pos hlast, hadvance]
        have hnextAt : At name (p + count) { s' with
            seenCursors := name (p + count) :: s'.seenCursors
            cursor := some (name (p + count)) } := by
          refine ⟨?_, fun c hc => ?_, by rw [hs']; exact hsize⟩
          · rw [cursorAt, if_neg (by have := hpos (by omega); omega)]
          · rcases List.mem_cons.mp hc with rfl | hc
            · exact ⟨_, le_rfl, rfl⟩
            · rw [hs'] at hc
              obtain ⟨q, hq, heq⟩ := hat.seen c hc
              exact ⟨q, by omega, heq⟩
        have hpos' := hpos (by omega)
        exact (ih (p + count) _ hnextAt (.inl hlast) (by omega)).cons (by omega)
      · rw [if_neg hlast]
        show Exact r server name passages p ⟨[((passages.drop p).take count, .null)], .finished⟩
        refine .inl ⟨rfl, ?_⟩
        rw [List.map_singleton, List.flatten_singleton]
        exact List.take_of_length_le (by rw [List.length_drop]; omega)

/-! ## Repeated cursors -/

theorem advance_none {next : Json} (h : advance s next = .ok none) : next = .null := by
  unfold advance at h
  split at h
  · rfl
  · split at h <;> cases h
  · cases h

theorem advance_some {next : Json} {s' : Progress} (h : advance s next = .ok (some s')) :
    ∃ c, next = .str c ∧ c ∉ s.seenCursors ∧
      s' = { s with seenCursors := c :: s.seenCursors, cursor := some c } := by
  unfold advance at h
  split at h
  · cases h
  · rename_i c rest
    split at h
    · cases h
    · rename_i hnew
      exact ⟨c :: rest, rfl, hnew, (Option.some.inj (Except.ok.inj h)).symm⟩
  · cases h

/-- A page whose next cursor was the next cursor of an earlier page is the last, and the generator
    raises behind it. -/
def Refuses (seen : List PyStr) (run : Run) : Prop :=
  ∀ before page after, run.pages = before ++ page :: after → ∀ c, page.2 = .str c →
    c ∈ seen ∨ (∃ earlier ∈ before, earlier.2 = .str c) → after = [] ∧ ∃ e, run.ending = .raised e

theorem refuses_nil {seen : List PyStr} {ending : Ending} : Refuses seen ⟨[], ending⟩ :=
  fun _ _ _ h => absurd h.symm (List.append_ne_nil_of_right_ne_nil _ (List.cons_ne_nil _ _))

/-- The only page of a run. -/
theorem refuses_singleton {seen : List PyStr} {page : List Passage × Json} {ending : Ending}
    (h : ∀ c, page.2 = .str c → ∃ e, ending = .raised e) : Refuses seen ⟨[page], ending⟩ := by
  intro before last after hpages c hc _
  cases before with
  | nil =>
    obtain ⟨rfl, rfl⟩ := List.cons.inj hpages
    exact ⟨rfl, h c hc⟩
  | cons first before =>
    exact absurd (List.cons.inj hpages).2.symm
      (List.append_ne_nil_of_right_ne_nil _ (List.cons_ne_nil _ _))

/-- A page with a new cursor, and a run that has seen it. -/
theorem Refuses.cons {seen : List PyStr} {run : Run} {c : PyStr} {table : List Passage}
    (h : Refuses (c :: seen) run) (hc : c ∉ seen) :
    Refuses seen ⟨(table, .str c) :: run.pages, run.ending⟩ := by
  intro before page after hpages d hd hseen
  cases before with
  | nil =>
    obtain ⟨rfl, -⟩ := List.cons.inj hpages
    obtain rfl := Json.str.inj hd
    rcases hseen with hseen | ⟨_, hnone, -⟩
    · exact absurd hseen hc
    · exact absurd hnone List.not_mem_nil
  | cons first before =>
    obtain ⟨rfl, hrest⟩ := List.cons.inj hpages
    refine h before page after hrest d hd ?_
    rcases hseen with hseen | ⟨earlier, hmem, hearlier⟩
    · exact .inl (List.mem_cons_of_mem _ hseen)
    · rcases List.mem_cons.mp hmem with rfl | hmem
      · exact .inl (Json.str.inj hearlier ▸ List.mem_cons_self)
      · exact .inr ⟨earlier, hmem, hearlier⟩

/-- What one round of the outer loop can do: raise without a page, end with a page, or go on behind
    one, from a cursor that is new. -/
theorem pagesFrom_succ (hsize : 1 ≤ s.pageSize) :
    (∃ e, r.pagesFrom server (fuel + 1) s = ⟨[], .raised e⟩) ∨
    (∃ page, r.pagesFrom server (fuel + 1) s = ⟨[page], .finished⟩ ∧ page.2 = .null) ∨
    (∃ page e, r.pagesFrom server (fuel + 1) s = ⟨[page], .raised e⟩) ∨
    ∃ k size payload table c, 1 ≤ size ∧
      r.receive (server k (r.query s.cursor size)) = .ok payload ∧ nextCursor payload = .str c ∧
        c ∉ s.seenCursors ∧ r.pagesFrom server (fuel + 1) s =
          (let run := r.pagesFrom server fuel ⟨k + 1, some c, c :: s.seenCursors, size⟩
          ⟨(table, .str c) :: run.pages, run.ending⟩) := by
  obtain ⟨result, hresult, hrequested⟩ :=
    requestPage_spec r server s.pageSize s hsize (Nat.le_succ _)
  rw [pagesFrom, hresult]
  match result, hrequested with
  | .error e, _ => exact .inl ⟨e, rfl⟩
  | .ok (payload, s'), ⟨k, size, hpos, hreceive, hs'⟩ =>
    subst hs'
    cases htable : r.pageTable payload with
    | error e => exact .inl ⟨e, by simp only [htable]⟩
    | ok table =>
      cases hadvance : advance { s with requests := k + 1, pageSize := size }
          (nextCursor payload) with
      | error e =>
        exact .inr (.inr (.inl
          ⟨(table, nextCursor payload), e, by simp only [htable, hadvance]⟩))
      | ok next =>
        cases next with
        | none =>
          have hnull := advance_none hadvance
          exact .inr (.inl ⟨(table, nextCursor payload), by simp only [htable, hadvance], hnull⟩)
        | some s'' =>
          obtain ⟨c, hc, hnew, rfl⟩ := advance_some hadvance
          refine .inr (.inr (.inr ⟨k, size, payload, table, c, hpos, hreceive, hc, hnew, ?_⟩))
          simp only [htable, hadvance]
          rw [hc]

/-- **No cursor twice**, whatever the server answers. -/
theorem pagesFrom_refuses (r : Remote) (server : Server) (fuel : Nat) : ∀ s : Progress,
    1 ≤ s.pageSize → Refuses s.seenCursors (r.pagesFrom server fuel s) := by
  induction fuel with
  | zero => exact fun _ _ => refuses_nil
  | succ fuel ih =>
    intro s hsize
    rcases @pagesFrom_succ r server _ fuel hsize with ⟨e, hrun⟩ |
      ⟨page, hrun, hnull⟩ | ⟨page, e, hrun⟩ | ⟨k, size, payload, table, c, hpos, -, -, hnew, hrun⟩
    · exact hrun ▸ refuses_nil
    · refine hrun ▸ refuses_singleton fun c hc => ?_
      cases hnull.symm.trans hc
    · exact hrun ▸ refuses_singleton fun _ _ => ⟨e, rfl⟩
    · exact hrun ▸ (ih ⟨k + 1, some c, c :: s.seenCursors, size⟩ hpos).cons hnew

/-- The server has no other cursors to offer. -/
def Offers (r : Remote) (server : Server) (cursors : List PyStr) : Prop :=
  ∀ k q payload, r.receive (server k q) = .ok payload → ∀ c, nextCursor payload = .str c → c ∈ cursors

/-- **The outer loop ends** before it has seen all the cursors that there are, and one more. -/
theorem pagesFrom_ends {cursors : List PyStr} (hoffers : Offers r server cursors) (fuel : Nat) :
    ∀ s : Progress, 1 ≤ s.pageSize → s.seenCursors.Nodup → s.seenCursors ⊆ cursors →
      cursors.length < fuel + s.seenCursors.length →
        (r.pagesFrom server fuel s).ending ≠ .running := by
  induction fuel with
  | zero =>
    intro s _ hnodup hsub hfuel
    have := (List.subperm_of_subset hnodup hsub).length_le
    omega
  | succ fuel ih =>
    intro s hsize hnodup hsub hfuel
    rcases @pagesFrom_succ r server _ fuel hsize with ⟨e, hrun⟩ |
      ⟨page, hrun, -⟩ | ⟨page, e, hrun⟩ |
      ⟨k, size, payload, table, c, hpos, hreceive, hc, hnew, hrun⟩
    · rw [hrun]
      exact Ending.noConfusion
    · rw [hrun]
      exact Ending.noConfusion
    · rw [hrun]
      exact Ending.noConfusion
    · rw [hrun]
      refine ih ⟨k + 1, some c, c :: s.seenCursors, size⟩ hpos (List.nodup_cons.mpr ⟨hnew, hnodup⟩)
        (List.cons_subset.mpr ⟨hoffers _ _ _ hreceive c hc, hsub⟩) ?_
      rw [List.length_cons]
      omega

/-! ## The generator -/

theorem one_le_firstPageSize : 1 ≤ r.firstPageSize := by
  have h : (1 : Int) ≤ max 1 (min remotePageSize (r.maxResponseBytes / remoteEstimatedPassageBytes)) :=
    le_max_left _ _
  unfold firstPageSize
  omega

theorem remoteSourcePages_eq (hkey : r.machineKey ≠ []) :
    r.remoteSourcePages server fuel = r.pagesFrom server fuel ⟨0, none, [], r.firstPageSize⟩ :=
  if_neg hkey

/-- **Remote paging is exact.**  Against a server that serves a list under names that are not empty the
    generator yields the list, or raises because a page of at most one passage is too large.  Against
    any server the inner loop ends; a cursor that comes back makes the generator raise; and a server
    that has finitely many cursors cannot keep it going. -/
theorem remote_paging_exact (hkey : r.machineKey ≠ []) (hserves : Serves r server items name)
    (hname : ∀ p, name p ≠ []) (hlists : Lists r items passages) :
    (∀ fuel, items.length < fuel →
      Exact r server name passages 0 (r.remoteSourcePages server fuel)) ∧
    (∀ (server : Server) (s : Progress), 1 ≤ s.pageSize →
      (r.requestPage server s.pageSize s).isSome = true) ∧
    ∀ (server : Server) (fuel : Nat), Refuses [] (r.remoteSourcePages server fuel) ∧
      ∀ cursors, Offers r server cursors → cursors.length < fuel →
        (r.remoteSourcePages server fuel).ending ≠ .running := by
  refine ⟨fun fuel hfuel => ?_, fun server s hsize => ?_, fun server fuel => ⟨?_, ?_⟩⟩
  · rw [remoteSourcePages_eq hkey]
    refine pagesFrom_exact hserves hname hlists fuel 0 _ ?_ (.inr rfl) hfuel
    exact ⟨rfl, fun c hc => absurd hc List.not_mem_nil, one_le_firstPageSize⟩
  · obtain ⟨result, hresult, -⟩ := requestPage_spec r server s.pageSize s hsize (Nat.le_succ _)
    rw [hresult]
    rfl
  · rw [remoteSourcePages_eq hkey]
    exact pagesFrom_refuses r server fuel _ one_le_firstPageSize
  · intro cursors hoffers hfuel
    rw [remoteSourcePages_eq hkey]
    exact pagesFrom_ends hoffers fuel _ one_le_firstPageSize List.nodup_nil (List.nil_subset _) hfuel

/-! ## Two passages -/

def smallRemote (maxResponseBytes : Int) : Remote where
  py := smallPy fun _ => PyStr.lit "1.0"
  tenantId := PyStr.lit "tenant:1"
  sourceKind := PyStr.lit "web_corpus"
  machineKey := PyStr.lit "key"
  maxResponseBytes := maxResponseBytes

/-- A body, of a payload whose text is ASCII. -/
def bodyOf (payload : Json) : List UInt8 :=
  (Json.writeIn JsonReader.compact (fun _ => PyStr.lit "1.0") payload).map fun c =>
    UInt8.ofNat c.val

def smallRow (id : String) : Json :=
  .obj [(PyStr.lit "id", .str (PyStr.lit id)), (PyStr.lit "text", .str (PyStr.lit "x"))]

/-- The first of two pages. -/
def smallPage (next : PyStr) : Json :=
  .obj [(PyStr.lit "passages", .arr [smallRow "a"]), (PyStr.lit "next_cursor", .str next)]

/-- One row at a time; the last page is a bare list. -/
def smallServer (next : PyStr) : Server := fun _ q =>
  .stream [bodyOf (if q.cursor = none then smallPage next else .arr [smallRow "b"])] false

theorem loads_bodyOf (h : JsonReader.Parsed (· = 1) payload)
    (hfits : JsonReader.fits (smallPy fun _ => PyStr.lit "1.0") 0 payload = true)
    (hdecode : PyStr.decodeJson (bodyOf payload) =
      some (Json.writeIn JsonReader.compact (fun _ => PyStr.lit "1.0") payload))
    (maxResponseBytes : Int) :
    Json.loads (smallRemote maxResponseBytes).py (bodyOf payload) = .ok payload := by
  have hread := @JsonReader.read_writeIn (smallPy fun _ => PyStr.lit "1.0") _ _ oneReads _ h
  rw [hfits] at hread
  rw [Json.loads, hdecode]
  exact hread

theorem smallRow_parsed (id : String) (h : JsonReader.Joined (PyStr.lit id)) :
    JsonReader.Parsed (· = 1) (smallRow id) := by
  have hjoined : ∀ text ∈ [PyStr.lit "id", PyStr.lit "text", PyStr.lit "x"],
      JsonReader.Joined text := by
    unfold JsonReader.Joined
    decide
  have hkeys : List.Nodup [PyStr.lit "id", PyStr.lit "text"] := by decide
  refine .obj hkeys (fun f hf => ?_) fun f hf => ?_
  · rcases List.mem_pair.mp hf with rfl | rfl <;> exact hjoined _ (by simp)
  · rcases List.mem_pair.mp hf with rfl | rfl
    · exact .str h
    · exact .str (hjoined _ (by simp))

theorem smallPage_parsed (next : PyStr) (h : JsonReader.Joined next) :
    JsonReader.Parsed (· = 1) (smallPage next) := by
  have hjoined : ∀ text ∈ [PyStr.lit "passages", PyStr.lit "next_cursor", PyStr.lit "a"],
      JsonReader.Joined text := by
    unfold JsonReader.Joined
    decide
  have hkeys : List.Nodup [PyStr.lit "passages", PyStr.lit "next_cursor"] := by decide
  refine .obj hkeys (fun f hf => ?_) fun f hf => ?_
  · rcases List.mem_pair.mp hf with rfl | rfl <;> exact hjoined _ (by simp)
  · rcases List.mem_pair.mp hf with rfl | rfl
    · refine .arr fun item hitem => ?_
      rw [List.mem_singleton.mp hitem]
      exact smallRow_parsed "a" (hjoined _ (by simp))
    · exact .str h

/-- Positions are named by strings of digits. -/
def smallName (next : PyStr) (p : Nat) : PyStr := if p = 1 then next else PyStr.lit "0"

theorem serves_small {next : PyStr} {maxResponseBytes : Int} (hnext : next ≠ PyStr.lit "0")
    (hjoined : JsonReader.Joined next)
    (hdecode : PyStr.decodeJson (bodyOf (smallPage next)) =
      some (Json.writeIn JsonReader.compact (fun _ => PyStr.lit "1.0") (smallPage next))) :
    Serves (smallRemote maxResponseBytes) (smallServer next) [smallRow "a", smallRow "b"]
      (smallName next) where
  distinct p hp q hq heq := by
    have hp' : p < 2 := hp
    have hq' : q < 2 := hq
    unfold smallName at heq
    split at heq <;> split at heq
    · omega
    · exact absurd heq hnext
    · exact absurd heq.symm hnext
    · omega
  page k p limit hp hlimit := by
    have hp' : p = 0 ∨ p = 1 := by
      rcases hp with hp | hp
      · have : p < 2 := hp
        omega
      · exact .inl hp
    rcases hp' with rfl | rfl
    · refine ⟨1, _, smallPage next, rfl, ?_, fun _ => le_rfl, hlimit, by decide, rfl, rfl⟩
      rw [List.flatten_singleton]
      exact loads_bodyOf (smallPage_parsed next hjoined) rfl hdecode _
    · refine ⟨1, _, .arr [smallRow "b"], rfl, ?_, fun _ => le_rfl, hlimit, by decide, rfl, rfl⟩
      rw [List.flatten_singleton]
      refine loads_bodyOf (.arr fun item hitem => ?_) rfl (by decide +kernel) _
      rw [List.mem_singleton.mp hitem]
      exact smallRow_parsed "b" (by unfold JsonReader.Joined; decide)

def smallPassages : List Passage :=
  [⟨PyStr.lit "a", PyStr.lit "x", none⟩, ⟨PyStr.lit "b", PyStr.lit "x", none⟩]

theorem lists_small (maxResponseBytes : Int) :
    Lists (smallRemote maxResponseBytes) [smallRow "a", smallRow "b"] smallPassages :=
  ⟨rfl, by decide +kernel⟩

/-- Two pages of one passage each. -/
theorem remote_paging_exact_two : Exact (smallRemote 1000) (smallServer (PyStr.lit "1"))
    (smallName (PyStr.lit "1")) smallPassages 0
      ((smallRemote 1000).remoteSourcePages (smallServer (PyStr.lit "1")) 3) :=
  (remote_paging_exact (by decide) (serves_small (by decide) (by unfold JsonReader.Joined; decide)
    (by decide +kernel)) (fun p => by unfold smallName; split <;> decide) (lists_small 1000)).1 3
      (by decide)

/-- What the server may also do: name a position by the empty string, or answer for an empty list with
    a body that is too large.  Either way the generator raises, and no page of one passage was too
    large. -/
theorem remote_paging_refused :
    Serves (smallRemote 1000) (smallServer []) [smallRow "a", smallRow "b"] (smallName []) ∧
      Lists (smallRemote 1000) [smallRow "a", smallRow "b"] smallPassages ∧
        ((smallRemote 1000).remoteSourcePages (smallServer []) 3).ending =
          .raised (.planning "passage listing next_cursor must be a non-empty string") ∧
    Serves (smallRemote 1) (fun _ _ => .stream [bodyOf (.arr [])] false) [] (smallName []) ∧
      Lists (smallRemote 1) [] [] ∧
        ((smallRemote 1).remoteSourcePages (fun _ _ => .stream [bodyOf (.arr [])] false) 1).ending =
          .raised .tooLarge := by
  refine ⟨serves_small (by decide) (by unfold JsonReader.Joined; decide) (by decide +kernel),
    lists_small 1000, by decide +kernel, ⟨fun p hp => absurd hp (Nat.not_lt_zero p), ?_⟩,
    ⟨rfl, rfl⟩, by decide +kernel⟩
  intro k p limit hp _
  obtain rfl : p = 0 := hp.resolve_left (Nat.not_lt_zero p)
  refine ⟨0, _, .arr [], rfl, ?_, fun h => absurd h (Nat.lt_irrefl 0), Nat.zero_le _, le_rfl, rfl, rfl⟩
  rw [List.flatten_singleton]
  exact loads_bodyOf (.arr fun _ h => absurd h List.not_mem_nil) rfl (by decide +kernel) 1

end Remote

end ControlPlane.Extraction
