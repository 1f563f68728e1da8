/-
  THE LAYOUT CACHE, `apps/layout/cache.py` and `compute_layout`: is it transparent?

  Layouts are kept in Valkey and, when Valkey cannot be reached, in the memory of the process, under
  a key of the tenant and the digest.  Clocks, locks, outages and the worker's process are the
  WEATHER of a call, and Valkey may drop what it holds at any time.

  1. `Owned`: what stands under a key is the response to some request with the digest of that key,
     stored by a call of the tenant of that key.  Every read, write, eviction and restart keeps it.
  2. `cacheKey_injective`: the key tells tenant and digest apart, since a digest has no colon.
  3. `cache_transparent`: over every run, what is returned is what would have been computed, and what
     is read was stored for the same tenant.
-/
import ControlPlane.Fallible
import ControlPlane.Layout.Digest
import ControlPlane.Table

namespace ControlPlane.Layout

open Fallible (bind_ok)

/-- `cache_key`. -/
def cacheKey (tenantSlug digestHex : PyStr) : PyStr :=
  PyStr.lit "t:" ++ tenantSlug ++ PyStr.lit ":layout:" ++ digestHex

/-- A value of the stores.  The code stores the bytes; whose call it was is kept beside them. -/
structure Stored where
  tenant : PyStr
  bytes : List UInt8
  deriving DecidableEq

/-- `_memory`, the least recently used entry first. -/
abbrev Memory := List (PyStr × ℚ × Stored)

structure Caches (Process : Type) where
  valkey : List (PyStr × Stored)
  memory : Process → Memory

structure Settings where
  /-- `LAYOUT_CACHE_TTL_SECONDS`. -/
  ttl : Int
  /-- `LAYOUT_MEMORY_CACHE_MAX_ENTRIES`. -/
  maxEntries : Int

/-! ## Weather -/

/-- An attempt to reach Valkey. -/
structure Connection where
  /-- A URL is configured. -/
  configured : Bool
  now : ℚ
  /-- The client is imported and answers the ping. -/
  pings : Bool

/-- `_redis_client`, up to the client itself. -/
def redisClient (c : Connection) (deadline : ℚ) : Bool :=
  c.configured && decide (0 < deadline - c.now) && c.pings

/-- An attempt to lock the memory. -/
structure Lock where
  now : ℚ
  acquired : Bool

/-- `_acquire_memory_lock`. -/
def acquireMemoryLock (l : Lock) (deadline : ℚ) : Bool :=
  decide (0 < deadline - l.now) && l.acquired

structure ReadWeather where
  connection : Connection
  /-- `client.get` raises. -/
  fails : Bool
  now : ℚ
  lock : Lock

/-- What `client.set` does. -/
inductive SetReply where
  | stores
  /-- It raises, and the value may have been stored all the same. -/
  | raises (stored : Bool)

structure WriteWeather where
  begun : ℚ
  connection : Connection
  reply : SetReply
  lock : Lock
  now : ℚ

/-- The readings of the clock between the steps of a call, and what happens to it. -/
structure Weather where
  begun : ℚ
  entered : ℚ
  prepared : ℚ
  read : ReadWeather
  looked : ℚ
  waiting : ℚ
  /-- What stops the process of the worker: its deadline, its output, the operating system. -/
  worker : Option LayoutError
  drawn : ℚ
  encoded : ℚ
  write : WriteWeather
  stored : ℚ

/-! ## The cache -/

variable {Process : Type}

/-- The memory without a key. -/
def Memory.pop (memory : Memory) (key : PyStr) : Memory := memory.filter fun e => e.1 ≠ key

/-- `get_cached_response`, in memory. -/
def Memory.read (memory : Memory) (key : PyStr) (now : ℚ) : Memory × Option Stored :=
  match memory.lookup key with
  | none => (memory, none)
  | some (expiresAt, value) =>
      if expiresAt ≤ now then (memory.pop key, none)
      else (memory.pop key ++ [(key, expiresAt, value)], some value)

/-- `set_cached_response`, in memory. -/
def Memory.write (memory : Memory) (key : PyStr) (expiresAt : ℚ) (value : Stored)
    (maxEntries : Int) : Memory :=
  let entries := memory.pop key ++ [(key, expiresAt, value)]
  entries.drop (entries.length - (max 1 maxEntries).toNat)

/-- `get_cached_response`. -/
def getCachedResponse [DecidableEq Process] (p : Process) (tenantSlug digestHex : PyStr) (deadline : ℚ) (w : ReadWeather)
    (s : Caches Process) : Caches Process × Option Stored :=
  let key := cacheKey tenantSlug digestHex
  if redisClient w.connection deadline && !w.fails then (s, s.valkey.lookup key)
  else if acquireMemoryLock w.lock deadline then
    let (memory, value) := (s.memory p).read key w.now
    ({ s with memory := Function.update s.memory p memory }, value)
  else (s, none)

/-- The value under its key in Valkey. -/
def setValkey (key : PyStr) (value : Stored) (s : Caches Process) : Caches Process :=
  { s with valkey := (key, value) :: s.valkey.filter fun e => e.1 ≠ key }

/-- The value under its key in the memory of the process, when that can be locked. -/
def setMemory [DecidableEq Process] (settings : Settings) (p : Process) (key : PyStr) (value : Stored) (deadline : ℚ)
    (w : WriteWeather) (s : Caches Process) : Caches Process :=
  if acquireMemoryLock w.lock deadline then
    let memory := (s.memory p).write key (w.now + settings.ttl) value settings.maxEntries
    { s with memory := Function.update s.memory p memory }
  else s

/-- `set_cached_response`; it leaves Valkey alone in the last 50 milliseconds. -/
def setCachedResponse [DecidableEq Process] (settings : Settings) (p : Process) (tenantSlug digestHex : PyStr)
    (bytes : List UInt8) (deadline : ℚ) (w : WriteWeather) (s : Caches Process) : Caches Process :=
  let key := cacheKey tenantSlug digestHex
  let value : Stored := ⟨tenantSlug, bytes⟩
  if deadline - w.begun < 1 / 20 then s
  else if redisClient w.connection deadline then
    match w.reply with
    | .stores => setValkey key value s
    | .raises true => setMemory settings p key value deadline w (setValkey key value s)
    | .raises false => setMemory settings p key value deadline w s
  else setMemory settings p key value deadline w s

/-! ## A call -/

/-- `_remaining_budget`. -/
def remainingBudget (deadline now : ℚ) : Except LayoutError Unit :=
  if deadline - now ≤ 0 then
    .error (.timeout "layout request exceeded its whole-request deadline")
  else .ok ()

/-- What a call returns, and the tenant for whom it was stored if it comes out of the cache. -/
structure Answer where
  bytes : List UInt8
  storedFor : Option PyStr

/-- The process of the worker ends, or something stops it. -/
def workerEnds : Option LayoutError → Except LayoutError Unit
  | some e => .error e
  | none => .ok ()

/-- The response as bytes. -/
def encodeResponse (r : Runtime) (q : Prepared) (positions : List (PyStr × Position)) :
    Except LayoutError (List UInt8) :=
  match Json.canonicalJson r.repr (response r q positions) with
  | none => .error .unicodeEncodeError
  | some encoded => enforceResponseBudget encoded

/-- `compute_layout` behind a miss, up to the write. -/
def computeMiss (r : Runtime) (deadline : ℚ) (w : Weather) (q : Prepared) :
    Except LayoutError (List UInt8) := do
  remainingBudget deadline w.waiting
  workerEnds w.worker
  let positions ← executeWorker r q.dot q.engine q.nodeIds
  remainingBudget deadline w.drawn
  let encoded ← encodeResponse r q positions
  remainingBudget deadline w.encoded
  return encoded

/-- `compute_layout`, from the first look into the cache. -/
def computePrepared [DecidableEq Process] (r : Runtime) (settings : Settings) (p : Process)
    (tenantSlug : PyStr) (deadline : ℚ) (w : Weather) (q : Prepared) (s : Caches Process) :
    Caches Process × Except LayoutError Answer :=
  let (s, cached) := getCachedResponse p tenantSlug q.digestHex deadline w.read s
  match remainingBudget deadline w.looked with
  | .error e => (s, .error e)
  | .ok _ =>
    match cached with
    | some stored =>
        (s, (enforceResponseBudget stored.bytes).map fun bytes => ⟨bytes, some stored.tenant⟩)
    | none =>
      match computeMiss r deadline w q with
      | .error e => (s, .error e)
      | .ok encoded =>
          (setCachedResponse settings p tenantSlug q.digestHex encoded deadline w.write s,
            (remainingBudget deadline w.stored).map fun _ => ⟨encoded, none⟩)

/-- What comes before the first look into the cache. -/
def prepareInTime (r : Runtime) (body : LayoutRequest) (deadline : ℚ) (w : Weather) :
    Except LayoutError Prepared := do
  remainingBudget deadline w.entered
  let q ← prepare r body
  remainingBudget deadline w.prepared
  return q

/-- `compute_layout`. -/
def computeLayout [DecidableEq Process] (r : Runtime) (settings : Settings) (p : Process)
    (body : LayoutRequest) (tenantSlug : PyStr) (deadline : Option ℚ) (w : Weather) (s : Caches Process) :
    Caches Process × Except LayoutError Answer :=
  let deadline := deadline.getD (w.begun + 10)
  match prepareInTime r body deadline w with
  | .error e => (s, .error e)
  | .ok q => computePrepared r settings p tenantSlug deadline w q s

/-! ## Runs -/

inductive Event (Process : Type) where
  | call (p : Process) (tenantSlug : PyStr) (body : LayoutRequest) (deadline : Option ℚ)
      (w : Weather)
  /-- Valkey keeps some keys only: entries expire, are evicted, or are lost with it. -/
  | evict (kept : PyStr → Bool)
  /-- A process starts with an empty memory. -/
  | restart (p : Process)

/-- A call that returned. -/
structure Served (Process : Type) where
  process : Process
  tenant : PyStr
  body : LayoutRequest
  answer : Answer

structure State (Process : Type) where
  caches : Caches Process
  log : List (Served Process)

section Run

variable [DecidableEq Process] (fleet : Fleet Process) (settings : Settings)

def step (s : State Process) : Event Process → State Process
  | .call p tenantSlug body deadline w =>
      let (caches, result) :=
        computeLayout (fleet.runtime p) settings p body tenantSlug deadline w s.caches
      match result with
      | .ok answer => ⟨caches, s.log ++ [⟨p, tenantSlug, body, answer⟩]⟩
      | .error _ => ⟨caches, s.log⟩
  | .evict kept =>
      { s with caches := { s.caches with valkey := s.caches.valkey.filter fun e => kept e.1 } }
  | .restart p =>
      { s with caches := { s.caches with memory := Function.update s.caches.memory p [] } }

/-- The state after some events, from empty caches on. -/
def run (events : List (Event Process)) : State Process :=
  events.foldl (step fleet settings) ⟨⟨[], fun _ => []⟩, []⟩

end Run

/-! ## Keys -/

/-- The digest has no colon. -/
theorem cacheKey_injective {slug slug' digestHex digestHex' : PyStr}
    (hdigest : 0x3A ∉ digestHex) (hdigest' : 0x3A ∉ digestHex')
    (h : cacheKey slug digestHex = cacheKey slug' digestHex') :
    slug = slug' ∧ digestHex = digestHex' := by
  have hkey : ∀ slug digestHex, (cacheKey slug digestHex).reverse = digestHex.reverse ++
      0x3A :: (PyStr.lit "t:" ++ slug ++ PyStr.lit ":layout").reverse := by
    intro slug digestHex
    have hcolon : PyStr.lit ":layout:" = PyStr.lit ":layout" ++ [0x3A] := by decide
    rw [cacheKey, hcolon]
    simp only [List.reverse_append, List.append_assoc]
    rfl
  have hreverse := congrArg List.reverse h
  rw [hkey, hkey] at hreverse
  obtain ⟨hdigests, hslugs⟩ := Readable.cut_unique (by rwa [List.mem_reverse])
    (by rwa [List.mem_reverse]) hreverse
  refine ⟨?_, List.reverse_injective hdigests⟩
  exact List.append_cancel_left (List.append_cancel_right (List.reverse_injective hslugs))

/-! ## What the stores hold -/

variable {fleet : Fleet Process} {settings : Settings}

/-- The response to a request with the digest of the key, for the tenant of the key. -/
def Owned (fleet : Fleet Process) (key : PyStr) (value : Stored) : Prop :=
  ∃ p body q, prepare (fleet.runtime p) body = .ok q ∧ key = cacheKey value.tenant q.digestHex ∧
    respond (fleet.runtime p) q = .ok value.bytes

structure Sound (fleet : Fleet Process) (s : Caches Process) : Prop where
  valkey : ∀ e ∈ s.valkey, Owned fleet e.1 e.2
  memory : ∀ p, ∀ e ∈ s.memory p, Owned fleet e.1 e.2.2

/-- A memory that is put in the place of another is looked at alone. -/
theorem Sound.update [DecidableEq Process] {s : Caches Process} (h : Sound fleet s) {p : Process} {memory : Memory}
    (hmemory : ∀ e ∈ memory, Owned fleet e.1 e.2.2) :
    Sound fleet { s with memory := Function.update s.memory p memory } := by
  refine ⟨h.valkey, fun other e he => ?_⟩
  by_cases hother : other = p
  · rw [hother] at he
    simp only [Function.update_self] at he
    exact hmemory e he
  · simp only [Function.update_of_ne hother] at he
    exact h.memory other e he

theorem pop_owned {memory : Memory} (h : ∀ e ∈ memory, Owned fleet e.1 e.2.2) (key : PyStr) :
    ∀ e ∈ memory.pop key, Owned fleet e.1 e.2.2 := fun e he => h e (List.mem_filter.mp he).1

theorem read_owned {memory : Memory} (h : ∀ e ∈ memory, Owned fleet e.1 e.2.2) (key : PyStr)
    (now : ℚ) : (∀ e ∈ (memory.read key now).1, Owned fleet e.1 e.2.2) ∧
      ∀ value ∈ (memory.read key now).2, Owned fleet key value := by
  unfold Memory.read
  split
  · exact ⟨h, fun _ hvalue => absurd hvalue (by simp)⟩
  · rename_i expiresAt value hlookup
    have hvalue := h _ (Table.mem_of_lookup hlookup)
    split
    · exact ⟨pop_owned h key, fun _ hvalue => absurd hvalue (by simp)⟩
    · refine ⟨?_, fun found hfound => ?_⟩
      · rw [List.forall_mem_append, List.forall_mem_singleton]
        exact ⟨pop_owned h key, hvalue⟩
      · rw [← Option.some.inj hfound]
        exact hvalue

theorem write_owned {memory : Memory} (h : ∀ e ∈ memory, Owned fleet e.1 e.2.2) {key : PyStr}
    {value : Stored} (hvalue : Owned fleet key value) (expiresAt : ℚ) (maxEntries : Int) :
    ∀ e ∈ memory.write key expiresAt value maxEntries, Owned fleet e.1 e.2.2 := by
  have hentries : ∀ e ∈ memory.pop key ++ [(key, expiresAt, value)], Owned fleet e.1 e.2.2 := by
    rw [List.forall_mem_append, List.forall_mem_singleton]
    exact ⟨pop_owned h key, hvalue⟩
  exact fun e he => hentries e (List.mem_of_mem_drop he)

section Operations

variable [DecidableEq Process] {s : Caches Process} (h : Sound fleet s) {p : Process}
  {tenantSlug digestHex : PyStr} {deadline : ℚ}

include h

/-- What is found stands under the key. -/
theorem getCachedResponse_sound (w : ReadWeather) :
    Sound fleet (getCachedResponse p tenantSlug digestHex deadline w s).1 ∧
      ∀ value ∈ (getCachedResponse p tenantSlug digestHex deadline w s).2,
        Owned fleet (cacheKey tenantSlug digestHex) value := by
  unfold getCachedResponse
  dsimp only
  split
  · exact ⟨h, fun value hvalue => h.valkey _ (Table.mem_of_lookup hvalue)⟩
  · split
    · obtain ⟨hmemory, hvalue⟩ := read_owned (h.memory p) (cacheKey tenantSlug digestHex) w.now
      exact ⟨h.update hmemory, hvalue⟩
    · exact ⟨h, fun _ hvalue => absurd hvalue (by simp)⟩

variable {key : PyStr} {value : Stored} (hvalue : Owned fleet key value)
include hvalue

omit [DecidableEq Process] in
theorem setValkey_sound : Sound fleet (setValkey key value s) := by
  refine ⟨?_, h.memory⟩
  rw [setValkey, List.forall_mem_cons]
  exact ⟨hvalue, fun e he => h.valkey e (List.mem_filter.mp he).1⟩

theorem setMemory_sound (w : WriteWeather) :
    Sound fleet (setMemory settings p key value deadline w s) := by
  unfold setMemory
  split
  · exact h.update (write_owned (h.memory p) hvalue _ _)
  · exact h

omit hvalue in
theorem setCachedResponse_sound {bytes : List UInt8}
    (hbytes : Owned fleet (cacheKey tenantSlug digestHex) ⟨tenantSlug, bytes⟩) (w : WriteWeather) :
    Sound fleet (setCachedResponse settings p tenantSlug digestHex bytes deadline w s) := by
  unfold setCachedResponse
  dsimp only
  split
  · exact h
  split
  · split
    · exact setValkey_sound h hbytes
    · exact setMemory_sound (setValkey_sound h hbytes) hbytes w
    · exact setMemory_sound h hbytes w
  · exact setMemory_sound h hbytes w

end Operations

/-! ## Calls -/

/-- A miss computes what is computed without a cache. -/
theorem computeMiss_ok {r : Runtime} {deadline : ℚ} {w : Weather} {q : Prepared}
    {encoded : List UInt8} (h : computeMiss r deadline w q = .ok encoded) :
    respond r q = .ok encoded := by
  obtain ⟨-, -, h⟩ := bind_ok.mp h
  obtain ⟨-, -, h⟩ := bind_ok.mp h
  obtain ⟨positions, hpositions, h⟩ := bind_ok.mp h
  obtain ⟨-, -, h⟩ := bind_ok.mp h
  obtain ⟨bytes, hbytes, h⟩ := bind_ok.mp h
  obtain ⟨-, -, h⟩ := bind_ok.mp h
  rw [← Except.ok.inj h]
  exact bind_ok.mpr ⟨positions, hpositions, hbytes⟩

theorem prepareInTime_ok {r : Runtime} {body : LayoutRequest} {deadline : ℚ} {w : Weather}
    {q : Prepared} (h : prepareInTime r body deadline w = .ok q) : prepare r body = .ok q := by
  obtain ⟨-, -, h⟩ := bind_ok.mp h
  obtain ⟨prepared, hprepared, h⟩ := bind_ok.mp h
  obtain ⟨-, -, h⟩ := bind_ok.mp h
  rw [← Except.ok.inj h]
  exact hprepared

theorem enforceResponseBudget_ok {encoded bytes : List UInt8}
    (h : enforceResponseBudget encoded = .ok bytes) : encoded = bytes := by
  unfold enforceResponseBudget at h
  split at h
  · cases h
  · exact Except.ok.inj h

section Calls

variable (hhash : Function.Injective fleet.hexdigest)
  (hhex : ∀ payload, (fleet.hexdigest payload).all PyStr.isHexDigit = true)
  {s : Caches Process} (h : Sound fleet s) {p : Process} {body : LayoutRequest} {q : Prepared}
  {tenantSlug : PyStr} {deadline : ℚ}

include hhex in
theorem no_colon (hq : prepare (fleet.runtime p) body = .ok q) : 0x3A ∉ q.digestHex := by
  obtain ⟨payload, -, hhexdigest⟩ := digestInput_ok (prepare_ok hq).digest
  rw [fleet.hexdigest_eq] at hhexdigest
  intro hcolon
  rw [← hhexdigest] at hcolon
  exact absurd (List.all_eq_true.mp (hhex payload) _ hcolon) (by decide)

include hhash hhex in
/-- What stands under the key of a request was stored for its tenant, and is its response. -/
theorem Owned.answers (hq : prepare (fleet.runtime p) body = .ok q) {value : Stored}
    (hvalue : Owned fleet (cacheKey tenantSlug q.digestHex) value) :
    value.tenant = tenantSlug ∧ respond (fleet.runtime p) q = .ok value.bytes := by
  obtain ⟨p', body', q', hq', hkey, hrespond⟩ := hvalue
  obtain ⟨htenant, hdigest⟩ := cacheKey_injective (no_colon hhex hq) (no_colon hhex hq') hkey
  exact ⟨htenant.symm, (respond_eq_of_digest hhash hq hq' hdigest).trans hrespond⟩

include hhash hhex h in
theorem computePrepared_sound [DecidableEq Process] (hq : prepare (fleet.runtime p) body = .ok q) (w : Weather) :
    Sound fleet (computePrepared (fleet.runtime p) settings p tenantSlug deadline w q s).1 ∧
      ∀ answer, (computePrepared (fleet.runtime p) settings p tenantSlug deadline w q s).2 =
          .ok answer →
        respond (fleet.runtime p) q = .ok answer.bytes ∧
          ∀ owner ∈ answer.storedFor, owner = tenantSlug := by
  obtain ⟨hsound, hfound⟩ := @getCachedResponse_sound _ _ _ _ h p tenantSlug
    q.digestHex deadline w.read
  unfold computePrepared
  dsimp only
  generalize getCachedResponse p tenantSlug q.digestHex deadline w.read s = looked at hsound hfound ⊢
  obtain ⟨caches, cached⟩ := looked
  dsimp only
  cases remainingBudget deadline w.looked with
  | error e => exact ⟨hsound, fun _ hanswer => nomatch hanswer⟩
  | ok _ =>
    cases cached with
    | some value =>
      obtain ⟨htenant, hrespond⟩ := Owned.answers hhash hhex hq (hfound value rfl)
      refine ⟨hsound, fun answer hanswer => ?_⟩
      dsimp only at hanswer
      cases hbudget : enforceResponseBudget value.bytes with
      | error e => rw [hbudget] at hanswer; cases hanswer
      | ok bytes =>
        rw [hbudget] at hanswer
        cases hanswer
        rw [enforceResponseBudget_ok hbudget] at hrespond
        refine ⟨hrespond, fun owner howner => ?_⟩
        rw [← Option.some.inj howner, htenant]
    | none =>
      cases hmiss : computeMiss (fleet.runtime p) deadline w q with
      | error e => exact ⟨hsound, fun _ hanswer => nomatch hanswer⟩
      | ok encoded =>
        have hrespond := computeMiss_ok hmiss
        refine ⟨setCachedResponse_sound hsound ⟨p, body, q, hq, rfl, hrespond⟩ w.write,
          fun answer hanswer => ?_⟩
        dsimp only at hanswer
        cases hbudget : remainingBudget deadline w.stored with
        | error e => rw [hbudget] at hanswer; cases hanswer
        | ok _ =>
          rw [hbudget] at hanswer
          cases hanswer
          exact ⟨hrespond, fun owner howner => nomatch howner⟩

include hhash hhex h in
/-- **One call**: the stores stay sound, and an answer is the answer of the uncached computation. -/
theorem computeLayout_sound [DecidableEq Process] (w : Weather) (deadline : Option ℚ) :
    Sound fleet (computeLayout (fleet.runtime p) settings p body tenantSlug deadline w s).1 ∧
      ∀ answer, (computeLayout (fleet.runtime p) settings p body tenantSlug deadline w s).2 =
          .ok answer →
        uncached (fleet.runtime p) body = .ok answer.bytes ∧
          ∀ owner ∈ answer.storedFor, owner = tenantSlug := by
  unfold computeLayout
  dsimp only
  cases hprepared : prepareInTime (fleet.runtime p) body (deadline.getD (w.begun + 10)) w with
  | error e => exact ⟨h, fun _ hanswer => nomatch hanswer⟩
  | ok q =>
    have hq := prepareInTime_ok hprepared
    have hlayout : uncached (fleet.runtime p) body = respond (fleet.runtime p) q := by
      rw [uncached, hq]
      rfl
    rw [hlayout]
    exact computePrepared_sound hhash hhex h hq w

end Calls

/-! ## Runs -/

/-- What was returned is what would have been computed, and what was read was the tenant's own. -/
def Served.Transparent (fleet : Fleet Process) (served : Served Process) : Prop :=
  uncached (fleet.runtime served.process) served.body = .ok served.answer.bytes ∧
    ∀ owner ∈ served.answer.storedFor, owner = served.tenant

section Runs

variable [DecidableEq Process] (hhash : Function.Injective fleet.hexdigest)
  (hhex : ∀ payload, (fleet.hexdigest payload).all PyStr.isHexDigit = true)
include hhash hhex

theorem step_transparent {s : State Process} (hsound : Sound fleet s.caches)
    (hlog : ∀ served ∈ s.log, served.Transparent fleet) (event : Event Process) :
    Sound fleet (step fleet settings s event).caches ∧
      ∀ served ∈ (step fleet settings s event).log, served.Transparent fleet := by
  cases event with
  | call p tenantSlug body deadline w =>
    obtain ⟨hcaches, hanswer⟩ := @computeLayout_sound _ _ settings hhash hhex _ hsound
      p body tenantSlug _ w deadline
    unfold step
    dsimp only
    generalize computeLayout (fleet.runtime p) settings p body tenantSlug deadline w s.caches =
      called at hcaches hanswer ⊢
    obtain ⟨caches, result⟩ := called
    cases result with
    | error e => exact ⟨hcaches, hlog⟩
    | ok answer =>
      refine ⟨hcaches, ?_⟩
      rw [List.forall_mem_append, List.forall_mem_singleton]
      exact ⟨hlog, hanswer answer rfl⟩
  | evict kept =>
    exact ⟨⟨fun e he => hsound.valkey e (List.mem_filter.mp he).1, hsound.memory⟩, hlog⟩
  | restart p => exact ⟨hsound.update fun _ he => absurd he List.not_mem_nil, hlog⟩

/-- **The cache is transparent.**  Whatever calls of whatever tenants, evictions, outages and restarts
    came before, a call that returns returns the bytes of the uncached computation for its own
    request, and what it takes out of a cache was stored for its own tenant. -/
theorem cache_transparent (settings : Settings) (events : List (Event Process)) :
    ∀ served ∈ (run fleet settings events).log,
      uncached (fleet.runtime served.process) served.body = .ok served.answer.bytes ∧
        ∀ owner ∈ served.answer.storedFor, owner = served.tenant := by
  suffices hfold : ∀ s : State Process, Sound fleet s.caches →
      (∀ served ∈ s.log, served.Transparent fleet) →
      ∀ served ∈ (events.foldl (step fleet settings) s).log, served.Transparent fleet by
    refine hfold _ ⟨?_, ?_⟩ ?_
    · exact fun _ he => absurd he List.not_mem_nil
    · exact fun _ _ he => absurd he List.not_mem_nil
    · exact fun _ hserved => absurd hserved List.not_mem_nil
  induction events with
  | nil => exact fun _ _ hlog => hlog
  | cons event events ih =>
    intro s hsound hlog
    obtain ⟨hnext, hlog'⟩ := @step_transparent _ _ settings _ hhash hhex _ hsound hlog event
    exact ih _ hnext hlog'

end Runs

/-! ## A small fleet -/

/-- One process, and a digest that is the payload in hexadecimal. -/
def smallFleet : Fleet Unit where
  runtime := fun _ => smallRuntime
  hexdigest := hexOf
  repr := smallRuntime.repr
  hexdigest_eq := fun _ => rfl
  repr_eq := fun _ => rfl
  graphviz_eq := fun _ _ _ => rfl

theorem hexOf_injective : Function.Injective hexOf := by
  have hdigit : ∀ m n : Nat, m < 16 → n < 16 → Json.hexDigit m = Json.hexDigit n → m = n := by
    intro m n hm hn h
    have hvalue := Json.hexValue_hexDigit hm
    rw [h, Json.hexValue_hexDigit hn] at hvalue
    exact (Option.some.inj hvalue).symm
  have hread : ∀ (a b : UInt8) (r s : PyStr), True → True →
      [Json.hexDigit (a.toNat / 16), Json.hexDigit (a.toNat % 16)] ++ r =
        [Json.hexDigit (b.toNat / 16), Json.hexDigit (b.toNat % 16)] ++ s → a = b ∧ r = s := by
    intro a b r s _ _ h
    have ha := a.toNat_lt
    have hb := b.toNat_lt
    obtain ⟨hhigh, htail⟩ := List.cons.inj h
    obtain ⟨hlow, hrest⟩ := List.cons.inj htail
    have hhigh := hdigit _ _ (by omega) (by omega) hhigh
    have hlow := hdigit _ _ (by omega) (by omega) hlow
    exact ⟨UInt8.toNat_inj.mp (by omega), hrest⟩
  exact fun a b h => Readable.flatMap_injective hread (fun _ => List.cons_ne_nil _ _)
    (fun _ _ => trivial) (fun _ _ => trivial) h

theorem hexOf_hex (payload : List UInt8) : (hexOf payload).all PyStr.isHexDigit = true := by
  have hdigit : ∀ k : Fin 16, PyStr.isHexDigit (Json.hexDigit k) = true := by decide
  rw [List.all_eq_true]
  intro c hc
  obtain ⟨b, -, hmem⟩ := List.mem_flatMap.mp hc
  have hb := b.toNat_lt
  rcases List.mem_cons.mp hmem with heq | hlow
  · rw [heq]
    exact hdigit ⟨b.toNat / 16, by omega⟩
  · rw [List.mem_singleton.mp hlow]
    exact hdigit ⟨b.toNat % 16, by omega⟩

/-- A call that takes no time; `up` says whether Valkey can be reached. -/
def weather (up : Bool) : Weather where
  begun := 0
  entered := 0
  prepared := 0
  read := ⟨⟨true, 0, up⟩, false, 0, ⟨0, true⟩⟩
  looked := 0
  waiting := 0
  worker := none
  drawn := 0
  encoded := 0
  write := ⟨0, ⟨true, 0, up⟩, .stores, ⟨0, true⟩, 0⟩
  stored := 0

def smallCall (tenant : String) (up : Bool) : Event Unit :=
  .call () (PyStr.lit tenant) ⟨none, [smallNode "a" "node"], [], {}⟩ none (weather up)

/-- Two tenants and an outage: a tenant reads what was stored for it, in Valkey and in memory. -/
theorem cache_transparent_outage :
    ((run smallFleet ⟨86400, 1024⟩ [smallCall "alpha" true, smallCall "bravo" true,
        smallCall "alpha" true, smallCall "alpha" false, smallCall "alpha" false]).log.map
          fun served => served.answer.storedFor) =
      [none, none, some (PyStr.lit "alpha"), none, some (PyStr.lit "alpha")] ∧
    ∀ served ∈ (run smallFleet ⟨86400, 1024⟩ [smallCall "alpha" true, smallCall "bravo" true,
        smallCall "alpha" true, smallCall "alpha" false, smallCall "alpha" false]).log,
      uncached smallRuntime served.body = .ok served.answer.bytes ∧
        ∀ owner ∈ served.answer.storedFor, owner = served.tenant :=
  ⟨by decide +kernel, cache_transparent hexOf_injective hexOf_hex _ _⟩

end ControlPlane.Layout
