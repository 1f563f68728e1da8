/-
  THE MEMORY OF THE LAYOUT CACHE while Valkey is away: a bounded store, the least recently used entry
  of which goes first, `get_cached_response` and `set_cached_response` without a deadline.

  The LOG of a run has the newest call in front.  `lastSet` is what a key was set to at last, and the
  keys USED SINCE a key was used are those that were set, or read with success, in the calls before
  (in the log) the one that used it.

  1. `Kept`: keys are distinct, and no more than the limit; what is there is what was set last, with
     its expiry; and a key that was ever set still stands in front of the keys used since only, or it
     has expired, or as many other keys as the limit were used since.
  2. `kept_step`: a call keeps this.  Expired entries stay in their places until they are read.
  3. `fallback_lru`: what the next call does after any run.
-/
import ControlPlane.Layout.Cache
import ControlPlane.Recency

namespace ControlPlane.Layout.Fallback

open Recency (Behind Crowded bump evict)

inductive Operation where
  /-- `fails`: `client.get` raises. -/
  | get (tenantSlug digestHex : PyStr) (fails : Bool)
  | set (tenantSlug digestHex : PyStr) (bytes : List UInt8) (reply : SetReply)

/-- A call, and the clock when it comes to the memory. -/
structure Call where
  connection : Connection
  operation : Operation
  now : ℚ

/-- What a process reaches. -/
structure Stores where
  valkey : List (PyStr × Stored)
  memory : Memory

/-! ## The cache without a deadline -/

/-- `_redis_client`, up to the client itself. -/
def redisClient (c : Connection) : Bool := c.configured && c.pings

/-- `get_cached_response`. -/
def getCachedResponse (c : Connection) (tenantSlug digestHex : PyStr) (fails : Bool) (now : ℚ)
    (s : Stores) : Stores × Option Stored :=
  let key := cacheKey tenantSlug digestHex
  if redisClient c && !fails then (s, s.valkey.lookup key)
  else
    let (memory, value) := s.memory.read key now
    ({ s with memory := memory }, value)

/-- The value under its key in Valkey. -/
def setValkey (key : PyStr) (value : Stored) (s : Stores) : Stores :=
  { s with valkey := (key, value) :: s.valkey.filter fun e => e.1 ≠ key }

/-- The value under its key in memory. -/
def setMemory (settings : Settings) (key : PyStr) (value : Stored) (now : ℚ) (s : Stores) : Stores :=
  { s with memory := s.memory.write key (now + settings.ttl) value settings.maxEntries }

/-- `set_cached_response`. -/
def setCachedResponse (settings : Settings) (c : Connection) (tenantSlug digestHex : PyStr)
    (bytes : List UInt8) (reply : SetReply) (now : ℚ) (s : Stores) : Stores :=
  let key := cacheKey tenantSlug digestHex
  let value : Stored := ⟨tenantSlug, bytes⟩
  if redisClient c then
    match reply with
    | .stores => setValkey key value s
    | .raises true => setMemory settings key value now (setValkey key value s)
    | .raises false => setMemory settings key value now s
  else setMemory settings key value now s

/-! ## Runs -/

/-- A call, and what it answers. -/
structure Entry where
  call : Call
  answer : Option Stored

structure State where
  stores : Stores
  /-- The newest call first. -/
  log : List Entry

/-- What a call leaves, and what it answers. -/
def perform (settings : Settings) (s : Stores) (c : Call) : Stores × Option Stored :=
  match c.operation with
  | .get tenantSlug digestHex fails =>
      getCachedResponse c.connection tenantSlug digestHex fails c.now s
  | .set tenantSlug digestHex bytes reply =>
      (setCachedResponse settings c.connection tenantSlug digestHex bytes reply c.now s, none)

def step (settings : Settings) (s : State) (c : Call) : State :=
  let (stores, answer) := perform settings s.stores c
  ⟨stores, ⟨c, answer⟩ :: s.log⟩

def run (settings : Settings) (calls : List Call) : State :=
  calls.foldl (step settings) ⟨⟨[], []⟩, []⟩

/-- The command of the call raises. -/
def Operation.raises : Operation → Bool
  | .get _ _ fails => fails
  | .set _ _ _ (.raises _) => true
  | .set _ _ _ .stores => false

/-- The call finds no Valkey. -/
def Call.down (c : Call) : Bool := !redisClient c.connection || c.operation.raises

def Operation.key : Operation → PyStr
  | .get tenantSlug digestHex _ => cacheKey tenantSlug digestHex
  | .set tenantSlug digestHex _ _ => cacheKey tenantSlug digestHex

/-- What the call set the key to, and when. -/
def Call.stored (key : PyStr) (c : Call) : Option (Stored × ℚ) :=
  match c.operation with
  | .get .. => none
  | .set tenantSlug digestHex bytes _ =>
      if cacheKey tenantSlug digestHex = key then some (⟨tenantSlug, bytes⟩, c.now) else none

/-- The latest set of a key. -/
def lastSet (key : PyStr) (log : List Entry) : Option (Stored × ℚ) :=
  log.findSome? fun e => e.call.stored key

/-- The call set the key, or read it with success. -/
def Entry.uses (e : Entry) (key : PyStr) : Bool :=
  e.call.operation.key = key &&
    match e.call.operation with
    | .get .. => e.answer.isSome
    | .set .. => true

/-- A key was used since another was. -/
def UsedSince (key : PyStr) (log : List Entry) (other : PyStr) : Prop :=
  ∃ e ∈ log.takeWhile fun e => !e.uses key, e.uses other = true

/-- How many entries the memory may hold. -/
def limit (settings : Settings) : Nat := (max 1 settings.maxEntries).toNat

theorem limit_pos (settings : Settings) : 0 < limit settings := by
  unfold limit
  omega

variable {settings : Settings} {s : State} {c : Call} {e : Entry} {log : List Entry}
  {key other t d : PyStr} {bytes : List UInt8} {reply : SetReply} {fails : Bool} {now : ℚ}

/-! ## The log -/

theorem not_usedSince_cons (h : e.uses key = true) : ¬ UsedSince key (e :: log) other := by
  rintro ⟨e', he', -⟩
  rw [List.takeWhile_cons_of_neg (by rw [h]; decide)] at he'
  exact absurd he' List.not_mem_nil

theorem usedSince_cons (h : e.uses key = false) :
    UsedSince key (e :: log) other ↔ e.uses other = true ∨ UsedSince key log other := by
  unfold UsedSince
  rw [List.takeWhile_cons_of_pos (by rw [h]; rfl)]
  simp only [List.mem_cons, exists_eq_or_imp]

theorem lastSet_cons : lastSet key (e :: log) = (e.call.stored key <|> lastSet key log) := by
  unfold lastSet
  rw [List.findSome?_cons]
  cases e.call.stored key <;> rfl

/-- A key that a call does not use keeps its latest set. -/
theorem stored_of_not_uses (h : e.uses key = false) : e.call.stored key = none := by
  unfold Call.stored
  cases hop : e.call.operation with
  | get tenantSlug digestHex fails => rfl
  | set tenantSlug digestHex bytes reply =>
    rw [Entry.uses, hop] at h
    simp only [Operation.key, Bool.and_true] at h
    exact if_neg (of_decide_eq_false h)

/-! ## What a call does -/

/-- **Without Valkey**, a set bumps and evicts, and a get finds nothing, drops what has expired, or
    bumps what it answers. -/
theorem perform_down (settings : Settings) (h : c.down = true) (stores : Stores) :
    (∃ tenantSlug digestHex bytes reply, c.operation = .set tenantSlug digestHex bytes reply ∧
        (perform settings stores c).1.memory = evict (limit settings)
          (bump stores.memory c.operation.key (c.now + settings.ttl, ⟨tenantSlug, bytes⟩)) ∧
        (perform settings stores c).2 = none) ∨
      ∃ tenantSlug digestHex fails, c.operation = .get tenantSlug digestHex fails ∧
        ((stores.memory.lookup c.operation.key = none ∧
            (perform settings stores c).1.memory = stores.memory ∧
            (perform settings stores c).2 = none) ∨
          ∃ expiresAt value, stores.memory.lookup c.operation.key = some (expiresAt, value) ∧
            ((expiresAt ≤ c.now ∧
                (perform settings stores c).1.memory =
                  Recency.pop stores.memory c.operation.key ∧
                (perform settings stores c).2 = none) ∨
              (c.now < expiresAt ∧
                (perform settings stores c).1.memory =
                  bump stores.memory c.operation.key (expiresAt, value) ∧
                (perform settings stores c).2 = some value))) := by
  unfold Call.down at h
  unfold perform
  cases hop : c.operation with
  | set tenantSlug digestHex bytes reply =>
    rw [hop] at h
    refine Or.inl ⟨tenantSlug, digestHex, bytes, reply, rfl, ?_, rfl⟩
    unfold setCachedResponse
    dsimp only
    split
    · rename_i hup
      rw [hup] at h
      match reply, h with
      | .raises true, _ => rfl
      | .raises false, _ => rfl
    · rfl
  | get tenantSlug digestHex fails =>
    rw [hop] at h
    have hmiss : (redisClient c.connection && !fails) = false := by
      simp only [Operation.raises] at h
      cases hup : redisClient c.connection <;> cases fails <;> simp_all
    refine Or.inr ⟨tenantSlug, digestHex, fails, rfl, ?_⟩
    unfold getCachedResponse Memory.read
    simp only [hmiss, Operation.key]
    cases stores.memory.lookup (cacheKey tenantSlug digestHex) with
    | none => exact Or.inl ⟨rfl, rfl, rfl⟩
    | some entry =>
      refine Or.inr ⟨entry.1, entry.2, rfl, ?_⟩
      by_cases hexpired : entry.1 ≤ c.now
      · exact Or.inl ⟨hexpired, by simp [hexpired, Memory.pop, Recency.pop], by simp [hexpired]⟩
      · exact Or.inr ⟨lt_of_not_ge hexpired, by simp [hexpired, Memory.pop, bump, Recency.pop],
          by simp [hexpired]⟩

theorem uses_set (hset : c.operation = .set t d bytes reply) (answer : Option Stored) :
    (⟨c, answer⟩ : Entry).uses key = decide (c.operation.key = key) := by
  simp only [Entry.uses, hset, Bool.and_true]

theorem uses_get (hget : c.operation = .get t d fails) (answer : Option Stored) :
    (⟨c, answer⟩ : Entry).uses key = (decide (c.operation.key = key) && answer.isSome) := by
  simp only [Entry.uses, hget]

theorem stored_set (hset : c.operation = .set t d bytes reply) :
    c.stored c.operation.key = some (⟨t, bytes⟩, c.now) := by
  simp only [Call.stored, hset, Operation.key, if_true]

theorem stored_get (hget : c.operation = .get t d fails) : c.stored key = none := by
  simp only [Call.stored, hget]

/-! ## The invariant -/

/-- A key stands in front of the keys used since only, or it has expired, or it may be evicted. -/
def Placed (settings : Settings) (now : ℚ) (memory : Memory) (log : List Entry) (key : PyStr)
    (expiresAt : ℚ) : Prop :=
  Behind (UsedSince key log) key memory ∨ expiresAt ≤ now ∨
    Crowded (limit settings) (UsedSince key log) key

structure Kept (settings : Settings) (now : ℚ) (s : State) : Prop where
  keys : (s.stores.memory.map Prod.fst).Nodup
  bounded : s.stores.memory.length ≤ limit settings
  stored : ∀ key expiresAt value, (key, expiresAt, value) ∈ s.stores.memory →
    ∃ t, lastSet key s.log = some (value, t) ∧ expiresAt = t + settings.ttl
  placed : ∀ key value t, lastSet key s.log = some (value, t) →
    Placed settings now s.stores.memory s.log key (t + settings.ttl)

theorem kept_empty : Kept settings now ⟨⟨[], []⟩, []⟩ where
  keys := List.nodup_nil
  bounded := Nat.zero_le _
  stored := fun _ _ _ h => absurd h List.not_mem_nil
  placed := fun _ _ _ h => nomatch h

/-- A call that does not use a key: what it does to the place of the key in memory. -/
theorem Placed.cons {memory memory' : Memory} {now' expiresAt : ℚ}
    (h : Placed settings now memory log key expiresAt) (hnow : now ≤ now') (huses : e.uses key = false)
    (hmove : Behind (UsedSince key (e :: log)) key memory →
      Placed settings now' memory' (e :: log) key expiresAt) :
    Placed settings now' memory' (e :: log) key expiresAt := by
  have hmono : ∀ k, UsedSince key log k → UsedSince key (e :: log) k :=
    fun k hk => (usedSince_cons huses).mpr (Or.inr hk)
  rcases h with hbehind | hexpired | hcrowded
  · exact hmove (hbehind.mono hmono)
  · exact Or.inr (Or.inl (hexpired.trans hnow))
  · exact Or.inr (Or.inr (hcrowded.mono hmono))

/-- Eviction moves a key out only where it may. -/
theorem placed_evict {memory : Memory} {expiresAt : ℚ} (hkeys : (memory.map Prod.fst).Nodup)
    (h : Behind (UsedSince key log) key memory) :
    Placed settings now (evict (limit settings) memory) log key expiresAt := by
  rcases Recency.behind_evict hkeys h with hbehind | hcrowded
  · exact Or.inl hbehind
  · exact Or.inr (Or.inr hcrowded)

theorem kept_set {stores : Stores} {memory : Memory} (h : Kept settings now ⟨stores, log⟩)
    (hnow : now ≤ c.now) (hset : c.operation = .set t d bytes reply)
    (hmemory : memory = evict (limit settings)
      (bump stores.memory c.operation.key (c.now + settings.ttl, ⟨t, bytes⟩))) (valkey) :
    Kept settings c.now ⟨⟨valkey, memory⟩, ⟨c, none⟩ :: log⟩ := by
  have hkeys := Recency.nodup_bump (k := c.operation.key)
    (a := (c.now + (settings.ttl : ℚ), (⟨t, bytes⟩ : Stored))) h.keys
  refine ⟨hmemory ▸ Recency.nodup_evict hkeys, hmemory ▸ Recency.length_evict, ?_, ?_⟩
  · intro key expiresAt value hmem
    rw [hmemory] at hmem
    rw [lastSet_cons]
    rcases Recency.mem_bump.mp (List.mem_of_mem_drop hmem) with ⟨hold, hne⟩ | heq
    · rw [stored_of_not_uses (by rw [uses_set hset, decide_eq_false (Ne.symm hne)])]
      exact h.stored key expiresAt value hold
    · cases heq
      exact ⟨c.now, by rw [stored_set hset]; rfl, rfl⟩
  · intro key value time hlast
    show Placed settings c.now memory (⟨c, none⟩ :: log) key (time + settings.ttl)
    rw [hmemory]
    by_cases hkey : c.operation.key = key
    · cases hkey
      exact placed_evict hkeys Recency.behind_bump_self
    · have huses : (⟨c, none⟩ : Entry).uses key = false := by rw [uses_set hset, decide_eq_false hkey]
      rw [lastSet_cons, stored_of_not_uses huses] at hlast
      refine (h.placed key value time hlast).cons hnow huses fun hbehind => placed_evict hkeys ?_
      refine Recency.behind_bump hbehind hkey ((usedSince_cons huses).mpr (Or.inl ?_))
      rw [uses_set hset, decide_eq_true rfl]

/-- A get that answers nothing uses no key; what it may drop has expired. -/
theorem kept_miss {stores : Stores} {memory : Memory} (h : Kept settings now ⟨stores, log⟩)
    (hnow : now ≤ c.now) (hget : c.operation = .get t d fails)
    (hmemory : memory = stores.memory ∨ memory = Recency.pop stores.memory c.operation.key ∧
      ∀ key value time, lastSet key log = some (value, time) → c.operation.key = key →
        time + settings.ttl ≤ c.now) (valkey) :
    Kept settings c.now ⟨⟨valkey, memory⟩, ⟨c, none⟩ :: log⟩ := by
  have huses : ∀ key, (⟨c, none⟩ : Entry).uses key = false := fun key => by
    rw [uses_get hget, Option.isSome_none, Bool.and_false]
  have hlast : ∀ key, lastSet key (⟨c, none⟩ :: log) = lastSet key log := fun key => by
    rw [lastSet_cons, stored_of_not_uses (huses key)]
    rfl
  have hsub : memory.Sublist stores.memory := by
    rcases hmemory with rfl | ⟨rfl, -⟩
    · exact List.Sublist.refl _
    · exact List.filter_sublist
  refine ⟨h.keys.sublist (hsub.map _), hsub.length_le.trans h.bounded, ?_, ?_⟩
  · intro key expiresAt value hmem
    rw [hlast]
    exact h.stored key expiresAt value (hsub.subset hmem)
  · intro key value time hset
    rw [hlast] at hset
    refine (h.placed key value time hset).cons hnow (huses key) fun hbehind => ?_
    rcases hmemory with rfl | ⟨rfl, hdropped⟩
    · exact Or.inl hbehind
    · by_cases hkey : c.operation.key = key
      · exact Or.inr (Or.inl (hdropped key value time hset hkey))
      · exact Or.inl (Recency.behind_pop hbehind hkey)

theorem kept_hit {stores : Stores} {memory : Memory} {expiresAt : ℚ} {value : Stored}
    (h : Kept settings now ⟨stores, log⟩) (hnow : now ≤ c.now)
    (hget : c.operation = .get t d fails)
    (hmem : (c.operation.key, expiresAt, value) ∈ stores.memory)
    (hmemory : memory = bump stores.memory c.operation.key (expiresAt, value)) (valkey) :
    Kept settings c.now ⟨⟨valkey, memory⟩, ⟨c, some value⟩ :: log⟩ := by
  have hlast : ∀ key, lastSet key (⟨c, some value⟩ :: log) = lastSet key log := fun key => by
    rw [lastSet_cons, stored_get hget]
    rfl
  refine ⟨hmemory ▸ Recency.nodup_bump h.keys,
    hmemory ▸ (Recency.length_bump_of_mem hmem).trans h.bounded, ?_, ?_⟩
  · intro key expiresAt' value' hmem'
    rw [hmemory] at hmem'
    rw [hlast]
    rcases Recency.mem_bump.mp hmem' with ⟨hold, -⟩ | heq
    · exact h.stored key expiresAt' value' hold
    · exact h.stored key expiresAt' value' (heq ▸ hmem)
  · intro key value' time hset
    show Placed settings c.now memory (⟨c, some value⟩ :: log) key (time + settings.ttl)
    rw [hlast] at hset
    rw [hmemory]
    by_cases hkey : c.operation.key = key
    · exact Or.inl (hkey ▸ Recency.behind_bump_self)
    · have huses : (⟨c, some value⟩ : Entry).uses key = false := by
        rw [uses_get hget, decide_eq_false hkey, Bool.false_and]
      refine (h.placed key value' time hset).cons hnow huses fun hbehind => Or.inl ?_
      refine Recency.behind_bump hbehind hkey ((usedSince_cons huses).mpr (Or.inl ?_))
      rw [uses_get hget, decide_eq_true rfl]
      rfl

/-- **One call** keeps the invariant. -/
theorem kept_step (h : Kept settings now s) (hnow : now ≤ c.now) (hdown : c.down = true) :
    Kept settings c.now (step settings s c) := by
  obtain ⟨stores, log⟩ := s
  unfold step
  dsimp only
  have hcases := perform_down settings hdown stores
  generalize perform settings stores c = performed at hcases ⊢
  obtain ⟨⟨valkey, memory⟩, answer⟩ := performed
  rcases hcases with ⟨t, d, bytes, reply, hset, hmemory, rfl⟩ | ⟨t, d, fails, hget, hcases⟩
  · exact kept_set h hnow hset hmemory valkey
  rcases hcases with ⟨-, hmemory, rfl⟩ | ⟨expiresAt, value, hlookup, hcases⟩
  · exact kept_miss h hnow hget (Or.inl hmemory) valkey
  have hmem := Table.mem_of_lookup hlookup
  rcases hcases with ⟨hexpired, hmemory, rfl⟩ | ⟨-, hmemory, rfl⟩
  · refine kept_miss h hnow hget (Or.inr ⟨hmemory, ?_⟩) valkey
    rintro key value' time hset rfl
    obtain ⟨time', hset', heq⟩ := h.stored _ _ _ hmem
    rw [hset] at hset'
    cases hset'
    exact heq ▸ hexpired
  · exact kept_hit h hnow hget hmem hmemory valkey

/-- **Whole runs** keep it, up to the clock of their last call. -/
theorem kept_run (settings : Settings) (calls : List Call) (hdown : ∀ c ∈ calls, c.down = true)
    (hclock : calls.Pairwise fun a b => a.now ≤ b.now) {now : ℚ} (hnow : ∀ c ∈ calls, c.now ≤ now) :
    ∃ now' ≤ now, Kept settings now' (run settings calls) := by
  induction calls using List.reverseRecOn generalizing now with
  | nil => exact ⟨now, le_rfl, kept_empty⟩
  | append_singleton calls c ih =>
    rw [List.pairwise_append] at hclock
    obtain ⟨before, hbefore, hkept⟩ := ih (fun c' hc' => hdown c' (List.mem_append_left _ hc'))
      hclock.1 fun c' hc' => hclock.2.2 c' hc' c (List.mem_singleton_self c)
    have hc : c ∈ calls ++ [c] := List.mem_append_right _ (List.mem_singleton_self c)
    refine ⟨c.now, hnow c hc, ?_⟩
    rw [run, List.foldl_append]
    exact kept_step hkept hbefore (hdown c hc)

/-! ## The next call -/

/-- The key that was set last is there: there is room for one entry. -/
theorem lookup_evict_bump {memory : Memory} {n : Nat} (hn : 0 < n) (a : ℚ × Stored)
    (hkeys : (memory.map Prod.fst).Nodup) :
    (evict n (bump memory key a)).lookup key = some a := by
  refine Table.lookup_of_mem (Recency.nodup_evict (Recency.nodup_bump hkeys)) ?_
  have hle : (Recency.pop memory key ++ [(key, a)]).length - n ≤ (Recency.pop memory key).length := by
    rw [List.length_append, List.length_singleton]
    omega
  rw [evict, bump, List.drop_append_of_le_length hle]
  exact List.mem_append_right _ (List.mem_singleton_self _)

/-- **The memory is a bounded store with expiry, that evicts the least recently used.**  Valkey is away
    and the clock never runs back.  After any calls, the next one leaves no more entries than the
    limit.  A set leaves the key there.  A get answers what the key was set to last, before that
    expires; and where it answers nothing although that has not expired, as many other keys as the
    limit were set, or read with success, since the key was. -/
theorem fallback_lru (settings : Settings) (calls : List Call) (call : Call)
    (hdown : ∀ c ∈ calls ++ [call], c.down = true)
    (hclock : (calls ++ [call]).Pairwise fun a b => a.now ≤ b.now) :
    (run settings (calls ++ [call])).stores.memory.length ≤ limit settings ∧
      match call.operation with
      | .set tenantSlug digestHex bytes _ =>
          (run settings (calls ++ [call])).stores.memory.lookup (cacheKey tenantSlug digestHex) =
            some (call.now + settings.ttl, ⟨tenantSlug, bytes⟩)
      | .get tenantSlug digestHex fails =>
          let s := run settings calls
          let key := cacheKey tenantSlug digestHex
          let answer :=
            (getCachedResponse call.connection tenantSlug digestHex fails call.now s.stores).2
          (∀ value, answer = some value →
              ∃ t, lastSet key s.log = some (value, t) ∧ call.now < t + settings.ttl) ∧
            ∀ value t, lastSet key s.log = some (value, t) → call.now < t + settings.ttl →
              answer = none → Crowded (limit settings) (UsedSince key s.log) key := by
  obtain ⟨hclock, -, hafter⟩ := List.pairwise_append.mp hclock
  have hcall : call ∈ calls ++ [call] := List.mem_append_right _ (List.mem_singleton_self call)
  obtain ⟨now, hnow, hkept⟩ := kept_run settings calls
    (fun c hc => hdown c (List.mem_append_left _ hc)) hclock
    fun c hc => hafter c hc call (List.mem_singleton_self call)
  have hnext := kept_step hkept hnow (hdown call hcall)
  have hrun : run settings (calls ++ [call]) = step settings (run settings calls) call := by
    rw [run, List.foldl_append]
    rfl
  refine ⟨hrun ▸ hnext.bounded, ?_⟩
  have hcases := perform_down settings (hdown call hcall) (run settings calls).stores
  cases hop : call.operation with
  | set t d bytes reply =>
    rcases hcases with ⟨t', d', bytes', reply', hset, hmemory, -⟩ | ⟨t', d', fails', hget, -⟩
    · cases hop.symm.trans hset
      have hkey : call.operation.key = cacheKey t d := congrArg Operation.key hop
      rw [hrun]
      show (perform settings (run settings calls).stores call).1.memory.lookup (cacheKey t d) = _
      rw [hmemory, hkey]
      exact lookup_evict_bump (limit_pos settings) _ hkept.keys
    · cases hop.symm.trans hget
  | get t d fails =>
    have hkey : call.operation.key = cacheKey t d := congrArg Operation.key hop
    have hperform : perform settings (run settings calls).stores call =
        getCachedResponse call.connection t d fails call.now (run settings calls).stores := by
      unfold perform
      rw [hop]
    rw [hperform, hkey] at hcases
    dsimp only
    generalize getCachedResponse call.connection t d fails call.now (run settings calls).stores =
      performed at hcases ⊢
    rcases hcases with ⟨_, _, _, _, hset, -⟩ | ⟨_, _, _, -, hcases⟩
    · cases hop.symm.trans hset
    rcases hcases with ⟨hlookup, -, hanswer⟩ | ⟨expiresAt, value, hlookup, hcases⟩
    · rw [hanswer]
      refine ⟨fun _ h => (nomatch h), fun value time hset hlive _ => ?_⟩
      rcases hkept.placed _ value time hset with hbehind | hexpired | hcrowded
      · obtain ⟨entry, hentry, hfst⟩ := List.mem_map.mp hbehind.mem
        have hfound := Table.lookup_of_mem (k := entry.1) (a := entry.2) hkept.keys hentry
        rw [hfst, hlookup] at hfound
        cases hfound
      · exact absurd (hexpired.trans hnow) (not_le_of_gt hlive)
      · exact hcrowded
    · obtain ⟨time, hset, hexpires⟩ := hkept.stored _ _ _ (Table.mem_of_lookup hlookup)
      rcases hcases with ⟨hexpired, -, hanswer⟩ | ⟨hlive, -, hanswer⟩
      · rw [hanswer]
        refine ⟨fun _ h => (nomatch h), fun value' time' hset' hlive _ => ?_⟩
        cases hset.symm.trans hset'
        exact absurd (hexpires ▸ hexpired) (not_le_of_gt hlive)
      · rw [hanswer]
        refine ⟨fun value' hvalue' => ?_, fun _ _ _ _ h => nomatch h⟩
        cases hvalue'
        exact ⟨time, hset, hexpires ▸ hlive⟩

/-! ## A small memory -/

/-- A call when no URL is configured. -/
def awayCall (operation : Operation) (now : ℚ) : Call := ⟨⟨false, now, false⟩, operation, now⟩

def smallSet (name : String) (now : ℚ) : Call :=
  awayCall (.set (PyStr.lit "tenant") (PyStr.lit name) [] (.raises false)) now

def smallGet (name : String) (now : ℚ) : Call :=
  awayCall (.get (PyStr.lit "tenant") (PyStr.lit name) true) now

/-- Two entries at most: the third set evicts the one that was not read since. -/
theorem fallback_lru_three :
    Crowded 2 (UsedSince (cacheKey (PyStr.lit "tenant") (PyStr.lit "two"))
      (run ⟨60, 2⟩ [smallSet "one" 0, smallSet "two" 1, smallGet "one" 2, smallSet "three" 3]).log)
      (cacheKey (PyStr.lit "tenant") (PyStr.lit "two")) :=
  (fallback_lru ⟨60, 2⟩ [smallSet "one" 0, smallSet "two" 1, smallGet "one" 2, smallSet "three" 3]
    (smallGet "two" 4) (by decide) (by decide +kernel)).2.2 ⟨PyStr.lit "tenant", []⟩ 1
    (by decide +kernel) (by decide +kernel) (by decide +kernel)

end ControlPlane.Layout.Fallback
