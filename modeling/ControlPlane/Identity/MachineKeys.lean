/-
  MACHINE KEYS: `apps/keys/auth.py`, `mint.py` and `valkey_publish.py`, with the admin of the keys.

  A key is minted as a plaintext that is SHOWN ONCE.  Its row keeps the Argon2id hash and the first
  twelve characters, and `require_machine_key` finds rows by these characters and verifies their
  hashes one after another.

  1. `Registry` is the two tables, what was minted, and what was published.
  2. **Refinement** (`require_refines`): after any history the rows answer as the plaintexts would: the
     row that was minted with the presented plaintext decides, and no other row does.
  3. **Revocation is final** (`revoked_stays_out`): only an edit of the row can take it back.
-/
import ControlPlane.Identity.Webhooks
import ControlPlane.Json

namespace ControlPlane.MachineKeys

open Identity (Tenant Uuid)
open PyStr (lit)

/-! ## Headers and scopes -/

def space : CodePoint := 0x20

def colon : CodePoint := 0x3A

/-- `lower()` of a character of a header; these are Latin-1 characters. -/
def lowerChar (c : CodePoint) : CodePoint :=
  if (65 ≤ c.val && c.val ≤ 90) || (192 ≤ c.val && c.val ≤ 222 && c.val != 215) then
    Fin.ofNat 0x110000 (c.val + 32)
  else c

/-- `KEY_PREFIX`. -/
def thk : PyStr := lit "thk_"

/-- `_bearer_token`, on the `Authorization` header. -/
def bearerToken (header : PyStr) : PyStr :=
  let header := header.strip
  let scheme := header.takeWhile (· ≠ space)
  let token := (header.dropWhile (· ≠ space)).drop 1
  if scheme.map lowerChar ≠ lit "bearer" ∨ token = [] ∨ space ∈ token then []
  else if thk.isPrefixOf token then token else []

def isScope (scope : PyStr) : Json → Bool
  | .str text => text == scope
  | _ => false

/-- `_scope_allows`. -/
def scopeAllows (scopes : Json) (required : PyStr) : Bool :=
  match scopes with
  | .arr granted =>
      let wildcard := if colon ∈ required then required.takeWhile (· ≠ colon) ++ lit ":*" else []
      granted.any (isScope (lit "*")) || granted.any (isScope required) ||
        granted.any (isScope wildcard)
  | _ => false

/-! ## Rows -/

/-- The columns of `control_apikey` that decide. -/
structure ApiKey where
  id : Uuid
  tenantId : Uuid
  keyHash : PyStr
  keyPrefix : PyStr
  scopes : Json
  revokedAt : Option Int := none
  expiresAt : Option Int := none

/-- `is_expired`. -/
def ApiKey.isExpired (k : ApiKey) (now : Int) : Bool := k.expiresAt.any fun t => t ≤ now

/-- One of `A-Z`, `a-z`, `0-9`, `-`, `_`. -/
def isUrlSafe (c : CodePoint) : Bool :=
  (65 ≤ c.val && c.val ≤ 90) || (97 ≤ c.val && c.val ≤ 122) || (48 ≤ c.val && c.val ≤ 57) ||
    c.val == 45 || c.val == 95

/-- What `secrets.token_urlsafe(32)` gives. -/
structure Token where
  text : PyStr
  length : text.length = 43
  urlSafe : text.all isUrlSafe = true
  deriving DecidableEq

/-- `MintedKey`: the key, and the token in the plaintext that is shown. -/
structure MintedKey where
  id : Uuid
  token : Token
  deriving DecidableEq

def MintedKey.plaintext (m : MintedKey) : PyStr := thk ++ m.token.text

/-- The tables, with everything that was minted and published so far. -/
structure Registry where
  tenants : List Tenant := []
  keys : List ApiKey := []
  minted : List MintedKey := []
  published : List (PyStr × Uuid) := []

/-- Argon2id: the hash under a salt, and `verify_api_key`, which is false where `verify` raises. -/
structure Hasher where
  hash : Nat → PyStr → PyStr
  verify : PyStr → PyStr → Bool

/-- A hash is verified by the text that was hashed and by no other. -/
def Hasher.Exact (hasher : Hasher) : Prop :=
  ∀ salt text text', hasher.verify (hasher.hash salt text) text' = true ↔ text = text'

/-! ## `require_machine_key` -/

structure Principal where
  tenant : Tenant
  apiKey : ApiKey

/-- `HttpError(status, detail)`. -/
abbrev HttpError := Nat × PyStr

def keyRequired : HttpError := (401, lit "machine API key required")

/-- The answer to a key that was verified. -/
def ApiKey.answer (k : ApiKey) (tenant : Tenant) (scope : PyStr) : Except HttpError Principal :=
  if tenant.isActive = false then .error (403, lit "tenant is inactive")
  else if scopeAllows k.scopes scope = false then
    .error (403, lit "machine API key lacks " ++ scope ++ lit " scope")
  else .ok ⟨tenant, k⟩

namespace Registry

variable (r : Registry)

def tenant? (k : ApiKey) : Option Tenant := r.tenants.find? fun t => t.id = k.tenantId

/-- The keys that are not revoked and begin like the plaintext, each with its tenant. -/
def candidates (plaintext : PyStr) : List (ApiKey × Tenant) :=
  (r.keys.filter fun k => k.keyPrefix = plaintext.take 12 && k.revokedAt.isNone).filterMap fun k =>
    (r.tenant? k).map fun t => (k, t)

end Registry

/-- The loop over the candidates. -/
def admitFirst (hasher : Hasher) (plaintext scope : PyStr) (now : Int) :
    List (ApiKey × Tenant) → Except HttpError Principal
  | [] => .error keyRequired
  | (k, tenant) :: rest =>
      if k.isExpired now || !hasher.verify k.keyHash plaintext then
        admitFirst hasher plaintext scope now rest
      else k.answer tenant scope

def requireMachineKey (hasher : Hasher) (r : Registry) (header scope : PyStr) (now : Int) :
    Except HttpError Principal :=
  let plaintext := bearerToken header
  if plaintext = [] then .error keyRequired
  else admitFirst hasher plaintext scope now (r.candidates plaintext)

/-! ## What moves the registry -/

/-- `list(scopes or [])`; `none` where the value is no iterable. -/
def listOf : Json → Option (List Json)
  | .arr items => some items
  | .obj fields => some (fields.map fun field => .str field.1)
  | .str text => some (text.map fun c => .str [c])
  | value => if value.truthy then none else some []

/-- `apikey_revoke_channel`; a tenant without a slug has the channel of all. -/
def revokeChannel (tenantSlug : PyStr) : PyStr :=
  lit "t:" ++ (if tenantSlug.blank then lit "_global" else tenantSlug.strip) ++
    lit ":control_apikey:revoke"

inductive Event where
  /-- A tenant is created, or its row is saved. -/
  | tenant (t : Tenant)
  /-- It is deleted, and its keys with it. -/
  | tenantDeleted (id : Uuid)
  /-- `mint_api_key`, also from `save_model` of a new key. -/
  | mint (id tenantId : Uuid) (token : Token) (salt : Nat) (scopes : Json) (expiresAt : Option Int)
  /-- `save_model` of a key that exists. -/
  | edit (id tenantId : Uuid) (scopes : Json) (revokedAt expiresAt : Option Int)
  /-- `revoke_key` on the selected keys, with or without Valkey. -/
  | revoke (ids : List Uuid) (now : Int) (valkey : Bool)
  | delete (ids : List Uuid)

/-- The row that `mint_api_key` creates. -/
def mintRow (hasher : Hasher) (m : MintedKey) (tenantId : Uuid) (salt : Nat) (scopes : List Json)
    (expiresAt : Option Int) : ApiKey where
  id := m.id
  tenantId := tenantId
  keyHash := hasher.hash salt m.plaintext
  keyPrefix := m.plaintext.take 12
  scopes := .arr scopes
  expiresAt := expiresAt

/-- `save_model` of a row: hash and prefix are read-only there. -/
def ApiKey.save (tenantId : Uuid) (scopes : Json) (revokedAt expiresAt : Option Int) (k : ApiKey) :
    ApiKey :=
  { k with tenantId := tenantId, scopes := scopes, revokedAt := revokedAt, expiresAt := expiresAt }

/-- The key is in the selection and not revoked yet. -/
def selected (ids : List Uuid) (k : ApiKey) : Bool := decide (k.id ∈ ids) && k.revokedAt.isNone

/-- The row after `revoke_key`. -/
def ApiKey.revoke (ids : List Uuid) (now : Int) (k : ApiKey) : ApiKey :=
  { k with revokedAt := if selected ids k then some now else k.revokedAt }

namespace Registry

/-- `publish_key_revocation` for every key of the selection. -/
def evictions (r : Registry) (ids : List Uuid) : List (PyStr × Uuid) :=
  (r.keys.filter (selected ids)).filterMap fun k =>
    (r.tenant? k).map fun t => (revokeChannel t.slug, k.id)

/-- One event; `none` where it does not happen.  No key and no token is drawn twice. -/
def step (hasher : Hasher) (r : Registry) : Event → Option Registry
  | .tenant t => some { r with
      tenants := if t.id ∈ r.tenants.map Tenant.id then Table.modify Tenant.id t.id (fun _ => t) r.tenants
        else r.tenants ++ [t] }
  | .tenantDeleted id => some { r with
      tenants := r.tenants.filter fun t => t.id ≠ id
      keys := r.keys.filter fun k => k.tenantId ≠ id }
  | .mint id tenantId token salt scopes expiresAt =>
      if tenantId ∉ r.tenants.map Tenant.id ∨ id ∈ r.minted.map MintedKey.id ∨
          token ∈ r.minted.map MintedKey.token then none
      else (listOf scopes).map fun scopes => { r with
        -- the newest key comes first
        keys := mintRow hasher ⟨id, token⟩ tenantId salt scopes expiresAt :: r.keys
        minted := ⟨id, token⟩ :: r.minted }
  | .edit id tenantId scopes revokedAt expiresAt =>
      if tenantId ∉ r.tenants.map Tenant.id then none
      else some { r with
        keys := Table.modify ApiKey.id id (ApiKey.save tenantId scopes revokedAt expiresAt) r.keys }
  | .revoke ids now valkey => some { r with
      keys := r.keys.map (ApiKey.revoke ids now)
      published := r.published ++ if valkey then r.evictions ids else [] }
  | .delete ids => some { r with keys := r.keys.filter fun k => k.id ∉ ids }

def run (hasher : Hasher) (r : Registry) (events : List Event) : Option Registry :=
  events.foldlM (step hasher) r

/-! ## The abstract registry: keys by their plaintexts -/

/-- The key that was minted with this plaintext. -/
def holder (r : Registry) (plaintext : PyStr) : Option ApiKey :=
  r.keys.find? fun k => r.minted.any fun m => m.id == k.id && m.plaintext == plaintext

/-- What a plaintext is answered. -/
def admission (r : Registry) (plaintext scope : PyStr) (now : Int) : Except HttpError Principal :=
  match r.holder plaintext with
  | none => .error keyRequired
  | some k =>
      if k.revokedAt.isSome || k.isExpired now then .error keyRequired
      else match r.tenant? k with
        | none => .error keyRequired
        | some tenant => k.answer tenant scope

end Registry

/-! ## What every registry keeps -/

/-- Every row was minted and belongs to a tenant; no id and no token was minted twice. -/
structure Sound (hasher : Hasher) (r : Registry) : Prop where
  ids : (r.minted.map MintedKey.id).Nodup
  tokens : (r.minted.map MintedKey.token).Nodup
  rows : (r.keys.map ApiKey.id).Nodup
  stored : ∀ k ∈ r.keys, ∃ m ∈ r.minted, ∃ salt, m.id = k.id ∧
    k.keyHash = hasher.hash salt m.plaintext ∧ k.keyPrefix = m.plaintext.take 12
  owned : ∀ k ∈ r.keys, k.tenantId ∈ r.tenants.map Tenant.id

section Steps

variable {hasher : Hasher} {r r' r'' : Registry} {e : Event} {events : List Event} {id : Uuid}

theorem sound_empty (hasher : Hasher) : Sound hasher {} where
  ids := List.nodup_nil
  tokens := List.nodup_nil
  rows := List.nodup_nil
  stored := nofun
  owned := nofun

/-- Rows with other columns, or fewer rows. -/
theorem Sound.rewrite (h : Sound hasher r) (hminted : r'.minted = r.minted)
    (hids : (r'.keys.map ApiKey.id).Sublist (r.keys.map ApiKey.id))
    (hrows : ∀ k' ∈ r'.keys, ∃ k ∈ r.keys,
      k'.id = k.id ∧ k'.keyHash = k.keyHash ∧ k'.keyPrefix = k.keyPrefix)
    (howned : ∀ k' ∈ r'.keys, k'.tenantId ∈ r'.tenants.map Tenant.id) : Sound hasher r' where
  ids := hminted ▸ h.ids
  tokens := hminted ▸ h.tokens
  rows := h.rows.sublist hids
  stored k' hk' := by
    obtain ⟨k, hk, hid, hhash, hfront⟩ := hrows k' hk'
    obtain ⟨m, hm, salt, hmid, hmhash, hmfront⟩ := h.stored k hk
    exact ⟨m, hminted ▸ hm, salt, hmid.trans hid.symm, hhash.trans hmhash, hfront.trans hmfront⟩
  owned := howned

/-- Fewer rows. -/
theorem Sound.filter (h : Sound hasher r) {p : ApiKey → Bool} (hminted : r'.minted = r.minted)
    (hkeys : r'.keys = r.keys.filter p)
    (howned : ∀ k ∈ r'.keys, k.tenantId ∈ r'.tenants.map Tenant.id) : Sound hasher r' := by
  refine h.rewrite hminted (hkeys ▸ List.filter_sublist.map _) (fun k hk => ?_) howned
  rw [hkeys] at hk
  exact ⟨k, List.mem_of_mem_filter hk, rfl, rfl, rfl⟩

/-- One event. -/
theorem Sound.step (h : Sound hasher r) (hstep : r.step hasher e = some r') : Sound hasher r' := by
  cases e with
  | tenant t =>
    cases hstep
    refine h.rewrite rfl (List.Sublist.refl _) (fun k hk => ⟨k, hk, rfl, rfl, rfl⟩) fun k hk => ?_
    dsimp only
    split
    · rw [Table.modify_map_key fun t' _ ht' => ht'.symm]
      exact h.owned k hk
    · rw [List.map_append]
      exact List.mem_append_left _ (h.owned k hk)
  | tenantDeleted id =>
    cases hstep
    refine h.filter rfl rfl fun k hk => ?_
    obtain ⟨hk, hne⟩ := List.mem_filter.mp hk
    obtain ⟨t, ht, htid⟩ := List.mem_map.mp (h.owned k hk)
    refine List.mem_map.mpr ⟨t, List.mem_filter.mpr ⟨ht, ?_⟩, htid⟩
    rwa [htid]
  | mint id tenantId token salt scopes expiresAt =>
    simp only [Registry.step] at hstep
    split at hstep
    · cases hstep
    · rename_i hguard
      simp only [not_or, not_not] at hguard
      obtain ⟨htenant, hid, htoken⟩ := hguard
      obtain ⟨granted, -, rfl⟩ := Option.map_eq_some_iff.mp hstep
      refine ⟨List.nodup_cons.mpr ⟨hid, h.ids⟩, List.nodup_cons.mpr ⟨htoken, h.tokens⟩,
        List.nodup_cons.mpr ⟨fun hmem => ?_, h.rows⟩, fun k hk => ?_, fun k hk => ?_⟩
      · obtain ⟨k, hk, hkid⟩ := List.mem_map.mp hmem
        obtain ⟨m, hm, -, hmid, -⟩ := h.stored k hk
        exact hid (List.mem_map.mpr ⟨m, hm, hmid.trans hkid⟩)
      · rcases List.mem_cons.mp hk with rfl | hk
        · exact ⟨_, List.mem_cons_self, salt, rfl, rfl, rfl⟩
        · obtain ⟨m, hm, hstored⟩ := h.stored k hk
          exact ⟨m, List.mem_cons_of_mem _ hm, hstored⟩
      · rcases List.mem_cons.mp hk with rfl | hk
        · exact htenant
        · exact h.owned k hk
  | edit id tenantId scopes revokedAt expiresAt =>
    simp only [Registry.step] at hstep
    split at hstep
    · cases hstep
    · rename_i htenant
      cases hstep
      refine h.rewrite rfl ?_ (fun k hk => ?_) fun k hk => ?_
      · rw [Table.modify_map_key (f := ApiKey.save tenantId scopes revokedAt expiresAt)
          fun _ _ _ => rfl]
      · rcases Table.mem_modify.mp hk with ⟨k', hk', -, rfl⟩ | ⟨hk, -⟩
        · exact ⟨k', hk', rfl, rfl, rfl⟩
        · exact ⟨k, hk, rfl, rfl, rfl⟩
      · rcases Table.mem_modify.mp hk with ⟨k', hk', -, rfl⟩ | ⟨hk, -⟩
        · exact not_not.mp htenant
        · exact h.owned k hk
  | revoke ids now valkey =>
    cases hstep
    refine h.rewrite rfl ?_ (fun k hk => ?_) fun k hk => ?_
    · rw [List.map_map]
      exact List.Sublist.refl _
    · obtain ⟨k', hk', rfl⟩ := List.mem_map.mp hk
      exact ⟨k', hk', rfl, rfl, rfl⟩
    · obtain ⟨k', hk', rfl⟩ := List.mem_map.mp hk
      exact h.owned k' hk'
  | delete ids =>
    cases hstep
    exact h.filter rfl rfl fun k hk => h.owned k (List.mem_of_mem_filter hk)

theorem run_cons : r.run hasher (e :: events) = (r.step hasher e).bind fun r' => r'.run hasher events := by
  rw [Registry.run, List.foldlM_cons]
  rfl

/-- Every history. -/
theorem Sound.run (h : Sound hasher r) (hrun : r.run hasher events = some r') : Sound hasher r' := by
  induction events generalizing r with
  | nil =>
    cases hrun
    exact h
  | cons e events ih =>
    rw [run_cons] at hrun
    obtain ⟨next, hnext, hrest⟩ := Option.bind_eq_some_iff.mp hrun
    exact ih (h.step hnext) hrest

end Steps

/-! ## The rows answer as the plaintexts -/

section Refinement

variable {hasher : Hasher} {r : Registry} {plaintext scope : PyStr} {now : Int} {k k' : ApiKey}
  {m m' : MintedKey} {tenant : Tenant} {rest : List (ApiKey × Tenant)}

theorem MintedKey.plaintext_ne_nil (m : MintedKey) : m.plaintext ≠ [] := by
  intro h
  cases List.append_eq_nil_iff.mp h with
  | intro hthk _ => exact absurd hthk (by decide)

/-- A plaintext was minted once. -/
theorem Sound.eq_of_plaintext (h : Sound hasher r) (hm : m ∈ r.minted) (hm' : m' ∈ r.minted)
    (heq : m.plaintext = m'.plaintext) : m = m' := by
  have htext : m.token.text = m'.token.text := List.append_cancel_left heq
  have htoken : m.token = m'.token := by
    cases hm₁ : m.token
    cases hm₂ : m'.token
    rw [hm₁, hm₂] at htext
    cases htext
    rfl
  exact Table.eq_of_key h.tokens hm hm' htoken

/-- What verifies against a row. -/
theorem Sound.verify_iff (h : Sound hasher r) (hexact : hasher.Exact) (hk : k ∈ r.keys) :
    hasher.verify k.keyHash plaintext = true ↔
      ∃ m ∈ r.minted, m.id = k.id ∧ m.plaintext = plaintext := by
  obtain ⟨m, hm, salt, hid, hhash, -⟩ := h.stored k hk
  rw [hhash, hexact]
  constructor
  · exact fun heq => ⟨m, hm, hid, heq⟩
  · rintro ⟨m', hm', hid', rfl⟩
    rw [Table.eq_of_key h.ids hm hm' (hid.trans hid'.symm)]

theorem holder_some (h : r.holder plaintext = some k) :
    k ∈ r.keys ∧ ∃ m ∈ r.minted, m.id = k.id ∧ m.plaintext = plaintext := by
  refine ⟨List.mem_of_find?_eq_some h, ?_⟩
  have hfound := List.find?_some h
  simp only [List.any_eq_true, Bool.and_eq_true, beq_iff_eq] at hfound
  exact hfound

theorem holder_none (h : r.holder plaintext = none) (hk : k ∈ r.keys) :
    ¬ ∃ m ∈ r.minted, m.id = k.id ∧ m.plaintext = plaintext := by
  have hfail := List.find?_eq_none.mp h k hk
  simpa only [List.any_eq_true, Bool.and_eq_true, beq_iff_eq] using hfail

/-- One row was minted with the plaintext. -/
theorem Sound.eq_of_holder (h : Sound hasher r) (hk : k ∈ r.keys) (hk' : k' ∈ r.keys)
    (hm : ∃ m ∈ r.minted, m.id = k.id ∧ m.plaintext = plaintext)
    (hm' : ∃ m ∈ r.minted, m.id = k'.id ∧ m.plaintext = plaintext) : k = k' := by
  obtain ⟨m, hm, hid, hplain⟩ := hm
  obtain ⟨m', hm', hid', hplain'⟩ := hm'
  obtain rfl := h.eq_of_plaintext hm hm' (hplain.trans hplain'.symm)
  exact Table.eq_of_key h.rows hk hk' (hid.symm.trans hid')

theorem mem_candidates : (k, tenant) ∈ r.candidates plaintext ↔
    k ∈ r.keys ∧ k.keyPrefix = plaintext.take 12 ∧ k.revokedAt = none ∧ r.tenant? k = some tenant := by
  unfold Registry.candidates
  rw [List.mem_filterMap]
  constructor
  · rintro ⟨k', hk', heq⟩
    obtain ⟨t, ht, hpair⟩ := Option.map_eq_some_iff.mp heq
    cases hpair
    obtain ⟨hk, hp⟩ := List.mem_filter.mp hk'
    simp only [Bool.and_eq_true, decide_eq_true_eq, Option.isNone_iff_eq_none] at hp
    exact ⟨hk, hp.1, hp.2, ht⟩
  · rintro ⟨hk, hfront, hrevoked, ht⟩
    refine ⟨k, List.mem_filter.mpr ⟨hk, ?_⟩, by rw [ht]; rfl⟩
    simp only [hfront, hrevoked, decide_true, Option.isNone_none, Bool.and_self]

theorem admitFirst_none {l : List (ApiKey × Tenant)}
    (h : ∀ x ∈ l, x.1.isExpired now = true ∨ hasher.verify x.1.keyHash plaintext = false) :
    admitFirst hasher plaintext scope now l = .error keyRequired := by
  induction l with
  | nil => rfl
  | cons x l ih =>
    rw [admitFirst, if_pos, ih fun y hy => h y (List.mem_cons_of_mem _ hy)]
    rcases h x List.mem_cons_self with hx | hx <;> simp [hx]

/-- The only candidate that verifies decides. -/
theorem admitFirst_some {l : List (ApiKey × Tenant)} {x : ApiKey × Tenant} (hx : x ∈ l)
    (hexpired : x.1.isExpired now = false) (hverify : hasher.verify x.1.keyHash plaintext = true)
    (honly : ∀ y ∈ l, hasher.verify y.1.keyHash plaintext = true → y = x) :
    admitFirst hasher plaintext scope now l = x.1.answer x.2 scope := by
  induction l with
  | nil => cases hx
  | cons y l ih =>
    by_cases hy : hasher.verify y.1.keyHash plaintext = true
    · obtain rfl := honly y List.mem_cons_self hy
      rw [admitFirst, if_neg (by simp [hexpired, hverify])]
    · rw [admitFirst, if_pos (by simp [hy])]
      refine ih ?_ fun z hz => honly z (List.mem_cons_of_mem _ hz)
      rcases List.mem_cons.mp hx with rfl | hx
      · exact absurd hverify hy
      · exact hx

theorem Sound.tenant_isSome (h : Sound hasher r) (hk : k ∈ r.keys) : ∃ t, r.tenant? k = some t := by
  obtain ⟨t, ht, hid⟩ := List.mem_map.mp (h.owned k hk)
  have hsome : (r.tenant? k).isSome = true :=
    List.find?_isSome.mpr ⟨t, ht, by simpa using hid⟩
  exact Option.isSome_iff_exists.mp hsome

/-- The rows answer as the plaintexts do. -/
theorem Sound.require_eq (h : Sound hasher r) (hexact : hasher.Exact) (header : PyStr) :
    requireMachineKey hasher r header scope now = r.admission (bearerToken header) scope now := by
  unfold requireMachineKey
  generalize bearerToken header = plaintext
  dsimp only
  -- the candidates that verify are the holder, if it is a candidate
  have hholder : ∀ x ∈ r.candidates plaintext, hasher.verify x.1.keyHash plaintext = true →
      r.holder plaintext = some x.1 := by
    rintro ⟨k, t⟩ hx hverify
    have hk := (mem_candidates.mp hx).1
    have hminted := (h.verify_iff hexact hk).mp hverify
    cases hfound : r.holder plaintext with
    | none => exact absurd hminted (holder_none hfound hk)
    | some k' =>
      obtain ⟨hk', hminted'⟩ := holder_some hfound
      rw [h.eq_of_holder hk' hk hminted' hminted]
  unfold Registry.admission
  cases hfound : r.holder plaintext with
  | none =>
    rw [admitFirst_none fun x hx => Or.inr ?_]
    · exact ite_self _
    · by_contra hverify
      rw [hholder x hx (by simpa using hverify)] at hfound
      cases hfound
  | some k =>
    obtain ⟨hk, m, hm, hid, rfl⟩ := holder_some hfound
    have hverify := (h.verify_iff hexact hk).mpr ⟨m, hm, hid, rfl⟩
    rw [if_neg m.plaintext_ne_nil]
    dsimp only
    split
    · rename_i hout
      refine admitFirst_none fun x hx => ?_
      by_contra hnot
      obtain ⟨hexpired, hx'⟩ := not_or.mp hnot
      have hsame := Option.some.inj (hfound.symm.trans (hholder x hx (by simpa using hx')))
      have hrevoked := (mem_candidates.mp (show (x.1, x.2) ∈ _ from hx)).2.2.1
      rw [← hsame] at hexpired hrevoked
      simp [hexpired, hrevoked] at hout
    · rename_i hin
      simp only [Bool.or_eq_true, not_or, Bool.not_eq_true, Option.isSome_eq_false_iff,
        Option.isNone_iff_eq_none] at hin
      obtain ⟨hrevoked, hexpired⟩ := hin
      obtain ⟨t, ht⟩ := h.tenant_isSome hk
      obtain ⟨m', hm', -, hid', -, hfront⟩ := h.stored k hk
      obtain rfl := Table.eq_of_key h.ids hm hm' (hid.trans hid'.symm)
      rw [ht]
      refine admitFirst_some (x := (k, t)) (mem_candidates.mpr ⟨hk, hfront, hrevoked, ht⟩) hexpired
        hverify fun y hy hverified => ?_
      have hsame := Option.some.inj (hfound.symm.trans (hholder y hy hverified))
      have htenant := (mem_candidates.mp (show (y.1, y.2) ∈ _ from hy)).2.2.2
      rw [← hsame, ht] at htenant
      exact Prod.ext hsame.symm (Option.some.inj htenant).symm

/-- **The registry refines its plaintexts.**  After any history, whatever header is presented, the key
    that was minted with the presented plaintext decides; no other row does. -/
theorem require_refines (hexact : hasher.Exact) (events : List Event)
    (hrun : ({} : Registry).run hasher events = some r) (header scope : PyStr) (now : Int) :
    requireMachineKey hasher r header scope now = r.admission (bearerToken header) scope now :=
  ((sound_empty hasher).run hrun).require_eq hexact header

end Refinement

/-! ## The plaintext in a header -/

theorem not_space_of_urlSafe {c : CodePoint} (h : isUrlSafe c = true) : PyStr.isSpace c = false := by
  simp only [isUrlSafe, Bool.or_eq_true, Bool.and_eq_true, decide_eq_true_eq, beq_iff_eq] at h
  simp only [PyStr.isSpace, Bool.or_eq_false_iff, Bool.and_eq_false_iff, decide_eq_false_iff_not,
    beq_eq_false_iff_ne]
  omega

theorem MintedKey.not_space (m : MintedKey) {c : CodePoint} (hc : c ∈ m.plaintext) :
    PyStr.isSpace c = false := by
  have hthk : (thk.all fun c => !PyStr.isSpace c) = true := by decide
  rcases List.mem_append.mp hc with hc | hc
  · simpa using List.all_eq_true.mp hthk c hc
  · exact not_space_of_urlSafe (List.all_eq_true.mp m.token.urlSafe c hc)

/-- Nothing is stripped from a text that begins and ends with something else than a space. -/
theorem strip_eq_self {a b : CodePoint} {s t : PyStr} (hs : s = a :: t)
    (ha : PyStr.isSpace a = false) (hb : s.getLast? = some b) (hspace : PyStr.isSpace b = false) :
    PyStr.strip s = s := by
  have hfront : s.dropWhile PyStr.isSpace = s := by
    rw [hs, List.dropWhile_cons_of_neg (by simp [ha])]
  have hback : s.reverse.dropWhile PyStr.isSpace = s.reverse := by
    cases hrev : s.reverse with
    | nil => rfl
    | cons b' rest =>
      have hlast : some b' = some b := by
        rw [← hb, List.getLast?_eq_head?_reverse, hrev]
        rfl
      rw [Option.some.inj hlast, List.dropWhile_cons_of_neg (by simp [hspace])]
  rw [PyStr.strip, hfront, PyStr.rstrip, hback, List.reverse_reverse]

/-- A character that reads as one of `bearer` is no space. -/
theorem not_space_of_scheme {c : CodePoint} (h : lowerChar c ∈ lit "bearer") :
    PyStr.isSpace c = false := by
  have hletters : ((lit "bearer").all fun c => 97 ≤ c.val && c.val ≤ 122) = true := by decide
  have hletter := List.all_eq_true.mp hletters _ h
  simp only [Bool.and_eq_true, decide_eq_true_eq] at hletter
  unfold lowerChar at hletter
  simp only [PyStr.isSpace, Bool.or_eq_false_iff, Bool.and_eq_false_iff, decide_eq_false_iff_not,
    beq_eq_false_iff_ne]
  split at hletter
  · rename_i hupper
    simp only [Bool.or_eq_true, Bool.and_eq_true, decide_eq_true_eq, bne_iff_ne] at hupper
    omega
  · omega

/-- **Shown once, read back**: `Bearer`, in whatever case, and the plaintext. -/
theorem bearerToken_minted (m : MintedKey) {scheme : PyStr}
    (hscheme : scheme.map lowerChar = lit "bearer") :
    bearerToken (scheme ++ space :: m.plaintext) = m.plaintext := by
  have hletters : ∀ c ∈ scheme, PyStr.isSpace c = false := fun c hc =>
    not_space_of_scheme (hscheme ▸ List.mem_map_of_mem hc)
  have hspace : PyStr.isSpace space = true := by decide
  have hne : ∀ c, PyStr.isSpace c = false → decide (c ≠ space) = true := by
    intro c hc
    refine decide_eq_true ?_
    rintro rfl
    rw [hspace] at hc
    cases hc
  have hstrip : PyStr.strip (scheme ++ space :: m.plaintext) = scheme ++ space :: m.plaintext := by
    cases scheme with
    | nil => cases hscheme
    | cons a rest =>
      obtain ⟨b, hb⟩ := Option.isSome_iff_exists.mp
        (List.getLast?_isSome.mpr m.plaintext_ne_nil)
      refine strip_eq_self (List.cons_append ..) (hletters a List.mem_cons_self) ?_
        (m.not_space (List.mem_of_getLast? hb))
      rw [List.getLast?_append_of_ne_nil _ (List.cons_ne_nil _ _), List.getLast?_cons,
        hb, Option.getD_some]
  have htake : (scheme ++ space :: m.plaintext).takeWhile (· ≠ space) = scheme := by
    rw [List.takeWhile_append_of_pos fun c hc => hne c (hletters c hc),
      List.takeWhile_cons_of_neg (by simp), List.append_nil]
  have hdrop : (scheme ++ space :: m.plaintext).dropWhile (· ≠ space) = space :: m.plaintext := by
    rw [List.dropWhile_append_of_pos fun c hc => hne c (hletters c hc),
      List.dropWhile_cons_of_neg (by simp)]
  have hnot : space ∉ m.plaintext := fun hmem => by
    rw [m.not_space hmem] at hspace
    cases hspace
  have hfront : thk.isPrefixOf m.plaintext = true :=
    List.isPrefixOf_iff_prefix.mpr (List.prefix_append _ _)
  unfold bearerToken
  simp only [hstrip, htake, hdrop, List.drop_one, List.tail_cons, hscheme, hfront, ne_eq,
    not_true_eq_false, m.plaintext_ne_nil, hnot, or_self, if_false, if_true]

/-! ## Revocation -/

section Revocation

variable {hasher : Hasher} {r r' r'' : Registry} {e : Event} {events : List Event} {id : Uuid}
  {scope plaintext : PyStr} {now : Int} {k : ApiKey} {t : Tenant}

/-- Someone saves the row of the key. -/
def Event.edits (id : Uuid) : Event → Bool
  | .edit id' .. => id' == id
  | _ => false

/-- The id has been given away, and its row, if there still is one, is revoked. -/
def Out (id : Uuid) (r : Registry) : Prop :=
  id ∈ r.minted.map MintedKey.id ∧ ∀ k ∈ r.keys, k.id = id → k.revokedAt.isSome = true

/-- What was minted stays minted, and what was published stays published. -/
theorem step_grows (hstep : r.step hasher e = some r') :
    r.minted <:+ r'.minted ∧ r.published <+: r'.published := by
  cases e with
  | mint id tenantId token salt scopes expiresAt =>
    simp only [Registry.step] at hstep
    split at hstep
    · cases hstep
    · obtain ⟨granted, -, rfl⟩ := Option.map_eq_some_iff.mp hstep
      exact ⟨List.suffix_cons _ _, List.prefix_refl _⟩
  | edit id tenantId scopes revokedAt expiresAt =>
    simp only [Registry.step] at hstep
    split at hstep
    · cases hstep
    · cases hstep
      exact ⟨List.suffix_refl _, List.prefix_refl _⟩
  | revoke ids now valkey =>
    cases hstep
    exact ⟨List.suffix_refl _, List.prefix_append _ _⟩
  | _ =>
    cases hstep
    exact ⟨List.suffix_refl _, List.prefix_refl _⟩

theorem ApiKey.revoke_isSome {ids : List Uuid} (h : k.revokedAt.isSome = true) :
    (k.revoke ids now).revokedAt.isSome = true := by
  unfold ApiKey.revoke
  dsimp only
  split
  · rfl
  · exact h

theorem ApiKey.revoke_selected {ids : List Uuid} (h : k.id ∈ ids) :
    (k.revoke ids now).revokedAt.isSome = true := by
  unfold ApiKey.revoke selected
  cases hrevoked : k.revokedAt with
  | some t => simp
  | none => simp [h]

/-- A key that is out stays out, unless its row is edited. -/
theorem Out.step (h : Out id r) (hedit : e.edits id = false) (hstep : r.step hasher e = some r') :
    Out id r' := by
  refine ⟨((step_grows hstep).1.map _).subset h.1, ?_⟩
  cases e with
  | tenant t =>
    cases hstep
    exact h.2
  | tenantDeleted id' =>
    cases hstep
    exact fun k hk => h.2 k (List.mem_of_mem_filter hk)
  | mint id' tenantId token salt scopes expiresAt =>
    simp only [Registry.step] at hstep
    split at hstep
    · cases hstep
    · rename_i hguard
      simp only [not_or, not_not] at hguard
      obtain ⟨granted, -, rfl⟩ := Option.map_eq_some_iff.mp hstep
      intro k hk hid
      rcases List.mem_cons.mp hk with rfl | hk
      -- the new key has another id
      · exact absurd h.1 ((show id' = id from hid) ▸ hguard.2.1)
      · exact h.2 k hk hid
  | edit id' tenantId scopes revokedAt expiresAt =>
    simp only [Registry.step] at hstep
    split at hstep
    · cases hstep
    · cases hstep
      intro k hk hid
      rcases Table.mem_modify.mp hk with ⟨k', -, hk', rfl⟩ | ⟨hk, -⟩
      · exact absurd (hk'.symm.trans hid) (beq_eq_false_iff_ne.mp hedit)
      · exact h.2 k hk hid
  | revoke ids now valkey =>
    cases hstep
    intro k hk hid
    obtain ⟨k', hk', rfl⟩ := List.mem_map.mp hk
    exact ApiKey.revoke_isSome (h.2 k' hk' hid)
  | delete ids =>
    cases hstep
    exact fun k hk => h.2 k (List.mem_of_mem_filter hk)

theorem run_grows (hrun : r.run hasher events = some r') :
    r.minted <:+ r'.minted ∧ r.published <+: r'.published := by
  induction events generalizing r with
  | nil =>
    cases hrun
    exact ⟨List.suffix_refl _, List.prefix_refl _⟩
  | cons e events ih =>
    rw [run_cons] at hrun
    obtain ⟨next, hnext, hrest⟩ := Option.bind_eq_some_iff.mp hrun
    obtain ⟨hminted, hpublished⟩ := step_grows hnext
    exact ⟨hminted.trans (ih hrest).1, hpublished.trans (ih hrest).2⟩

theorem Out.run (h : Out id r) (hedits : ∀ e ∈ events, e.edits id = false)
    (hrun : r.run hasher events = some r') : Out id r' := by
  induction events generalizing r with
  | nil =>
    cases hrun
    exact h
  | cons e events ih =>
    rw [run_cons] at hrun
    obtain ⟨next, hnext, hrest⟩ := Option.bind_eq_some_iff.mp hrun
    exact ih (h.step (hedits e List.mem_cons_self) hnext)
      (fun e he => hedits e (List.mem_cons_of_mem _ he)) hrest

/-- A key that is out is answered like a key that never was. -/
theorem Out.admission (h : Out id r) (hsound : Sound hasher r) {m : MintedKey} (hm : m ∈ r.minted)
    (hid : m.id = id) : r.admission m.plaintext scope now = .error keyRequired := by
  unfold Registry.admission
  cases hfound : r.holder m.plaintext with
  | none => rfl
  | some k =>
    obtain ⟨hk, m', hm', hid', hplain⟩ := holder_some hfound
    obtain rfl := hsound.eq_of_plaintext hm' hm hplain
    dsimp only
    rw [h.2 k hk (hid'.symm.trans hid), Bool.true_or, if_pos rfl]

/-- **Revocation is final.**  Once `revoke_key` has gone over a key, its plaintext is answered like one
    that was never minted, whatever happens in between, unless somebody saves the row; and with Valkey
    at hand its eviction has been published. -/
theorem revoked_stays_out (hexact : hasher.Exact) (before after : List Event) (ids : List Uuid)
    (revokedAt : Int) (valkey : Bool) (m : MintedKey) (scheme : PyStr)
    (hbefore : ({} : Registry).run hasher before = some r)
    (hrevoke : r.step hasher (.revoke ids revokedAt valkey) = some r')
    (hafter : r'.run hasher after = some r'') (hm : m ∈ r.minted) (hid : m.id ∈ ids)
    (hedits : ∀ e ∈ after, e.edits m.id = false)
    (hscheme : scheme.map lowerChar = lit "bearer") :
    requireMachineKey hasher r'' (scheme ++ space :: m.plaintext) scope now = .error keyRequired ∧
      ∀ k ∈ r.keys, k.id = m.id → k.revokedAt = none → ∀ t, r.tenant? k = some t → valkey = true →
        (revokeChannel t.slug, m.id) ∈ r''.published := by
  have hsound := (sound_empty hasher).run hbefore
  have hout : Out m.id r' := by
    cases hrevoke
    refine ⟨List.mem_map_of_mem hm, fun k hk hkid => ?_⟩
    obtain ⟨k', -, rfl⟩ := List.mem_map.mp hk
    exact ApiKey.revoke_selected (hkid ▸ hid)
  have hsound'' := (hsound.step hrevoke).run hafter
  obtain ⟨hminted, hpublished⟩ := run_grows hafter
  refine ⟨?_, fun k hk hkid hnew t ht hvalkey => hpublished.subset ?_⟩
  · rw [hsound''.require_eq hexact, bearerToken_minted m hscheme]
    exact (hout.run hedits hafter).admission hsound''
      (hminted.subset ((step_grows hrevoke).1.subset hm)) rfl
  · cases hrevoke
    rw [hvalkey, if_pos rfl]
    refine List.mem_append_right _ (List.mem_filterMap.mpr ⟨k, List.mem_filter.mpr ⟨hk, ?_⟩, ?_⟩)
    · simp [selected, hkid, hid, hnew]
    · rw [ht, Option.map_some, hkid]

end Revocation

/-! ## A small history -/

/-- Hashes that are the texts themselves. -/
def plainHasher : Hasher := ⟨fun _ text => text, fun hash text => hash == text⟩

theorem plainHasher_exact : plainHasher.Exact := fun _ _ _ => beq_iff_eq

def toyToken : Token := ⟨List.replicate 43 0x61, List.length_replicate, by decide⟩

def toyTenant : Tenant := ⟨1, lit "acme", lit "Acme", true, []⟩

def toyMinting : List Event :=
  [.tenant toyTenant, .mint 7 1 toyToken 0 (.arr [.str (lit "rl:*")]) none]

def toyRegistry : Registry :=
  { tenants := [toyTenant]
    keys := [mintRow plainHasher ⟨7, toyToken⟩ 1 0 [.str (lit "rl:*")] none]
    minted := [⟨7, toyToken⟩] }

theorem require_refines_toy : requireMachineKey plainHasher toyRegistry
    (lit "Bearer " ++ (MintedKey.mk 7 toyToken).plaintext) (lit "rl:train") 0 =
      toyRegistry.admission (bearerToken (lit "Bearer " ++ (MintedKey.mk 7 toyToken).plaintext))
        (lit "rl:train") 0 :=
  require_refines plainHasher_exact toyMinting rfl _ _ _

theorem revoked_stays_out_toy : requireMachineKey plainHasher
    { toyRegistry with
      keys := toyRegistry.keys.map (ApiKey.revoke [7] 5)
      published := [(revokeChannel (lit "acme"), 7)] }
    (lit "bearer" ++ space :: (MintedKey.mk 7 toyToken).plaintext) (lit "rl:train") 9 =
      .error keyRequired :=
  (revoked_stays_out (r := toyRegistry) plainHasher_exact toyMinting [] [7] 5 true ⟨7, toyToken⟩
    (lit "bearer") rfl rfl rfl List.mem_cons_self List.mem_cons_self nofun rfl).1

end ControlPlane.MachineKeys
