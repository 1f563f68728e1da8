/-
  THE WEBHOOK ENDPOINT: `workos_webhook` and `_apply_event` on whatever JSON the body holds.

  The signature is checked, the body decoded and read; then `_apply_event` navigates the value.  A
  field that is falsy reads as "" nearly everywhere, but not in the NAMES of a user, where only a
  missing field does, and not in what the SLUG of an organization is made of, which must be a text.
  Columns are texts, so Django writes any other value as its `str`.

  1. `applyEvent` follows the source: what was written before an exception stays.
  2. Every branch gets through exactly under a condition on the event and the rows
     (`Kind.Accepts`, `applyKind_ok`), and then its second delivery changes nothing, but for a deletion
     by an id that two memberships carry (`applyKind_again`).
  3. So a signed body is processable exactly when it is none, no JSON, or such an event
     (`processable_iff`).

  The times at which rows were created and updated are left out, and so is what the caches hold; that
  the invalidation writes the user's id as JSON is not, since it may fail.
-/
import ControlPlane.Identity.Redelivery
import ControlPlane.JsonLoads
import ControlPlane.PyRepr
import ControlPlane.Utf8

namespace ControlPlane.Identity.Endpoint

/-! ## The setting -/

/-- The library with what the endpoint needs besides. -/
structure Backend extends Library where
  py : Interpreter
  /-- Which characters `repr` writes as they are. -/
  printable : CodePoint → Bool
  /-- How deep `str` goes before it raises `RecursionError`. -/
  strDepth : Nat
  /-- Whether the database takes a text as the parameter of a query. -/
  asks : PyStr → Bool
  /-- `hmac.new(secret.encode("utf-8"), payload, hashlib.sha256).hexdigest()`. -/
  hexdigest : PyStr → List UInt8 → PyStr

/-- What ends the handling of a request without an answer. -/
inductive Uncaught where
  | attributeError
  | typeError
  | valueError
  | recursionError
  /-- A parameter of a query that the database or its driver does not take. -/
  | parameter
  | database (failure : Failure)
  deriving DecidableEq, Repr

structure Request where
  body : List UInt8
  workosSignature : Option PyStr := none
  xWorkosSignature : Option PyStr := none

/-! ## Values -/

/-- `data.get(key)`. -/
def field (data : List (PyStr × Json)) (key : String) : Json := (Json.get? data key).getD .null

/-- `data.get(key, "")`. -/
def fieldOr (data : List (PyStr × Json)) (key : String) : Json := (Json.get? data key).getD (.str [])

/-- `a or b`. -/
def either (a b : Json) : Json := if a.truthy then a else b

/-- `data.get(key) or ""`. -/
def orEmpty (data : List (PyStr × Json)) (key : String) : Json := either (field data key) (.str [])

/-- `first + " " + last`. -/
def concat : Json → Json → Except Uncaught PyStr
  | .str first, .str last => .ok (first ++ [0x20] ++ last)
  | _, _ => .error .typeError

/-- The role of a membership: the `slug` of an object, or the value itself. -/
def role (value : Json) : Role :=
  let value := match value with
    | .obj fields => field fields "slug"
    | value => value
  match value with
  | .str text => RoleData.role (.text text)
  | _ => .member

/-- The event types that write something. -/
inductive Kind where
  | userUpsert
  | userDeleted
  | organizationUpsert
  | membershipUpsert
  | membershipDeleted
  deriving DecidableEq, Repr

/-- The branch that an event type takes; a value that is no text equals none of them. -/
def kind : Json → Option Kind
  | .str text =>
      let among (names : List String) : Bool := text ∈ names.map PyStr.lit
      if among ["user.created", "user.updated"] then some .userUpsert
      else if among ["user.deleted"] then some .userDeleted
      else if among ["organization.created", "organization.updated"] then some .organizationUpsert
      else if among ["organization_membership.created", "organization_membership.updated"] then
        some .membershipUpsert
      else if among ["organization_membership.deleted"] then some .membershipDeleted
      else none
  | _ => none

section Backend

variable (be : Backend)

/-- `str(value)`. -/
def Backend.str (value : Json) : Except Uncaught PyStr :=
  if be.strDepth < value.depth then .error .recursionError
  else .ok (value.pyStr be.printable be.py.repr)

/-- A value as the parameter of a query. -/
def Backend.parameter (value : Json) : Except Uncaught PyStr := do
  let text ← be.str value
  if be.asks text then .ok text else .error .parameter

/-- `text.lower().replace(" ", "-")[:128]`. -/
def Backend.slugged (text : PyStr) : PyStr :=
  ((be.lower text).map fun c => if c = 0x20 then 0x2D else c).take 128

/-- The same of any value. -/
def Backend.slugOf : Json → Except Uncaught PyStr
  | .str text => .ok (be.slugged text)
  | _ => .error .attributeError

/-- What `invalidate_membership(tenant_slug, user_id)` raises. -/
def Backend.invalidate (tenantSlug : PyStr) (userId : Json) : Option Uncaught :=
  if tenantSlug = [] ∨ userId.truthy = false then none
  else if be.strDepth < userId.depth ∨ be.py.writeDepth < userId.depth then some .recursionError
  else none

/-! ## `_apply_event` -/

variable (draw : Draw)

/-- The directory after a write, or as it was when the write raises. -/
def kept (db : Directory) : Except Uncaught Directory → Directory × Option Uncaught
  | .ok db' => (db', none)
  | .error e => (db, some e)

/-- `User.objects.update_or_create(…)` with what the event has. -/
def writeUser (data : List (PyStr × Json)) (db : Directory) : Except Uncaught Directory := do
  let displayName ← concat (fieldOr data "first_name") (fieldOr data "last_name")
  let id ← be.parameter (orEmpty data "id")
  let email ← be.str (orEmpty data "email")
  (upsertUser be.toLibrary draw db id email displayName).mapError .database

/-- `user.created` and `user.updated`. -/
def applyUser (data : List (PyStr × Json)) (db : Directory) : Directory × Option Uncaught :=
  if (orEmpty data "id").truthy then kept db (writeUser be draw data db) else (db, none)

def deactivated (u : User) : User := { u with isActive := false }

/-- `User.objects.filter(workos_user_id=workos_id).update(is_active=False)`. -/
def deactivateUser (data : List (PyStr × Json)) (db : Directory) : Except Uncaught Directory := do
  let id ← be.parameter (orEmpty data "id")
  pure { db with users := Table.modify User.workosUserId id deactivated db.users }

/-- `user.deleted`. -/
def applyUserDeleted (data : List (PyStr × Json)) (db : Directory) : Directory × Option Uncaught :=
  kept db (deactivateUser be data db)

/-- `Tenant.objects.update_or_create(…)` with what the event has. -/
def writeTenant (data : List (PyStr × Json)) (db : Directory) : Except Uncaught Directory := do
  let orgId := orEmpty data "id"
  let slug ← be.slugOf (either (field data "slug") (either (field data "name") orgId))
  let id ← be.parameter orgId
  let displayName ← be.str (either (field data "name") (.str slug))
  (upsertTenant be.toLibrary draw db id slug displayName).mapError .database

/-- `organization.created` and `organization.updated`. -/
def applyOrganization (data : List (PyStr × Json)) (db : Directory) : Directory × Option Uncaught :=
  if (orEmpty data "id").truthy then kept db (writeTenant be draw data db) else (db, none)

/-- The tenant of the organization, and the user, who is created where there is none. -/
def parties (orgId userId : Json) (db : Directory) :
    Except Uncaught (Option Tenant × Directory × User) := do
  let organizationId ← be.parameter orgId
  let workosId ← be.parameter userId
  let (db', user) ← (getOrCreateUser be.toLibrary draw db workosId).mapError .database
  pure (db.tenantOf organizationId, db', user)

/-- `Membership.objects.update_or_create(tenant=tenant, user=user, defaults=…)`. -/
def saveMembership (data : List (PyStr × Json)) (memberships : Memberships) (tenant user : Uuid) :
    Except Uncaught Memberships := do
  let id ← be.str (orEmpty data "id")
  (memberships.updateOrCreate be.toLibrary draw.membership tenant user (role (field data "role"))
    id).mapError .database

/-- `organization_membership.created` and `organization_membership.updated`.  A user that was created
    here has the id as the event has it, not as its text. -/
def applyMembership (data : List (PyStr × Json)) (db : Directory) : Directory × Option Uncaught :=
  let orgId := orEmpty data "organization_id"
  let userId := orEmpty data "user_id"
  if orgId.truthy ∧ userId.truthy then
    match parties be draw orgId userId db with
    | .error e => (db, some e)
    | .ok (none, db', _) => (db', none)
    | .ok (some tenant, db', user) =>
        match saveMembership be draw data db'.memberships tenant.id user.id with
        | .error e => (db', some e)
        | .ok memberships =>
            let known := (db.userOf user.workosUserId).isSome
            ({ db' with memberships := memberships },
              be.invalidate tenant.slug (if known then .str user.workosUserId else userId))
  else (db, none)

/-- `organization_membership.deleted`. -/
def applyMembershipDeleted (data : List (PyStr × Json)) (db : Directory) :
    Directory × Option Uncaught :=
  let orgId := orEmpty data "organization_id"
  let userId := orEmpty data "user_id"
  match be.parameter (orEmpty data "id") with
  | .error e => (db, some e)
  | .ok id => match db.memberships.first id with
    | some m => ({ db with memberships := db.memberships.delete m }, none)
    | none =>
        if orgId.truthy ∧ userId.truthy then
          match be.parameter orgId with
          | .error e => (db, some e)
          | .ok organizationId => match db.tenantOf organizationId with
            | some tenant => (db, be.invalidate tenant.slug userId)
            | none => (db, none)
        else (db, none)

def applyKind : Kind → List (PyStr × Json) → Directory → Directory × Option Uncaught
  | .userUpsert => applyUser be draw
  | .userDeleted => applyUserDeleted be
  | .organizationUpsert => applyOrganization be draw
  | .membershipUpsert => applyMembership be draw
  | .membershipDeleted => applyMembershipDeleted be

/-- `_apply_event`; only an object has a `get`. -/
def applyEvent (event : Json) (db : Directory) : Directory × Option Uncaught :=
  match event with
  | .obj fields => match kind (either (field fields "event") (orEmpty fields "type")) with
    | none => (db, none)
    | some kind => match either (field fields "data") (.obj []) with
      | .obj data => applyKind be draw kind data db
      | _ => (db, some .attributeError)
  | _ => (db, some .attributeError)

/-! ## `workos_webhook` -/

/-- The `v1=` part of the header, or all of it. -/
def token (header : PyStr) : PyStr :=
  let parts := (header.splitOn (0x2C : CodePoint)).map PyStr.strip
  match parts.find? fun part => (PyStr.lit "v1=").isPrefixOf part with
  | some part => part.drop 3
  | none => header

/-- `verify_workos_signature`; `compare_digest` raises on a text that is not ASCII. -/
def verifyWorkosSignature (payload : List UInt8) (signatureHeader : Option PyStr) (secret : PyStr) :
    Except Uncaught Bool :=
  match signatureHeader with
  | none => .ok false
  | some header =>
      if header = [] ∨ secret = [] then .ok false
      else if (token header).all (fun c => c.val < 0x80) then
        .ok (be.hexdigest secret payload = token header)
      else .error .typeError

/-- `headers.get("WorkOS-Signature") or headers.get("X-WorkOS-Signature")`. -/
def Request.signature (request : Request) : Option PyStr :=
  match request.workosSignature with
  | none | some [] => request.xWorkosSignature
  | some header => some header

variable (secret : PyStr)

/-- `workos_webhook`: the status of the answer, or what was raised. -/
def workosWebhook (request : Request) (db : Directory) : Directory × Except Uncaught Nat :=
  match verifyWorkosSignature be request.body request.signature secret with
  | .error e => (db, .error e)
  | .ok false => (db, .ok 401)
  | .ok true => match PyStr.decode request.body with
    | none => (db, .ok 400)
    | some text => match JsonReader.read be.py text with
      | .error .malformed => (db, .ok 400)
      | .error .intDigits => (db, .error .valueError)
      | .error .recursion => (db, .error .recursionError)
      | .ok event => match applyEvent be draw event db with
        | (db', none) => (db', .ok 200)
        | (db', some e) => (db', .error e)

end Backend

/-! ## When a branch gets through -/

section Accepted

variable (be : Backend) (draw : Draw)

/-- What is written of a value. -/
def Backend.text (value : Json) : PyStr := value.pyStr be.printable be.py.repr

/-- `str` writes the value, and a query takes it. -/
def Backend.Asks (value : Json) : Prop :=
  value.depth ≤ be.strDepth ∧ be.asks (be.text value) = true

/-- The names are texts or missing, the columns take the texts, and there is room for the user. -/
def UserAccepted (data : List (PyStr × Json)) (db : Directory) : Prop :=
  ∃ first last, fieldOr data "first_name" = .str first ∧ fieldOr data "last_name" = .str last ∧
    be.Asks (orEmpty data "id") ∧ (orEmpty data "email").depth ≤ be.strDepth ∧
    (be.takes 128 (be.text (orEmpty data "id")) = true ∧
      be.takes 254 (be.text (orEmpty data "email")) = true ∧
      be.takes 255 (first ++ [0x20] ++ last) = true) ∧
    Room User.workosUserId User.id db.users (be.text (orEmpty data "id")) draw.user

/-- The first of slug, name and id that is truthy is a text, the columns take the texts, no tenant of
    another organization has the slug, and there is room for the tenant. -/
def OrganizationAccepted (data : List (PyStr × Json)) (db : Directory) : Prop :=
  let orgId := orEmpty data "id"
  ∃ text, either (field data "slug") (either (field data "name") orgId) = .str text ∧
    be.Asks orgId ∧
    (either (field data "name") (.str (be.slugged text))).depth ≤ be.strDepth ∧
    (be.takes 128 (be.text orgId) = true ∧ be.takes 128 (be.slugged text) = true ∧
      be.takes 255 (be.text (either (field data "name") (.str (be.slugged text)))) = true) ∧
    db.SlugFree (be.text orgId) (be.slugged text) ∧
    Room Tenant.workosOrganizationId Tenant.id db.tenants (be.text orgId) draw.tenant

/-- The membership can be written: its column takes the id, and there is room for it. -/
def MembershipAccepted (data : List (PyStr × Json)) (db : Directory) (tenant : Tenant) : Prop :=
  let id := orEmpty data "id"
  let userId := orEmpty data "user_id"
  let user := db.userOf (be.text userId)
  id.depth ≤ be.strDepth ∧ be.takes 128 (be.text id) = true ∧
    ((tenant.id, user.elim draw.user User.id) ∉ db.memberships.rows.map Membership.pair →
      draw.membership ∉ db.memberships.rows.map Membership.id) ∧
    (user = none → tenant.slug = [] ∨ userId.depth ≤ be.py.writeDepth)

/-- The user is known or can be created; so can the membership where the organization is known. -/
def PartiesAccepted (data : List (PyStr × Json)) (db : Directory) : Prop :=
  let orgId := orEmpty data "organization_id"
  let userId := orEmpty data "user_id"
  be.Asks orgId ∧ be.Asks userId ∧
    Room User.workosUserId User.id db.users (be.text userId) draw.user ∧
    (db.userOf (be.text userId) = none → be.takes 128 (be.text userId) = true) ∧
    ∀ tenant, db.tenantOf (be.text orgId) = some tenant → MembershipAccepted be draw data db tenant

/-- Where no membership carries the id, the organization is looked up and the user's id is written
    for the invalidation. -/
def DeletionAccepted (data : List (PyStr × Json)) (db : Directory) : Prop :=
  let orgId := orEmpty data "organization_id"
  let userId := orEmpty data "user_id"
  be.Asks (orEmpty data "id") ∧
    (db.memberships.first (be.text (orEmpty data "id")) = none →
      orgId.truthy = true → userId.truthy = true → be.Asks orgId ∧
        ∀ tenant, db.tenantOf (be.text orgId) = some tenant → tenant.slug = [] ∨
          (userId.depth ≤ be.strDepth ∧ userId.depth ≤ be.py.writeDepth))

/-- The event gets through. -/
def Kind.Accepts : Kind → List (PyStr × Json) → Directory → Prop
  | .userUpsert, data, db => (orEmpty data "id").truthy = true → UserAccepted be draw data db
  | .userDeleted, data, _ => be.Asks (orEmpty data "id")
  | .organizationUpsert, data, db =>
      (orEmpty data "id").truthy = true → OrganizationAccepted be draw data db
  | .membershipUpsert, data, db => (orEmpty data "organization_id").truthy = true →
      (orEmpty data "user_id").truthy = true → PartiesAccepted be draw data db
  | .membershipDeleted, data, db => DeletionAccepted be data db

/-- A second delivery finds nothing more to delete. -/
def Kind.Repeatable : Kind → List (PyStr × Json) → Directory → Prop
  | .membershipDeleted, data, db => db.memberships.Single (be.text (orEmpty data "id"))
  | _, _, _ => True

end Accepted

section Parameters

variable {be : Backend} {draw draw' : Draw} {db db' : Directory} {data : List (PyStr × Json)}
  {value : Json} {text : PyStr}

theorem str_ok : be.str value = .ok text ↔ value.depth ≤ be.strDepth ∧ be.text value = text := by
  unfold Backend.str Backend.text
  split
  · rename_i hdeep
    exact iff_of_false nofun fun h => absurd h.1 (not_le_of_gt hdeep)
  · rename_i hdeep
    rw [Except.ok.injEq, and_iff_right (not_lt.mp hdeep)]

theorem parameter_ok : be.parameter value = .ok text ↔ be.Asks value ∧ be.text value = text := by
  unfold Backend.parameter Backend.Asks
  rw [Fallible.bind_ok]
  constructor
  · rintro ⟨a, ha, hasks⟩
    obtain ⟨hdepth, rfl⟩ := str_ok.mp ha
    rcases Fallible.ite_ok hasks with ⟨hasks, heq⟩ | ⟨-, heq⟩
    · exact ⟨⟨hdepth, hasks⟩, Except.ok.inj heq⟩
    · cases heq
  · rintro ⟨⟨hdepth, hasks⟩, rfl⟩
    exact ⟨_, str_ok.mpr ⟨hdepth, rfl⟩, if_pos hasks⟩

/-- What is not known to raise does not. -/
theorem kept_ok {x : Except Uncaught Directory} : (kept db x).2 = none ↔ x.isOk = true := by
  cases x with
  | ok db' => exact iff_of_true rfl rfl
  | error e => exact iff_of_false nofun nofun

theorem bind_isOk {α β : Type} {x : Except Uncaught α} {g : α → Except Uncaught β} :
    (x >>= g).isOk = true ↔ ∃ a, x = .ok a ∧ (g a).isOk = true := by
  cases x with
  | ok a => exact ⟨fun h => ⟨a, rfl, h⟩, fun ⟨_, h, hg⟩ => Except.ok.inj h ▸ hg⟩
  | error e => exact iff_of_false nofun fun ⟨_, h, _⟩ => nomatch h

theorem mapError_isOk {α : Type} {x : Except Failure α} :
    (x.mapError Uncaught.database).isOk = x.isOk := by
  cases x <;> rfl

theorem concat_ok {first last : Json} : concat first last = .ok text ↔
    ∃ a b, first = .str a ∧ last = .str b ∧ a ++ [0x20] ++ b = text := by
  unfold concat
  split
  · rw [Except.ok.injEq]
    exact ⟨fun h => ⟨_, _, rfl, rfl, h⟩, fun ⟨_, _, ha, hb, h⟩ => by
      rw [Json.str.inj ha, Json.str.inj hb, h]⟩
  · rename_i hne
    exact iff_of_false nofun fun ⟨a, b, ha, hb, _⟩ => hne a b ha hb

theorem slugOf_ok : be.slugOf value = .ok text ↔ ∃ raw, value = .str raw ∧ be.slugged raw = text := by
  unfold Backend.slugOf
  split
  · rw [Except.ok.injEq]
    exact ⟨fun h => ⟨_, rfl, h⟩, fun ⟨_, hraw, h⟩ => by rw [Json.str.inj hraw, h]⟩
  · rename_i hne
    exact iff_of_false nofun fun ⟨raw, hraw, _⟩ => hne raw hraw

end Parameters

section Branches

variable {be : Backend} {draw draw' : Draw} {db db' : Directory} {data : List (PyStr × Json)}

/-! ### Users and organizations -/

theorem applyUser_ok : (applyUser be draw data db).2 = none ↔
    Kind.Accepts be draw .userUpsert data db := by
  unfold applyUser writeUser Kind.Accepts
  dsimp only
  split
  · rename_i hid
    rw [kept_ok, forall_prop_of_true hid]
    simp only [bind_isOk, mapError_isOk, upsertUser_isOk, concat_ok, parameter_ok, str_ok]
    constructor
    · rintro ⟨_, ⟨first, last, hfirst, hlast, rfl⟩, _, ⟨hasks, rfl⟩, _, ⟨hdepth, rfl⟩, htakes, hroom⟩
      exact ⟨first, last, hfirst, hlast, hasks, hdepth, htakes, hroom⟩
    · rintro ⟨first, last, hfirst, hlast, hasks, hdepth, htakes, hroom⟩
      exact ⟨_, ⟨first, last, hfirst, hlast, rfl⟩, _, ⟨hasks, rfl⟩, _, ⟨hdepth, rfl⟩, htakes, hroom⟩
  · rename_i hid
    exact iff_of_true rfl fun h => absurd h hid

theorem applyUserDeleted_ok : (applyUserDeleted be data db).2 = none ↔
    Kind.Accepts be draw .userDeleted data db := by
  unfold applyUserDeleted deactivateUser Kind.Accepts
  dsimp only
  rw [kept_ok]
  simp only [bind_isOk, parameter_ok]
  constructor
  · rintro ⟨_, ⟨hasks, -⟩, -⟩
    exact hasks
  · intro hasks
    exact ⟨_, ⟨hasks, rfl⟩, rfl⟩

theorem applyOrganization_ok : (applyOrganization be draw data db).2 = none ↔
    Kind.Accepts be draw .organizationUpsert data db := by
  unfold applyOrganization writeTenant Kind.Accepts
  dsimp only
  split
  · rename_i hid
    rw [kept_ok, forall_prop_of_true hid]
    simp only [bind_isOk, mapError_isOk, upsertTenant_isOk, slugOf_ok, parameter_ok, str_ok]
    constructor
    · rintro ⟨_, ⟨raw, hraw, rfl⟩, _, ⟨hasks, rfl⟩, _, ⟨hdepth, rfl⟩, htakes, hfree, hroom⟩
      exact ⟨raw, hraw, hasks, hdepth, htakes, hfree, hroom⟩
    · rintro ⟨raw, hraw, hasks, hdepth, htakes, hfree, hroom⟩
      exact ⟨_, ⟨raw, hraw, rfl⟩, _, ⟨hasks, rfl⟩, _, ⟨hdepth, rfl⟩, htakes, hfree, hroom⟩
  · rename_i hid
    exact iff_of_true rfl fun h => absurd h hid

/-! ### Memberships -/

section Parties

variable {orgId userId : Json} {tenant : Option Tenant} {user : User}

theorem parties_ok : parties be draw orgId userId db = .ok (tenant, db', user) ↔
    be.Asks orgId ∧ be.Asks userId ∧
      getOrCreateUser be.toLibrary draw db (be.text userId) = .ok (db', user) ∧
      db.tenantOf (be.text orgId) = tenant := by
  unfold parties
  simp only [Fallible.bind_ok, Fallible.mapError_ok, parameter_ok, Prod.exists]
  constructor
  · rintro ⟨_, ⟨horg, rfl⟩, _, ⟨huser, rfl⟩, d, u, hget, heq⟩
    cases heq
    exact ⟨horg, huser, hget, rfl⟩
  · rintro ⟨horg, huser, hget, rfl⟩
    exact ⟨_, ⟨horg, rfl⟩, _, ⟨huser, rfl⟩, db', user, hget, rfl⟩

theorem parties_exists : (∃ r, parties be draw orgId userId db = .ok r) ↔
    be.Asks orgId ∧ be.Asks userId ∧
      Room User.workosUserId User.id db.users (be.text userId) draw.user ∧
      (db.userOf (be.text userId) = none → be.takes 128 (be.text userId) = true) := by
  constructor
  · rintro ⟨⟨tenant, db', user⟩, h⟩
    obtain ⟨horg, huser, hget, -⟩ := parties_ok.mp h
    exact ⟨horg, huser, getOrCreateUser_isOk.mp (Fallible.isOk_iff.mpr ⟨_, hget⟩)⟩
  · rintro ⟨horg, huser, hroom⟩
    obtain ⟨⟨db', user⟩, hget⟩ := Fallible.isOk_iff.mp (getOrCreateUser_isOk.mpr hroom)
    exact ⟨_, parties_ok.mpr ⟨horg, huser, hget, rfl⟩⟩

theorem invalidate_none {slug : PyStr} : be.invalidate slug userId = none ↔
    slug = [] ∨ userId.truthy = false ∨
      (userId.depth ≤ be.strDepth ∧ userId.depth ≤ be.py.writeDepth) := by
  unfold Backend.invalidate
  by_cases hskip : slug = [] ∨ userId.truthy = false
  · rw [if_pos hskip, ← or_assoc]
    exact iff_of_true rfl (Or.inl hskip)
  · rw [if_neg hskip, ← or_assoc, or_iff_right hskip]
    by_cases hdeep : be.strDepth < userId.depth ∨ be.py.writeDepth < userId.depth
    · rw [if_pos hdeep]
      refine iff_of_false nofun fun h => ?_
      rcases hdeep with hdeep | hdeep
      · exact absurd h.1 (not_le_of_gt hdeep)
      · exact absurd h.2 (not_le_of_gt hdeep)
    · rw [if_neg hdeep]
      obtain ⟨hstr, hwrite⟩ := not_or.mp hdeep
      exact iff_of_true rfl ⟨not_lt.mp hstr, not_lt.mp hwrite⟩

theorem invalidate_text {slug workosId : PyStr} : be.invalidate slug (.str workosId) = none :=
  invalidate_none.mpr (Or.inr (Or.inr ⟨Nat.zero_le _, Nat.zero_le _⟩))

end Parties

theorem saveMembership_ok {ms ms' : Memberships} {tenant user : Uuid} :
    saveMembership be draw data ms tenant user = .ok ms' ↔
      (orEmpty data "id").depth ≤ be.strDepth ∧
        ms.updateOrCreate be.toLibrary draw.membership tenant user (role (field data "role"))
          (be.text (orEmpty data "id")) = .ok ms' := by
  unfold saveMembership
  simp only [Fallible.bind_ok, Fallible.mapError_ok, str_ok]
  constructor
  · rintro ⟨_, ⟨hdepth, rfl⟩, hsave⟩
    exact ⟨hdepth, hsave⟩
  · rintro ⟨hdepth, hsave⟩
    exact ⟨_, ⟨hdepth, rfl⟩, hsave⟩

theorem saveMembership_exists {ms : Memberships} {tenant user : Uuid} :
    (∃ ms', saveMembership be draw data ms tenant user = .ok ms') ↔
      (orEmpty data "id").depth ≤ be.strDepth ∧ be.takes 128 (be.text (orEmpty data "id")) = true ∧
        ((tenant, user) ∉ ms.rows.map Membership.pair →
          draw.membership ∉ ms.rows.map Membership.id) := by
  rw [← @Memberships.updateOrCreate_isOk be.toLibrary ms draw.membership tenant user
    (role (field data "role"))]
  simp only [saveMembership_ok, Fallible.isOk_iff, exists_and_left]

theorem applyMembership_ok : (applyMembership be draw data db).2 = none ↔
    Kind.Accepts be draw .membershipUpsert data db := by
  unfold applyMembership Kind.Accepts PartiesAccepted
  dsimp only
  by_cases hids : (orEmpty data "organization_id").truthy = true ∧
      (orEmpty data "user_id").truthy = true
  · rw [if_pos hids, forall_prop_of_true hids.1, forall_prop_of_true hids.2]
    cases hparties : parties be draw (orEmpty data "organization_id") (orEmpty data "user_id") db with
    | error e =>
      refine iff_of_false nofun ?_
      rintro ⟨horg, huser, hroom, htakes, -⟩
      obtain ⟨r, hr⟩ := parties_exists.mpr ⟨horg, huser, hroom, htakes⟩
      exact nomatch hparties.symm.trans hr
    | ok r =>
      obtain ⟨horg, huser, hroom, htakes⟩ := parties_exists.mp ⟨r, hparties⟩
      simp only [horg, huser, hroom, true_and, and_iff_right htakes]
      obtain ⟨tenant, db', user⟩ := r
      obtain ⟨-, -, hget, htenant⟩ := parties_ok.mp hparties
      cases tenant with
      | none => exact iff_of_true rfl fun tenant h => nomatch htenant.symm.trans h
      | some tenant =>
        rw [htenant]
        simp only [Option.some.injEq, forall_eq']
        obtain ⟨-, hkey, -, hsame, hid⟩ := getOrCreateUser_ok hget
        unfold MembershipAccepted
        dsimp only
        rw [← hid, ← hsame, hkey]
        cases hsave : saveMembership be draw data db'.memberships tenant.id user.id with
        | error e =>
          refine iff_of_false nofun ?_
          rintro ⟨hdepth, htake, hfresh, -⟩
          obtain ⟨ms', hms'⟩ := saveMembership_exists.mpr ⟨hdepth, htake, hfresh⟩
          exact nomatch hsave.symm.trans hms'
        | ok ms' =>
          obtain ⟨hdepth, htake, hfresh⟩ := saveMembership_exists.mp ⟨ms', hsave⟩
          simp only [hdepth, htake, true_and, and_iff_right hfresh]
          cases hknown : db.userOf (be.text (orEmpty data "user_id")) with
          | some known => exact iff_of_true invalidate_text nofun
          | none =>
            simp only [Option.isSome_none, Bool.false_eq_true, if_false, invalidate_none, hids.2,
              Bool.true_eq_false, false_or, huser.1, true_and, forall_const]
  · rw [if_neg hids]
    exact iff_of_true rfl fun horg huser => absurd ⟨horg, huser⟩ hids

theorem parameter_error {value : Json} {e : Uncaught} (h : be.parameter value = .error e) :
    ¬ be.Asks value := fun hasks => nomatch h.symm.trans (parameter_ok.mpr ⟨hasks, rfl⟩)

theorem applyMembershipDeleted_ok : (applyMembershipDeleted be data db).2 = none ↔
    DeletionAccepted be data db := by
  unfold applyMembershipDeleted DeletionAccepted
  dsimp only
  cases hid : be.parameter (orEmpty data "id") with
  | error e => exact iff_of_false nofun fun h => parameter_error hid h.1
  | ok id =>
    obtain ⟨hasks, rfl⟩ := parameter_ok.mp hid
    rw [and_iff_right hasks]
    dsimp only
    cases db.memberships.first (be.text (orEmpty data "id")) with
    | some m => exact iff_of_true rfl nofun
    | none =>
      rw [forall_prop_of_true rfl]
      by_cases hids : (orEmpty data "organization_id").truthy = true ∧
          (orEmpty data "user_id").truthy = true
      · simp only [hids, true_and, if_true, forall_const]
        cases horg : be.parameter (orEmpty data "organization_id") with
        | error e => exact iff_of_false nofun fun h => parameter_error horg h.1
        | ok org =>
          obtain ⟨hasks', rfl⟩ := parameter_ok.mp horg
          rw [and_iff_right hasks']
          dsimp only
          cases db.tenantOf (be.text (orEmpty data "organization_id")) with
          | none => exact iff_of_true rfl nofun
          | some tenant =>
            simp only [Option.some.injEq, forall_eq', invalidate_none, hids.2, Bool.true_eq_false,
              false_or]
      · simp only [hids, if_false, true_iff]
        exact fun horg huser => absurd ⟨horg, huser⟩ hids

/-- A branch gets through exactly when its event is accepted. -/
theorem applyKind_ok {kind : Kind} :
    (applyKind be draw kind data db).2 = none ↔ kind.Accepts be draw data db := by
  cases kind with
  | userUpsert => exact applyUser_ok
  | userDeleted => exact applyUserDeleted_ok
  | organizationUpsert => exact applyOrganization_ok
  | membershipUpsert => exact applyMembership_ok
  | membershipDeleted => exact applyMembershipDeleted_ok

/-! ### The second delivery -/

/-- What a write that gets through leaves is not changed by the same write. -/
theorem kept_again {write write' : Directory → Except Uncaught Directory}
    (hagain : ∀ db', write db = .ok db' → write' db' = .ok db')
    (h : (kept db (write db)).2 = none) :
    (kept (kept db (write db)).1 (write' (kept db (write db)).1)).1 = (kept db (write db)).1 := by
  obtain ⟨db', hdb'⟩ := Fallible.isOk_iff.mp (kept_ok.mp h)
  rw [hdb']
  show (kept db' (write' db')).1 = db'
  rw [hagain db' hdb']
  rfl

theorem applyUser_again (h : (applyUser be draw data db).2 = none) :
    (applyUser be draw' data (applyUser be draw data db).1).1 = (applyUser be draw data db).1 := by
  unfold applyUser at h ⊢
  split
  · rename_i hid
    rw [if_pos hid] at h
    refine kept_again (fun db' hdb' => ?_) h
    unfold writeUser at hdb' ⊢
    simp only [Fallible.bind_ok, Fallible.mapError_ok] at hdb' ⊢
    obtain ⟨name, hname, id, hid', email, hemail, hwrite⟩ := hdb'
    exact ⟨name, hname, id, hid', email, hemail, upsertUser_again hwrite⟩
  · rfl

theorem applyUserDeleted_again (h : (applyUserDeleted be data db).2 = none) :
    (applyUserDeleted be data (applyUserDeleted be data db).1).1 =
      (applyUserDeleted be data db).1 := by
  refine kept_again (fun db' hdb' => ?_) h
  unfold deactivateUser at hdb' ⊢
  obtain ⟨id, hid, heq⟩ := Fallible.bind_ok.mp hdb'
  cases heq
  refine Fallible.bind_ok.mpr ⟨id, hid, ?_⟩
  have hsame : Table.modify User.workosUserId id deactivated
      (Table.modify User.workosUserId id deactivated db.users) =
        Table.modify User.workosUserId id deactivated db.users :=
    Table.modify_modify (fun _ => rfl) fun _ => rfl
  exact congrArg (fun users => Except.ok { db with users := users }) hsame

theorem applyOrganization_again (h : (applyOrganization be draw data db).2 = none) :
    (applyOrganization be draw' data (applyOrganization be draw data db).1).1 =
      (applyOrganization be draw data db).1 := by
  unfold applyOrganization at h ⊢
  split
  · rename_i hid
    rw [if_pos hid] at h
    refine kept_again (fun db' hdb' => ?_) h
    unfold writeTenant at hdb' ⊢
    simp only [Fallible.bind_ok, Fallible.mapError_ok] at hdb' ⊢
    obtain ⟨slug, hslug, id, hid', name, hname, hwrite⟩ := hdb'
    exact ⟨slug, hslug, id, hid', name, hname, upsertTenant_again hwrite⟩
  · rfl

theorem applyMembership_again (h : (applyMembership be draw data db).2 = none) :
    (applyMembership be draw' data (applyMembership be draw data db).1).1 =
      (applyMembership be draw data db).1 := by
  unfold applyMembership at h ⊢
  dsimp only at h ⊢
  by_cases hids : (orEmpty data "organization_id").truthy = true ∧
      (orEmpty data "user_id").truthy = true
  · simp only [if_pos hids] at h ⊢
    cases hparties : parties be draw (orEmpty data "organization_id") (orEmpty data "user_id") db with
    | error e => simp only [hparties, reduceCtorEq] at h
    | ok r =>
      obtain ⟨tenant, db', user⟩ := r
      obtain ⟨horg, huser, hget, htenant⟩ := parties_ok.mp hparties
      obtain ⟨hone, -, htenants, -, -⟩ := getOrCreateUser_ok hget
      -- the parties of any directory with these tenants and users
      have hagain : ∀ memberships,
          parties be draw' (orEmpty data "organization_id") (orEmpty data "user_id")
            { db' with memberships := memberships } =
              .ok (tenant, { db' with memberships := memberships }, user) := by
        intro memberships
        refine parties_ok.mpr ⟨horg, huser, getOrCreateUser_found hone, ?_⟩
        rw [← htenant, Directory.tenantOf, Directory.tenantOf, htenants]
      cases tenant with
      | none =>
        simp only [hagain db'.memberships]
      | some tenant =>
        simp only [hparties] at h ⊢
        rcases Fallible.ok_or_error (saveMembership be draw data db'.memberships tenant.id user.id)
          with ⟨ms', hsave⟩ | ⟨e, hsave⟩
        · obtain ⟨hdepth, hwrite⟩ := saveMembership_ok.mp hsave
          have hsave' : saveMembership be draw' data ms' tenant.id user.id = .ok ms' :=
            saveMembership_ok.mpr ⟨hdepth, Memberships.updateOrCreate_again hwrite⟩
          simp only [hsave, hagain ms', hsave']
        · simp only [hsave, reduceCtorEq] at h
  · simp only [if_neg hids]

/-- A deletion that gets through is repeated without effect exactly when no two memberships carry its
    id. -/
theorem applyMembershipDeleted_again (h : (applyMembershipDeleted be data db).2 = none) :
    (applyMembershipDeleted be data (applyMembershipDeleted be data db).1).1 =
        (applyMembershipDeleted be data db).1 ↔
      db.memberships.Single (be.text (orEmpty data "id")) := by
  have hrows : ∀ d, be.Asks (orEmpty data "id") → (applyMembershipDeleted be data d).1 =
      match d.memberships.first (be.text (orEmpty data "id")) with
      | some m => { d with memberships := d.memberships.delete m }
      | none => d := by
    intro d hasks
    unfold applyMembershipDeleted
    simp only [parameter_ok.mpr ⟨hasks, rfl⟩]
    cases d.memberships.first (be.text (orEmpty data "id")) with
    | some m => rfl
    | none =>
      dsimp only
      split
      · split
        · rfl
        · split
          · rfl
          · rfl
      · rfl
  have hasks : be.Asks (orEmpty data "id") := (applyMembershipDeleted_ok.mp h).1
  rw [hrows _ hasks, hrows db hasks]
  cases hfirst : db.memberships.first (be.text (orEmpty data "id")) with
  | none =>
    simp only [hfirst, true_iff]
    intro m hm m' _ hid
    exact absurd hid (Memberships.first_eq_none.mp hfirst m hm)
  | some m =>
    rw [← Memberships.first_delete hfirst]
    dsimp only
    cases hnext : (db.memberships.delete m).first (be.text (orEmpty data "id")) with
    | none => exact iff_of_true rfl rfl
    | some m' =>
      refine iff_of_false (fun heq => ?_) nofun
      have hmem := (Memberships.first_some hnext).1
      exact Memberships.delete_ne hmem (congrArg Directory.memberships heq)

/-- A branch that gets through leaves nothing to a second delivery, but for a deletion by an id that
    two memberships carry. -/
theorem applyKind_again {kind : Kind} (h : (applyKind be draw kind data db).2 = none) :
    (∀ draw', (applyKind be draw' kind data (applyKind be draw kind data db).1).1 =
      (applyKind be draw kind data db).1) ↔ kind.Repeatable be data db := by
  cases kind with
  | userUpsert => exact iff_of_true (fun _ => applyUser_again h) trivial
  | userDeleted => exact iff_of_true (fun _ => applyUserDeleted_again h) trivial
  | organizationUpsert => exact iff_of_true (fun _ => applyOrganization_again h) trivial
  | membershipUpsert => exact iff_of_true (fun _ => applyMembership_again h) trivial
  | membershipDeleted =>
    have hiff := applyMembershipDeleted_again h
    exact ⟨fun hall => hiff.mp (hall draw), fun hsingle _ => hiff.mpr hsingle⟩

end Branches

/-! ## When a request is processable -/

section Processable

variable (be : Backend) (draw : Draw)

/-- Not an event that writes, or one that its branch accepts and leaves nothing to repeat. -/
def Manageable (db : Directory) : Json → Prop
  | .obj fields => match kind (either (field fields "event") (orEmpty fields "type")) with
    | none => True
    | some kind => match either (field fields "data") (.obj []) with
      | .obj data => kind.Accepts be draw data db ∧ kind.Repeatable be data db
      | _ => False
  | _ => False

/-- No text, no JSON, or a manageable event whose integers and whose nesting the interpreter reads. -/
def Deliverable (db : Directory) (body : List UInt8) : Prop :=
  match PyStr.decode body with
  | none => True
  | some text => match JsonReader.read be.py text with
    | .error e => e = .malformed
    | .ok event => Manageable be draw db event

/-- The request is answered, and a second delivery leaves the rows as they are. -/
structure Processable (secret : PyStr) (request : Request) (db : Directory) : Prop where
  answered : ∃ status, (workosWebhook be draw secret request db).2 = .ok status
  again : ∀ draw', (workosWebhook be draw' secret request
    (workosWebhook be draw secret request db).1).1 = (workosWebhook be draw secret request db).1

variable {be draw} {db : Directory} {event : Json}

theorem manageable_iff : Manageable be draw db event ↔
    (applyEvent be draw event db).2 = none ∧
      ∀ draw', (applyEvent be draw' event (applyEvent be draw event db).1).1 =
        (applyEvent be draw event db).1 := by
  cases event with
  | obj fields =>
    unfold Manageable applyEvent
    dsimp only
    cases kind (either (field fields "event") (orEmpty fields "type")) with
    | none => exact iff_of_true trivial ⟨rfl, fun _ => rfl⟩
    | some kind =>
      cases either (field fields "data") (.obj []) with
      | obj data =>
        dsimp only
        rw [← applyKind_ok]
        exact and_congr_right fun h => (applyKind_again h).symm
      | _ => exact iff_of_false id fun h => nomatch h.1
  | _ => exact iff_of_false id fun h => nomatch h.1

/-- **A signed request is processable exactly when its body is no JSON or a manageable event.** -/
theorem processable_iff (be : Backend) (draw : Draw) (secret : PyStr) (request : Request)
    (db : Directory) (hsigned :
      verifyWorkosSignature be request.body request.signature secret = .ok true) :
    Processable be draw secret request db ↔ Deliverable be draw db request.body := by
  have hrefused : ∀ status, (∀ draw d, workosWebhook be draw secret request d = (d, .ok status)) →
      Processable be draw secret request db := fun status h =>
    ⟨⟨status, by rw [h]⟩, fun draw' => by rw [h, h]⟩
  have hraised : ∀ e, (workosWebhook be draw secret request db).2 = .error e →
      ¬ Processable be draw secret request db := by
    rintro e h ⟨⟨status, hstatus⟩, -⟩
    exact nomatch h.symm.trans hstatus
  unfold Deliverable
  cases hdecode : PyStr.decode request.body with
  | none =>
    refine iff_of_true (hrefused 400 fun draw d => ?_) trivial
    simp only [workosWebhook, hsigned, hdecode]
  | some text =>
    dsimp only
    cases hread : JsonReader.read be.py text with
    | error e =>
      dsimp only
      cases e with
      | malformed =>
        refine iff_of_true (hrefused 400 fun draw d => ?_) rfl
        simp only [workosWebhook, hsigned, hdecode, hread]
      | intDigits =>
        refine iff_of_false (hraised .valueError ?_) nofun
        simp only [workosWebhook, hsigned, hdecode, hread]
      | recursion =>
        refine iff_of_false (hraised .recursionError ?_) nofun
        simp only [workosWebhook, hsigned, hdecode, hread]
    | ok event =>
      dsimp only
      rw [manageable_iff]
      have hanswer : ∀ draw d, workosWebhook be draw secret request d =
          ((applyEvent be draw event d).1, match (applyEvent be draw event d).2 with
            | none => .ok 200
            | some e => .error e) := by
        intro draw d
        simp only [workosWebhook, hsigned, hdecode, hread]
        rcases applyEvent be draw event d with ⟨d', - | e⟩
        · rfl
        · rfl
      constructor
      · rintro ⟨⟨status, hstatus⟩, hagain⟩
        simp only [hanswer] at hstatus hagain
        refine ⟨?_, hagain⟩
        cases he : (applyEvent be draw event db).2 with
        | none => rfl
        | some e => rw [he] at hstatus; cases hstatus
      · rintro ⟨hnone, hagain⟩
        refine ⟨⟨200, by simp only [hanswer, hnone]⟩, fun draw' => ?_⟩
        simp only [hanswer]
        exact hagain draw'

end Processable

/-! ## A user without a name -/

/-- A database that takes texts by their length, and a signature that is always the same. -/
def smallBackend : Backend where
  lower := id
  takes n text := text.length ≤ n
  py := { repr := fun _ => [], decimal := fun _ => none, readDepth := 100, writeDepth := 100 }
  printable _ := true
  strDepth := 100
  asks _ := true
  hexdigest _ _ := PyStr.lit "00ff"

def signed (body : String) : Request where
  body := PyStr.encoded (PyStr.lit body)
  workosSignature := PyStr.lit "t=1, v1=00ff"

theorem processable_iff_small :
    verifyWorkosSignature smallBackend (signed "[]").body (signed "[]").signature (PyStr.lit "s") =
        .ok true ∧
      (Processable smallBackend (smallDraw 0) (PyStr.lit "s") (signed "[]") {} ↔
        Deliverable smallBackend (smallDraw 0) {} (signed "[]").body) :=
  ⟨by decide +kernel, processable_iff _ _ _ _ _ (by decide +kernel)⟩

/-- A new user whose first name is null. -/
def nameless : Request :=
  signed "\x7b\"event\":\"user.created\",\"data\":\x7b\"id\":\"u\",\"first_name\":null\x7d\x7d"

/-- Null is no text to append to. -/
theorem null_name_raises :
    ¬ Processable smallBackend (smallDraw 0) (PyStr.lit "s") nameless {} := by
  rintro ⟨⟨status, hstatus⟩, -⟩
  have hraised : (workosWebhook smallBackend (smallDraw 0) (PyStr.lit "s") nameless {}).2 =
      .error .typeError := by decide +kernel
  exact nomatch hraised.symm.trans hstatus

end ControlPlane.Identity.Endpoint
