/-
  WORKOS EVENTS: `_apply_event` of `apps/identity/webhooks.py` on the shadow rows.

  Users are kept by their WorkOS id, tenants by their organization id, memberships by the PAIR of
  tenant and user.  A deletion, however, looks the membership up by `workos_membership_id`, which is
  optional and not unique.

  1. `Memberships` carries the database's two constraints, so every write keeps them.
  2. A deletion removes the first row with the event's id, whoever it belongs to, or nothing.
  3. So it revokes exactly the pair it names when that row is the pair's, or when there is nothing to
     revoke (`revocation_exact`).

  The caches that `_apply_event` warms and invalidates are no part of the rows.  The routes run
  without a transaction of their own, so what was written before an exception stays.
-/
import ControlPlane.PyStr
import ControlPlane.Sorting
import ControlPlane.Table

namespace ControlPlane.Identity

/-! ## Rows -/

/-- A primary key; UUIDs are ordered. -/
abbrev Uuid := Nat

structure Tenant where
  id : Uuid
  slug : PyStr
  displayName : PyStr
  isActive : Bool := true
  workosOrganizationId : PyStr
  deriving DecidableEq

structure User where
  id : Uuid
  workosUserId : PyStr
  email : PyStr := []
  displayName : PyStr := []
  isActive : Bool := true
  deriving DecidableEq

/-- `Membership.Role`. -/
inductive Role where
  | owner
  | admin
  | member
  | viewer
  deriving DecidableEq, Repr

structure Membership where
  id : Uuid
  tenant : Uuid
  user : Uuid
  role : Role := .member
  workosMembershipId : PyStr := []
  deriving DecidableEq

/-- `unique_together = [("tenant", "user")]`. -/
def Membership.pair (m : Membership) : Uuid × Uuid := (m.tenant, m.user)

/-- The row with another role and id. -/
def Membership.save (role : Role) (workosMembershipId : PyStr) (m : Membership) : Membership :=
  { m with role := role, workosMembershipId := workosMembershipId }

/-- `control_membership` with its constraints. -/
structure Memberships where
  rows : List Membership := []
  keys : (rows.map Membership.id).Nodup := by simp
  pairs : (rows.map Membership.pair).Nodup := by simp

structure Directory where
  tenants : List Tenant := []
  users : List User := []
  memberships : Memberships := {}

/-! ## Events -/

/-- `data["role"]`: nothing, a text, or an object with a `slug`. -/
inductive RoleData where
  | missing
  | text (role : PyStr)
  | object (slug : Option PyStr)
  deriving DecidableEq

/-- An event by its type.  A text that is missing or null reads as "", except for the names of a user,
    where null is `none`. -/
inductive Event where
  | userUpsert (id email : PyStr) (firstName lastName : Option PyStr)
  | userDeleted (id : PyStr)
  | organizationUpsert (id slug name : PyStr)
  | membershipUpsert (id organizationId userId : PyStr) (role : RoleData)
  | membershipDeleted (id organizationId userId : PyStr)
  | other

/-- What ends the handling of an event. -/
inductive Failure where
  | typeError
  | dataError
  | integrityError
  | multipleObjectsReturned
  deriving DecidableEq, Repr

/-- What the handling of an event draws: the keys of new rows. -/
structure Draw where
  tenant : Uuid
  user : Uuid
  membership : Uuid

/-- The library: `str.lower`, and whether the database takes a text in a column of so many
    characters. -/
structure Library where
  lower : PyStr → PyStr
  takes : Nat → PyStr → Bool

section Values

/-- `role or MEMBER`, and MEMBER for what is no role. -/
def RoleData.role : RoleData → Role
  | .missing | .object none => .member
  | .text role | .object (some role) =>
      if role = PyStr.lit "owner" then .owner
      else if role = PyStr.lit "admin" then .admin
      else if role = PyStr.lit "viewer" then .viewer
      else .member

/-- `a or b`. -/
def orElse (a b : PyStr) : PyStr := if a = [] then b else a

/-- `(slug or name or org_id).lower().replace(" ", "-")[:128]`. -/
def Library.slug (lib : Library) (id slug name : PyStr) : PyStr :=
  ((lib.lower (orElse slug (orElse name id))).map fun c => if c = 0x20 then 0x2D else c).take 128

end Values

/-! ## Queries -/

/-- `Tenant.objects.filter(workos_organization_id=org_id).first()`; tenants are ordered by slug. -/
def Directory.tenantOf (db : Directory) (organizationId : PyStr) : Option Tenant :=
  (Sorting.sortedBy Tenant.slug
    (db.tenants.filter fun t => t.workosOrganizationId = organizationId)).head?

def Directory.userOf (db : Directory) (userId : PyStr) : Option User :=
  db.users.find? fun u => u.workosUserId = userId

/-- `Membership.objects.filter(workos_membership_id=id).first()`, ordered by the primary key. -/
def Memberships.first (ms : Memberships) (id : PyStr) : Option Membership :=
  (Sorting.sortedBy Membership.id (ms.rows.filter fun m => m.workosMembershipId = id)).head?

/-! ## Writes of memberships -/

namespace Memberships

variable (ms : Memberships)

/-- `membership.delete()`. -/
def delete (m : Membership) : Memberships where
  rows := ms.rows.filter fun row => row.id ≠ m.id
  keys := ms.keys.sublist (List.filter_sublist.map _)
  pairs := ms.pairs.sublist (List.filter_sublist.map _)

/-- The row of a pair with another role and id. -/
def update (pair : Uuid × Uuid) (role : Role) (workosMembershipId : PyStr) : Memberships where
  rows := Table.modify Membership.pair pair (Membership.save role workosMembershipId) ms.rows
  keys := by
    have hkeys : (Table.modify Membership.pair pair (Membership.save role workosMembershipId)
        ms.rows).map Membership.id = ms.rows.map Membership.id := by
      rw [Table.modify, List.map_map]
      refine List.map_congr_left fun row _ => ?_
      rw [Function.comp_apply]
      split <;> rfl
    exact hkeys ▸ ms.keys
  pairs := by
    rw [Table.modify_map_key (f := Membership.save role workosMembershipId) fun _ _ _ => rfl]
    exact ms.pairs

/-- A new row. -/
def insert (m : Membership) (hid : m.id ∉ ms.rows.map Membership.id)
    (hpair : m.pair ∉ ms.rows.map Membership.pair) : Memberships where
  rows := ms.rows ++ [m]
  keys := by
    rw [List.map_append, List.map_singleton]
    exact List.nodup_append_comm.mp (List.nodup_cons.mpr ⟨hid, ms.keys⟩)
  pairs := by
    rw [List.map_append, List.map_singleton]
    exact List.nodup_append_comm.mp (List.nodup_cons.mpr ⟨hpair, ms.pairs⟩)

/-- `Membership.objects.update_or_create(tenant=…, user=…, defaults=…)`. -/
def updateOrCreate (lib : Library) (id tenant user : Uuid) (role : Role)
    (workosMembershipId : PyStr) : Except Failure Memberships :=
  if !lib.takes 128 workosMembershipId then .error .dataError
  else if hpair : (tenant, user) ∈ ms.rows.map Membership.pair then
    .ok (ms.update (tenant, user) role workosMembershipId)
  else if hid : id ∈ ms.rows.map Membership.id then .error .integrityError
  else .ok (ms.insert ⟨id, tenant, user, role, workosMembershipId⟩ hid hpair)

end Memberships

/-! ## `_apply_event` -/

section Apply

variable (lib : Library) (draw : Draw)

/-- `User.objects.update_or_create(workos_user_id=…, defaults=…)`. -/
def upsertUser (db : Directory) (workosId email displayName : PyStr) : Except Failure Directory :=
  if !lib.takes 128 workosId || !lib.takes 254 email || !lib.takes 255 displayName then
    .error .dataError
  else match db.users.filter fun u => u.workosUserId = workosId with
    | [] =>
        if draw.user ∈ db.users.map User.id then .error .integrityError
        else .ok { db with users := db.users ++ [⟨draw.user, workosId, email, displayName, true⟩] }
    | [_] =>
        let save (u : User) : User :=
          { u with email := email, displayName := displayName, isActive := true }
        .ok { db with users := Table.modify User.workosUserId workosId save db.users }
    | _ => .error .multipleObjectsReturned

/-- `User.objects.get_or_create(workos_user_id=…)`. -/
def getOrCreateUser (db : Directory) (workosId : PyStr) : Except Failure (Directory × User) :=
  match db.users.filter fun u => u.workosUserId = workosId with
  | [] =>
      if !lib.takes 128 workosId then .error .dataError
      else if draw.user ∈ db.users.map User.id then .error .integrityError
      else
        let user : User := { id := draw.user, workosUserId := workosId }
        .ok ({ db with users := db.users ++ [user] }, user)
  | [user] => .ok (db, user)
  | _ => .error .multipleObjectsReturned

/-- `Tenant.objects.update_or_create(workos_organization_id=…, defaults=…)`. -/
def upsertTenant (db : Directory) (organizationId slug displayName : PyStr) :
    Except Failure Directory :=
  let others := db.tenants.filter fun t => t.workosOrganizationId ≠ organizationId
  if !lib.takes 128 organizationId || !lib.takes 128 slug || !lib.takes 255 displayName then
    .error .dataError
  else if slug ∈ others.map Tenant.slug then .error .integrityError
  else match db.tenants.filter fun t => t.workosOrganizationId = organizationId with
    | [] =>
        if draw.tenant ∈ db.tenants.map Tenant.id then .error .integrityError
        else .ok { db with
          tenants := db.tenants ++ [⟨draw.tenant, slug, displayName, true, organizationId⟩] }
    | [_] =>
        let save (t : Tenant) : Tenant :=
          { t with slug := slug, displayName := displayName, isActive := true }
        .ok { db with
          tenants := Table.modify Tenant.workosOrganizationId organizationId save db.tenants }
    | _ => .error .multipleObjectsReturned

/-- The directory after a write, or as it was when the write fails. -/
def written (db : Directory) : Except Failure Directory → Directory × Option Failure
  | .ok db' => (db', none)
  | .error e => (db, some e)

/-- `_apply_event`. -/
def applyEvent (event : Event) (db : Directory) : Directory × Option Failure :=
  match event with
  | .userUpsert id email firstName lastName =>
      if id = [] then (db, none)
      else match firstName, lastName with
        | some first, some last => written db (upsertUser lib draw db id email (first ++ [0x20] ++ last))
        | _, _ => (db, some .typeError)
  | .userDeleted id =>
      let save (u : User) : User := { u with isActive := false }
      ({ db with users := Table.modify User.workosUserId id save db.users }, none)
  | .organizationUpsert id slug name =>
      if id = [] then (db, none)
      else
        let slug := lib.slug id slug name
        written db (upsertTenant lib draw db id slug (orElse name slug))
  | .membershipUpsert id organizationId userId role =>
      if organizationId = [] ∨ userId = [] then (db, none)
      else match getOrCreateUser lib draw db userId with
        | .error e => (db, some e)
        | .ok (db', user) => match db.tenantOf organizationId with
          | none => (db', none)
          | some tenant => written db' <|
              (db'.memberships.updateOrCreate lib draw.membership tenant.id user.id role.role id).map
                fun memberships => { db' with memberships := memberships }
  | .membershipDeleted id _ _ => match db.memberships.first id with
      | some m => ({ db with memberships := db.memberships.delete m }, none)
      | none => (db, none)
  | .other => (db, none)

/-- Events one after another; an exception ends its own event only. -/
def run (history : List (Draw × Event)) (db : Directory) : Directory :=
  history.foldl (fun db e => (applyEvent lib e.1 e.2 db).1) db

end Apply

/-! ## What a deletion does -/

/-- The membership is the one of the organization's tenant and the user. -/
def Directory.isFor (db : Directory) (organizationId userId : PyStr) (m : Membership) : Bool :=
  ((db.tenantOf organizationId).any fun t => t.id = m.tenant) &&
    ((db.userOf userId).any fun u => u.id = m.user)

/-- Nothing is left of the pair, and every other membership is as it was. -/
structure Revoked (before after : Directory) (organizationId userId : PyStr) : Prop where
  gone : ∀ m ∈ after.memberships.rows, before.isFor organizationId userId m = false
  kept : after.memberships.rows.filter (fun m => !before.isFor organizationId userId m) =
    before.memberships.rows.filter fun m => !before.isFor organizationId userId m

/-- The first row with the event's id is the pair's row; or no row has the id, and the pair has no
    row. -/
def Directory.Names (db : Directory) (id organizationId userId : PyStr) : Prop :=
  match db.memberships.first id with
  | some m => db.isFor organizationId userId m = true
  | none => ∀ m ∈ db.memberships.rows, db.isFor organizationId userId m = false

section Deleted

variable {db : Directory} {id organizationId userId : PyStr} {m m' : Membership}

theorem Memberships.mem_of_first {ms : Memberships} (h : ms.first id = some m) : m ∈ ms.rows := by
  have hmem := Sorting.mem_sortedBy.mp (List.mem_of_head? h)
  exact (List.mem_filter.mp hmem).1

/-- Memberships of one tenant and one user are one row. -/
theorem isFor_unique (hm : m ∈ db.memberships.rows) (hm' : m' ∈ db.memberships.rows)
    (h : db.isFor organizationId userId m = true) (h' : db.isFor organizationId userId m' = true) :
    m = m' := by
  simp only [Directory.isFor, Bool.and_eq_true, Option.any_eq_true, decide_eq_true_eq] at h h'
  obtain ⟨⟨t, ht, htenant⟩, u, hu, huser⟩ := h
  obtain ⟨⟨t', ht', htenant'⟩, u', hu', huser'⟩ := h'
  obtain rfl : t = t' := Option.some.inj (ht.symm.trans ht')
  obtain rfl : u = u' := Option.some.inj (hu.symm.trans hu')
  refine Table.eq_of_key db.memberships.pairs hm hm' ?_
  rw [Membership.pair, Membership.pair, ← htenant, ← htenant', ← huser, ← huser']

theorem mem_delete {ms : Memberships} : m' ∈ (ms.delete m).rows ↔ m' ∈ ms.rows ∧ m'.id ≠ m.id := by
  rw [Memberships.delete, List.mem_filter, decide_eq_true_eq]

/-- Deleting the pair's row revokes it. -/
theorem revoked_delete (hm : m ∈ db.memberships.rows) (h : db.isFor organizationId userId m = true) :
    Revoked db { db with memberships := db.memberships.delete m } organizationId userId where
  gone m' hm' := by
    obtain ⟨hmem, hne⟩ := mem_delete.mp hm'
    rw [← Bool.not_eq_true]
    exact fun hfor => hne (congrArg Membership.id (isFor_unique hmem hm hfor h))
  kept := by
    rw [Memberships.delete, List.filter_filter]
    refine List.filter_congr fun m' hm' => ?_
    by_cases hfor : db.isFor organizationId userId m' = true
    · simp [hfor]
    · have hne : m'.id ≠ m.id := fun hid =>
        hfor (Table.eq_of_key db.memberships.keys hm' hm hid ▸ h)
      simp [hne]

/-- Deleting another row revokes something else. -/
theorem not_revoked_delete (hm : m ∈ db.memberships.rows)
    (h : db.isFor organizationId userId m = false) :
    ¬ Revoked db { db with memberships := db.memberships.delete m } organizationId userId := by
  intro hrevoked
  have hbefore : m ∈ db.memberships.rows.filter fun m => !db.isFor organizationId userId m :=
    List.mem_filter.mpr ⟨hm, by rw [h]; rfl⟩
  rw [← hrevoked.kept] at hbefore
  exact (mem_delete.mp (List.mem_filter.mp hbefore).1).2 rfl

end Deleted

/-- **A deletion revokes exactly the membership it names when it finds it.**  Whatever events came
    before, nothing is left of the pair and nothing else is touched, if and only if the first row with
    the event's id is the pair's, or there is none and the pair has no row. -/
theorem revocation_exact (lib : Library) (db : Directory) (history : List (Draw × Event)) (draw : Draw)
    (id organizationId userId : PyStr) :
    Revoked (run lib history db)
        (applyEvent lib draw (.membershipDeleted id organizationId userId) (run lib history db)).1
        organizationId userId ↔
      (run lib history db).Names id organizationId userId := by
  generalize run lib history db = before
  unfold Directory.Names
  simp only [applyEvent]
  cases hfirst : before.memberships.first id with
  | some m =>
    have hm := Memberships.mem_of_first hfirst
    cases hfor : before.isFor organizationId userId m with
    | true => exact iff_of_true (revoked_delete hm hfor) hfor
    | false => exact iff_of_false (not_revoked_delete hm hfor) (by simp [hfor])
  | none => exact ⟨fun hrevoked => hrevoked.gone, fun hgone => ⟨hgone, rfl⟩⟩

/-! ## A small history -/

def smallDraw (n : Nat) : Draw := ⟨n, n, n⟩

/-- One organization with two members; the events of their memberships carry no id. -/
def smallHistory : List (Draw × Event) :=
  [(smallDraw 0, .organizationUpsert (PyStr.lit "org_1") (PyStr.lit "acme") (PyStr.lit "Acme")),
    (smallDraw 1, .membershipUpsert [] (PyStr.lit "org_1") (PyStr.lit "user_1") .missing),
    (smallDraw 2, .membershipUpsert [] (PyStr.lit "org_1") (PyStr.lit "user_2") .missing)]

/-- The deletion of the second membership removes the first one. -/
theorem wrong_member_revoked : ¬ Revoked (run ⟨id, fun _ _ => true⟩ smallHistory {})
    (applyEvent ⟨id, fun _ _ => true⟩ (smallDraw 3)
      (.membershipDeleted [] (PyStr.lit "org_1") (PyStr.lit "user_2"))
      (run ⟨id, fun _ _ => true⟩ smallHistory {})).1 (PyStr.lit "org_1") (PyStr.lit "user_2") := by
  intro hrevoked
  have hgone := hrevoked.gone ⟨2, 0, 2, .member, []⟩ (by decide +kernel)
  revert hgone
  decide +kernel

end ControlPlane.Identity
