/-
  WRITING A ROW TWICE: the writes of `_apply_event` when the same event is delivered again.

  Every write looks its row up by what the event names.  It gets through when the database takes the
  texts and there is ROOM for the row: one row has the key, or none has it and the new row's primary
  key is new.  A write that got through leaves exactly one row with its key, as the write makes it;
  so the same write gets through again, whatever it would draw, and changes nothing.
-/
import ControlPlane.Fallible
import ControlPlane.Identity.Webhooks

namespace ControlPlane.Identity

/-- One row has the key, or none has it and the new row's primary key is new. -/
def Room {ρ : Type} (key : ρ → PyStr) (id : ρ → Uuid) (rows : List ρ) (k : PyStr) (new : Uuid) : Prop :=
  match rows.filter fun r => key r = k with
  | [] => new ∉ rows.map id
  | [_] => True
  | _ => False

variable {lib : Library} {draw draw' : Draw} {db db' : Directory}

/-! ## Users -/

section Users

variable {workosId email displayName : PyStr} {user : User}

theorem upsertUser_isOk : (upsertUser lib draw db workosId email displayName).isOk = true ↔
    (lib.takes 128 workosId = true ∧ lib.takes 254 email = true ∧ lib.takes 255 displayName = true) ∧
      Room User.workosUserId User.id db.users workosId draw.user := by
  unfold upsertUser Room
  by_cases htakes : lib.takes 128 workosId = true ∧ lib.takes 254 email = true ∧
      lib.takes 255 displayName = true
  · obtain ⟨hid, hemail, hname⟩ := htakes
    simp only [hid, hemail, hname, Bool.not_true, Bool.or_false, Bool.false_eq_true, if_false,
      and_self, true_and]
    generalize (db.users.filter fun u => u.workosUserId = workosId) = found
    rcases found with - | ⟨u, - | ⟨u', us⟩⟩
    · by_cases hfresh : draw.user ∈ db.users.map User.id
      · exact iff_of_false (by simp [hfresh, Except.isOk, Except.toBool]) (not_not_intro hfresh)
      · exact iff_of_true (by simp [hfresh, Except.isOk, Except.toBool]) hfresh
    · exact iff_of_true rfl trivial
    · exact iff_of_false Bool.false_ne_true id
  · refine iff_of_false ?_ fun h => htakes h.1
    rw [if_pos (by simpa [← Bool.not_eq_true, imp_iff_not_or, not_and_or, or_assoc] using htakes)]
    exact Bool.false_ne_true

/-- The user is written once more. -/
theorem upsertUser_again (h : upsertUser lib draw db workosId email displayName = .ok db') :
    upsertUser lib draw' db' workosId email displayName = .ok db' := by
  unfold upsertUser at h
  split at h
  · cases h
  · rename_i htakes
    have hkept : Table.Kept User.workosUserId workosId
        (fun u => { u with email := email, displayName := displayName, isActive := true })
        db'.users := by
      split at h
      · rename_i hnone
        split at h
        · cases h
        · cases h
          exact Table.kept_append rfl rfl hnone
      · rename_i hone
        cases h
        exact Table.kept_modify (fun _ => rfl) (fun _ => rfl) hone
      · cases h
    have hsame := hkept.modify_eq
    obtain ⟨u, hone, -⟩ := hkept
    unfold upsertUser
    rw [if_neg htakes, hone]
    show Except.ok { db' with users := _ } = _
    rw [hsame]

theorem userOf_eq_head : db.userOf workosId =
    (db.users.filter fun u => u.workosUserId = workosId).head? := by
  rw [Directory.userOf, List.head?_filter]

theorem userOf_eq_none : db.userOf workosId = none ↔
    (db.users.filter fun u => u.workosUserId = workosId) = [] := by
  rw [userOf_eq_head, List.head?_eq_none_iff]

theorem getOrCreateUser_isOk : (getOrCreateUser lib draw db workosId).isOk = true ↔
    Room User.workosUserId User.id db.users workosId draw.user ∧
      (db.userOf workosId = none → lib.takes 128 workosId = true) := by
  rw [userOf_eq_none]
  unfold getOrCreateUser Room
  generalize (db.users.filter fun u => u.workosUserId = workosId) = found
  rcases found with - | ⟨u, - | ⟨u', us⟩⟩
  · simp only [forall_const]
    by_cases htakes : lib.takes 128 workosId = true
    · by_cases hfresh : draw.user ∈ db.users.map User.id
      · exact iff_of_false (by simp [htakes, hfresh, Except.isOk, Except.toBool])
          fun h => h.1 hfresh
      · exact iff_of_true (by simp [htakes, hfresh, Except.isOk, Except.toBool]) ⟨hfresh, htakes⟩
    · exact iff_of_false (by simp [htakes, Except.isOk, Except.toBool]) fun h => htakes h.2
  · exact iff_of_true rfl ⟨trivial, fun h => absurd h (List.cons_ne_nil _ _)⟩
  · exact iff_of_false Bool.false_ne_true And.left

/-- What finding or creating a user leaves behind. -/
structure Gotten (draw : Draw) (db : Directory) (workosId : PyStr) (db' : Directory) (user : User) :
    Prop where
  one : (db'.users.filter fun u => u.workosUserId = workosId) = [user]
  key : user.workosUserId = workosId
  tenants : db'.tenants = db.tenants
  memberships : db'.memberships = db.memberships
  id : user.id = (db.userOf workosId).elim draw.user User.id

theorem getOrCreateUser_ok (h : getOrCreateUser lib draw db workosId = .ok (db', user)) :
    Gotten draw db workosId db' user := by
  unfold getOrCreateUser at h
  split at h
  · rename_i hnone
    split at h
    · cases h
    · split at h
      · cases h
      · cases h
        exact ⟨Table.filter_append_new rfl hnone, rfl, rfl, rfl, by rw [userOf_eq_head, hnone]; rfl⟩
  · rename_i hone
    cases h
    have hmem : user ∈ db.users.filter fun u => u.workosUserId = workosId :=
      hone ▸ List.mem_cons_self
    exact ⟨hone, of_decide_eq_true (List.mem_filter.mp hmem).2, rfl, rfl,
      by rw [userOf_eq_head, hone]; rfl⟩
  · cases h

/-- The user is found, and nothing is created. -/
theorem getOrCreateUser_found (h : (db.users.filter fun u => u.workosUserId = workosId) = [user]) :
    getOrCreateUser lib draw db workosId = .ok (db, user) := by
  unfold getOrCreateUser
  rw [h]

end Users

/-! ## Tenants -/

section Tenants

variable {organizationId slug displayName : PyStr}

/-- No tenant of another organization has the slug. -/
def Directory.SlugFree (db : Directory) (organizationId slug : PyStr) : Prop :=
  ∀ t ∈ db.tenants, t.workosOrganizationId ≠ organizationId → t.slug ≠ slug

theorem slug_others : slug ∈ (db.tenants.filter fun t =>
    t.workosOrganizationId ≠ organizationId).map Tenant.slug ↔ ¬ db.SlugFree organizationId slug := by
  simp only [Directory.SlugFree, List.mem_map, List.mem_filter, decide_eq_true_eq, not_forall,
    not_not, exists_prop, and_assoc]

theorem upsertTenant_isOk : (upsertTenant lib draw db organizationId slug displayName).isOk = true ↔
    (lib.takes 128 organizationId = true ∧ lib.takes 128 slug = true ∧
      lib.takes 255 displayName = true) ∧ db.SlugFree organizationId slug ∧
      Room Tenant.workosOrganizationId Tenant.id db.tenants organizationId draw.tenant := by
  unfold upsertTenant Room
  by_cases htakes : lib.takes 128 organizationId = true ∧ lib.takes 128 slug = true ∧
      lib.takes 255 displayName = true
  · obtain ⟨hid, hslug, hname⟩ := htakes
    simp only [hid, hslug, hname, Bool.not_true, Bool.or_false, Bool.false_eq_true, if_false,
      and_self, true_and]
    by_cases hfree : db.SlugFree organizationId slug
    · rw [if_neg (mt slug_others.mp (not_not_intro hfree))]
      simp only [hfree, true_and]
      generalize (db.tenants.filter fun t => t.workosOrganizationId = organizationId) = found
      rcases found with - | ⟨t, - | ⟨t', ts⟩⟩
      · by_cases hfresh : draw.tenant ∈ db.tenants.map Tenant.id
        · exact iff_of_false (by simp [hfresh, Except.isOk, Except.toBool]) (not_not_intro hfresh)
        · exact iff_of_true (by simp [hfresh, Except.isOk, Except.toBool]) hfresh
      · exact iff_of_true rfl trivial
      · exact iff_of_false Bool.false_ne_true id
    · rw [if_pos (slug_others.mpr hfree)]
      exact iff_of_false Bool.false_ne_true fun h => hfree h.1
  · refine iff_of_false ?_ fun h => htakes h.1
    rw [if_pos (by simpa [← Bool.not_eq_true, imp_iff_not_or, not_and_or, or_assoc] using htakes)]
    exact Bool.false_ne_true

/-- The tenant is written once more. -/
theorem upsertTenant_again (h : upsertTenant lib draw db organizationId slug displayName = .ok db') :
    upsertTenant lib draw' db' organizationId slug displayName = .ok db' := by
  unfold upsertTenant at h
  dsimp only at h
  split at h
  · cases h
  · rename_i htakes
    split at h
    · cases h
    · rename_i hfree
      have hfree := not_not.mp (mt slug_others.mpr hfree)
      have hkept : Table.Kept Tenant.workosOrganizationId organizationId
          (fun t => { t with slug := slug, displayName := displayName, isActive := true })
          db'.tenants ∧ db'.SlugFree organizationId slug := by
        split at h
        · rename_i hnone
          split at h
          · cases h
          · cases h
            refine ⟨Table.kept_append rfl rfl hnone, fun t ht hne => ?_⟩
            rcases List.mem_append.mp ht with ht | ht
            · exact hfree t ht hne
            · exact absurd (List.mem_singleton.mp ht ▸ rfl) hne
        · rename_i hone
          cases h
          refine ⟨Table.kept_modify (fun _ => rfl) (fun _ => rfl) hone, fun t ht hne => ?_⟩
          rcases Table.mem_modify.mp ht with ⟨t', -, hkey, rfl⟩ | ⟨ht, -⟩
          · exact absurd hkey hne
          · exact hfree t ht hne
        · cases h
      have hsame := hkept.1.modify_eq
      obtain ⟨⟨t, hone, -⟩, hfree'⟩ := hkept
      unfold upsertTenant
      rw [if_neg htakes, if_neg (mt slug_others.mp (not_not_intro hfree')), hone]
      show Except.ok { db' with tenants := _ } = _
      rw [hsame]

end Tenants

/-! ## Memberships -/

namespace Memberships

variable {ms ms' : Memberships} {id id' tenant user : Uuid} {role : Role} {workosMembershipId : PyStr}

theorem ext_rows (h : ms.rows = ms'.rows) : ms = ms' := by
  obtain ⟨rows, _, _⟩ := ms
  obtain ⟨rows', _, _⟩ := ms'
  obtain rfl : rows = rows' := h
  rfl

theorem updateOrCreate_isOk :
    (ms.updateOrCreate lib id tenant user role workosMembershipId).isOk = true ↔
      lib.takes 128 workosMembershipId = true ∧
        ((tenant, user) ∉ ms.rows.map Membership.pair → id ∉ ms.rows.map Membership.id) := by
  unfold updateOrCreate
  by_cases htakes : lib.takes 128 workosMembershipId = true
  · rw [if_neg (by simp [htakes])]
    by_cases hpair : (tenant, user) ∈ ms.rows.map Membership.pair
    · rw [dif_pos hpair]
      exact iff_of_true rfl ⟨htakes, fun h => absurd hpair h⟩
    · rw [dif_neg hpair]
      by_cases hid : id ∈ ms.rows.map Membership.id
      · rw [dif_pos hid]
        exact iff_of_false Bool.false_ne_true fun h => h.2 hpair hid
      · rw [dif_neg hid]
        exact iff_of_true rfl ⟨htakes, fun _ => hid⟩
  · rw [if_pos (by simpa using htakes)]
    exact iff_of_false Bool.false_ne_true fun h => htakes h.1

/-- The membership is written once more. -/
theorem updateOrCreate_again
    (h : ms.updateOrCreate lib id tenant user role workosMembershipId = .ok ms') :
    ms'.updateOrCreate lib id' tenant user role workosMembershipId = .ok ms' := by
  unfold updateOrCreate at h
  split at h
  · cases h
  · rename_i htakes
    have hrow : (tenant, user) ∈ ms'.rows.map Membership.pair ∧
        Table.modify Membership.pair (tenant, user) (Membership.save role workosMembershipId)
          ms'.rows = ms'.rows := by
      split at h
      · rename_i hpair
        cases h
        refine ⟨?_, ?_⟩
        · rw [update, Table.modify_map_key (f := Membership.save role workosMembershipId) fun _ _ _ => rfl]
          exact hpair
        · exact Table.modify_modify (fun _ => rfl) fun _ => rfl
      · rename_i hpair
        split at h
        · cases h
        · cases h
          refine ⟨List.mem_map.mpr ⟨_, List.mem_append_right _ List.mem_cons_self, rfl⟩, ?_⟩
          refine Table.Kept.modify_eq (Table.kept_append rfl rfl ?_)
          refine List.filter_eq_nil_iff.mpr fun row hrow hkey => hpair ?_
          exact List.mem_map.mpr ⟨row, hrow, of_decide_eq_true hkey⟩
    unfold updateOrCreate
    rw [if_neg htakes, dif_pos hrow.1]
    exact congrArg Except.ok (ext_rows hrow.2)

/-- No two memberships carry the id. -/
def Single (ms : Memberships) (workosMembershipId : PyStr) : Prop :=
  ∀ m ∈ ms.rows, ∀ m' ∈ ms.rows,
    m.workosMembershipId = workosMembershipId → m'.workosMembershipId = workosMembershipId → m = m'

theorem first_eq_none : ms.first workosMembershipId = none ↔
    ∀ m ∈ ms.rows, m.workosMembershipId ≠ workosMembershipId := by
  have hnil : ms.first workosMembershipId = none ↔
      (ms.rows.filter fun m => m.workosMembershipId = workosMembershipId) = [] := by
    rw [first, List.head?_eq_none_iff]
    refine ⟨fun h => ?_, fun h => by rw [h]; rfl⟩
    exact List.nil_perm.mp (h ▸ Sorting.sortedBy_perm Membership.id _)
  rw [hnil, List.filter_eq_nil_iff]
  exact forall₂_congr fun m _ => not_congr decide_eq_true_iff

theorem first_some {m : Membership} (h : ms.first workosMembershipId = some m) :
    m ∈ ms.rows ∧ m.workosMembershipId = workosMembershipId := by
  have hmem := Sorting.mem_sortedBy.mp (List.mem_of_head? h)
  exact ⟨(List.mem_filter.mp hmem).1, of_decide_eq_true (List.mem_filter.mp hmem).2⟩

/-- After a deletion there is nothing more to delete, exactly when no other membership carries the
    id. -/
theorem first_delete {m : Membership} (h : ms.first workosMembershipId = some m) :
    (ms.delete m).first workosMembershipId = none ↔ ms.Single workosMembershipId := by
  obtain ⟨hm, hid⟩ := first_some h
  rw [first_eq_none]
  constructor
  · intro hnone
    have hall : ∀ m' ∈ ms.rows, m'.workosMembershipId = workosMembershipId → m' = m := by
      intro m' hm' hid'
      by_contra hne
      refine hnone m' (mem_delete.mpr ⟨hm', fun hkey => hne ?_⟩) hid'
      exact Table.eq_of_key ms.keys hm' hm hkey
    exact fun a ha b hb hida hidb => (hall a ha hida).trans (hall b hb hidb).symm
  · intro hsingle m' hm' hid'
    obtain ⟨hmem, hne⟩ := mem_delete.mp hm'
    exact hne (congrArg Membership.id (hsingle m' hmem m hm hid' hid))

theorem delete_ne {m : Membership} (h : m ∈ ms.rows) : ms.delete m ≠ ms := fun heq =>
  (mem_delete.mp (heq.symm ▸ h : m ∈ (ms.delete m).rows)).2 rfl

end Memberships

end ControlPlane.Identity
