/-
  THE ORGANIZATION CACHE: `set_tenant_slug_for_org` and `get_tenant_slug_for_org` of
  `apps/tenancy/tenant_cache.py`, in one process.

  There are two stores.  A call uses Valkey when it answers, and a dictionary of the process when it
  does not; an entry of Valkey expires, one of the dictionary never does, and NEITHER IS TOLD what the
  other was told.  So the cache is fresh as long as no set leaves another slug behind in the store
  that it does not write (`org_cache_fresh`): one step keeps freshness exactly then (`fresh_snoc`),
  and the induction is on the history.
-/
import ControlPlane.Histories
import ControlPlane.PyStr
import Mathlib.Logic.Function.Basic

namespace ControlPlane.Tenants

/-! ## The stores -/

structure Stores where
  valkey : PyStr → Option PyStr := fun _ => none
  memory : PyStr → Option PyStr := fun _ => none

/-- How Valkey behaves during one call. -/
inductive Access where
  /-- It is not configured, or the ping fails. -/
  | unavailable
  | served
  /-- The ping is answered and the command raises; the server may have executed it. -/
  | failed (executed : Bool)
  deriving DecidableEq, Repr

/-- `_org_key`. -/
def orgKey (orgId : PyStr) : PyStr :=
  PyStr.lit "control:org:" ++ orgId ++ PyStr.lit ":tenant_slug"

namespace Stores

variable (s : Stores)

def saveValkey (key slug : PyStr) : Stores :=
  { s with valkey := Function.update s.valkey key (some slug) }

def saveMemory (key slug : PyStr) : Stores :=
  { s with memory := Function.update s.memory key (some slug) }

/-- `get_tenant_slug_for_org`. -/
def getTenantSlugForOrg (orgId : PyStr) (access : Access) : Option PyStr :=
  if orgId = [] then none
  else match access with
    | .served => s.valkey (orgKey orgId)
    | .unavailable | .failed _ => s.memory (orgKey orgId)

/-- `set_tenant_slug_for_org`. -/
def setTenantSlugForOrg (orgId slug : PyStr) (access : Access) : Stores :=
  if orgId = [] ∨ slug = [] then s
  else match access with
    | .served => s.saveValkey (orgKey orgId) slug
    | .unavailable | .failed false => s.saveMemory (orgKey orgId) slug
    | .failed true => (s.saveValkey (orgKey orgId) slug).saveMemory (orgKey orgId) slug

end Stores

/-! ## Histories -/

/-- What happens to the stores; a get changes nothing. -/
inductive Action where
  | set (orgId slug : PyStr) (access : Access)
  | expire (key : PyStr)

def Action.apply (s : Stores) : Action → Stores
  | .set orgId slug access => s.setTenantSlugForOrg orgId slug access
  | .expire key => { s with valkey := Function.update s.valkey key none }

/-- The stores after a history. -/
def stores (history : List Action) : Stores := history.foldl Action.apply {}

/-- The slug of the most recent set for the organization; a blank one sets nothing. -/
def latest (history : List Action) (orgId : PyStr) : Option PyStr :=
  history.foldl (fun last action => match action with
    | .set org slug _ => if org = orgId ∧ slug ≠ [] then some slug else last
    | .expire _ => last) none

/-- Whatever Valkey does, a get returns nothing or the slug of the most recent set. -/
def Fresh (history : List Action) : Prop := ∀ orgId access,
  (stores history).getTenantSlugForOrg orgId access = none ∨
    (stores history).getTenantSlugForOrg orgId access = latest history orgId

/-- The store that a set does not write holds no other slug for the organization. -/
def Clear (s : Stores) (orgId slug : PyStr) : Access → Prop
  | .served => ∀ old, s.memory (orgKey orgId) = some old → old = slug
  | .unavailable | .failed false => ∀ old, s.valkey (orgKey orgId) = some old → old = slug
  | .failed true => True

/-! ## One step -/

theorem orgKey_injective : Function.Injective orgKey := fun _ _ h =>
  List.append_cancel_left (List.append_cancel_right h)

section Step

variable {history : List Action} {orgId slug : PyStr} {access : Access} {key : PyStr}

/-- What a store may hold for an organization. -/
def Holds (entry last : Option PyStr) : Prop := entry = none ∨ entry = last

/-- Both stores hold nothing or the latest slug, for every organization. -/
theorem fresh_iff : Fresh history ↔ ∀ orgId ≠ [],
    Holds ((stores history).valkey (orgKey orgId)) (latest history orgId) ∧
      Holds ((stores history).memory (orgKey orgId)) (latest history orgId) := by
  constructor
  · intro h orgId horg
    have hserved := h orgId .served
    have hmemory := h orgId .unavailable
    simp only [Stores.getTenantSlugForOrg, if_neg horg] at hserved hmemory
    exact ⟨hserved, hmemory⟩
  · intro h orgId access
    by_cases horg : orgId = []
    · exact Or.inl (if_pos horg)
    · simp only [Stores.getTenantSlugForOrg, if_neg horg]
      cases access with
      | served => exact (h orgId horg).1
      | unavailable => exact (h orgId horg).2
      | failed executed => exact (h orgId horg).2

theorem stores_snoc (action : Action) :
    stores (history ++ [action]) = action.apply (stores history) := by
  rw [stores, stores, List.foldl_append]
  rfl

theorem latest_set (other : PyStr) (hslug : slug ≠ []) :
    latest (history ++ [.set orgId slug access]) other =
      if orgId = other then some slug else latest history other := by
  rw [latest, List.foldl_append]
  simp [hslug, latest]

theorem fresh_expire (h : Fresh history) : Fresh (history ++ [.expire key]) := by
  have hlatest : ∀ orgId, latest (history ++ [.expire key]) orgId = latest history orgId := by
    intro orgId
    rw [latest, List.foldl_append]
    rfl
  rw [fresh_iff] at h ⊢
  intro orgId horg
  rw [stores_snoc, hlatest]
  refine ⟨?_, (h orgId horg).2⟩
  by_cases hkey : orgKey orgId = key
  · exact Or.inl (by simp [Action.apply, hkey])
  · have hkept : (Action.apply (stores history) (.expire key)).valkey (orgKey orgId) =
        (stores history).valkey (orgKey orgId) := Function.update_of_ne hkey _ _
    rw [hkept]
    exact (h orgId horg).1

/-- A blank set changes nothing. -/
theorem fresh_blank (hblank : orgId = [] ∨ slug = []) (h : Fresh history) :
    Fresh (history ++ [.set orgId slug access]) := by
  have hstores : stores (history ++ [.set orgId slug access]) = stores history := by
    rw [stores_snoc]
    exact if_pos hblank
  rw [fresh_iff] at h ⊢
  intro other hother
  have hlatest : latest (history ++ [.set orgId slug access]) other = latest history other := by
    rw [latest, List.foldl_append]
    refine if_neg ?_
    rintro ⟨horg, hslug⟩
    exact hblank.elim (fun hnil => hother (horg ▸ hnil)) hslug
  rw [hstores, hlatest]
  exact h other hother

theorem holds_some {entry : Option PyStr} :
    Holds entry (some slug) ↔ ∀ old, entry = some old → old = slug := by
  cases entry with
  | none => exact iff_of_true (Or.inl rfl) (by simp)
  | some old =>
    constructor
    · rintro (h | h) old' hold
      · cases h
      · exact (Option.some.inj hold).symm.trans (Option.some.inj h)
    · exact fun h => Or.inr (by rw [h old rfl])

/-- A set keeps the cache fresh exactly when it leaves no other slug behind. -/
theorem fresh_set (horg : orgId ≠ []) (hslug : slug ≠ []) (h : Fresh history) :
    Fresh (history ++ [.set orgId slug access]) ↔ Clear (stores history) orgId slug access := by
  have hnot : ¬ (orgId = [] ∨ slug = []) := not_or.mpr ⟨horg, hslug⟩
  have hother : ∀ other, orgId ≠ other → orgKey other ≠ orgKey orgId :=
    fun other hne heq => hne (orgKey_injective heq).symm
  rw [fresh_iff] at h ⊢
  simp only [stores_snoc, latest_set _ hslug, Action.apply, Stores.setTenantSlugForOrg, if_neg hnot]
  have hrest : ∀ (s : Stores), (∀ key ≠ orgKey orgId, s.valkey key = (stores history).valkey key ∧
      s.memory key = (stores history).memory key) →
      ((∀ other ≠ [], Holds (s.valkey (orgKey other))
          (if orgId = other then some slug else latest history other) ∧
        Holds (s.memory (orgKey other))
          (if orgId = other then some slug else latest history other)) ↔
        Holds (s.valkey (orgKey orgId)) (some slug) ∧ Holds (s.memory (orgKey orgId)) (some slug)) := by
    intro s hkept
    constructor
    · intro hall
      have hone := hall orgId horg
      rwa [if_pos rfl] at hone
    · intro hone other hne
      by_cases heq : orgId = other
      · rw [if_pos heq, ← heq]
        exact hone
      · rw [if_neg heq, (hkept _ (hother other heq)).1, (hkept _ (hother other heq)).2]
        exact h other hne
  have hwritten : ∀ f : PyStr → Option PyStr,
      Holds (Function.update f (orgKey orgId) (some slug) (orgKey orgId)) (some slug) :=
    fun f => Or.inr (Function.update_self _ _ _)
  cases access with
  | served =>
    refine (hrest ((stores history).saveValkey (orgKey orgId) slug) fun key hkey =>
      ⟨Function.update_of_ne hkey _ _, rfl⟩).trans ?_
    exact (and_iff_right (hwritten _)).trans holds_some
  | unavailable =>
    refine (hrest ((stores history).saveMemory (orgKey orgId) slug) fun key hkey =>
      ⟨rfl, Function.update_of_ne hkey _ _⟩).trans ?_
    exact (and_iff_left (hwritten _)).trans holds_some
  | failed executed =>
    cases executed with
    | false =>
      refine (hrest ((stores history).saveMemory (orgKey orgId) slug) fun key hkey =>
        ⟨rfl, Function.update_of_ne hkey _ _⟩).trans ?_
      exact (and_iff_left (hwritten _)).trans holds_some
    | true =>
      refine (hrest (((stores history).saveValkey (orgKey orgId) slug).saveMemory (orgKey orgId) slug)
        fun key hkey => ⟨Function.update_of_ne hkey _ _, Function.update_of_ne hkey _ _⟩).trans ?_
      exact iff_of_true ⟨hwritten _, hwritten _⟩ trivial

end Step

/-! ## All histories -/

/-- Whatever an action does to freshness. -/
theorem fresh_snoc {history : List Action} {action : Action} (h : Fresh history) :
    Fresh (history ++ [action]) ↔ ∀ orgId slug access, action = .set orgId slug access →
      orgId ≠ [] → slug ≠ [] → Clear (stores history) orgId slug access := by
  cases action with
  | expire key => exact iff_of_true (fresh_expire h) (by simp)
  | set orgId slug access =>
    by_cases hblank : orgId = [] ∨ slug = []
    · refine iff_of_true (fresh_blank hblank h) ?_
      rintro _ _ _ heq horg hslug
      cases heq
      exact absurd hblank (not_or.mpr ⟨horg, hslug⟩)
    · obtain ⟨horg, hslug⟩ := not_or.mp hblank
      rw [fresh_set horg hslug h]
      constructor
      · rintro hclear _ _ _ heq - -
        cases heq
        exact hclear
      · exact fun hall => hall _ _ _ rfl horg hslug

theorem fresh_nil : Fresh [] := fresh_iff.mpr fun _ _ => ⟨Or.inl rfl, Or.inl rfl⟩

/-- **The cache is fresh throughout a history exactly when no set leaves another slug behind in the
    store that it does not write.** -/
theorem org_cache_fresh (history : List Action) :
    (∀ before, before <+: history → Fresh before) ↔
      ∀ before orgId slug access, before ++ [.set orgId slug access] <+: history →
        orgId ≠ [] → slug ≠ [] → Clear (stores before) orgId slug access := by
  rw [Histories.throughout_iff fresh_nil fun _ _ => fresh_snoc]
  constructor
  · exact fun h before orgId slug access hbefore => h before _ hbefore orgId slug access rfl
  · rintro h before action hbefore orgId slug access rfl
    exact h before orgId slug access hbefore

/-- Set, lose Valkey, set again, have Valkey back: a get returns the first slug. -/
theorem stale_after_outage : ¬ ∀ history, Fresh history := by
  intro h
  have hget := h [.set (PyStr.lit "org_1") (PyStr.lit "acme") .served,
    .set (PyStr.lit "org_1") (PyStr.lit "acme-two") .unavailable] (PyStr.lit "org_1") .served
  revert hget
  decide +kernel

end ControlPlane.Tenants
