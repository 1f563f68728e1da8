/-
  THE REVIEW FEED: `review` and `reviews_since` of `apps/extraction/api.py`.

  A request saves its decisions one by one inside one transaction; each row is stamped with the clock
  of the moment it is saved, and all become visible at the commit.  A client polls from a cursor on,
  the largest `created_at` it has received.

  Stamps and commits are in DIFFERENT ORDERS.  A row that becomes visible behind the cursor is never
  returned, and a row that does not is returned by the next poll (`review_feed_lossless`): what a
  client has, and what still lies ahead of its cursor, is all there is (`Ahead`).  One step keeps that
  unless it commits a row behind the cursor, and what is lost stays lost.
-/
import ControlPlane.Histories
import ControlPlane.PyStr
import ControlPlane.Sorting
import Mathlib.Order.Defs.LinearOrder

namespace ControlPlane.Extraction.ReviewFeed

/-! ## Decisions -/

/-- `ReviewItem`. -/
structure ReviewItem where
  candidateDigest : PyStr
  candidateDigestVersion : Int := 2
  claimId : Option PyStr := none
  decision : PyStr
  mergeTargetClaimId : Option PyStr := none
  reason : PyStr := []
  jobId : Option Nat := none
  deriving DecidableEq

/-- `value.removeprefix("sha256:")`. -/
def bareDigest (value : PyStr) : PyStr :=
  if (PyStr.lit "sha256:").isPrefixOf value then value.drop 7 else value

/-- `is_candidate_digest`. -/
def isCandidateDigest (value : PyStr) : Bool :=
  (bareDigest value).length == 64 && (bareDigest value).all PyStr.isHexDigit

/-- `ExtractionReview.Decision.values`. -/
def decisions : List PyStr := [PyStr.lit "accept", PyStr.lit "reject", PyStr.lit "merge_into"]

/-- What the route looks up or calls: the jobs of the tenant, and what `full_clean` says of fields and
    constraints. -/
structure Catalog where
  jobs : List Nat
  fieldMessages : ReviewItem → List PyStr

/-- `ExtractionReview.clean`. -/
def clean (item : ReviewItem) : List PyStr :=
  let target := item.mergeTargetClaimId.getD [] ≠ []
  if item.decision = PyStr.lit "merge_into" then
    if target then [] else [PyStr.lit "merge_into requires a target claim id"]
  else if target then [PyStr.lit "only merge_into may carry a target claim id"]
  else []

/-- What the route refuses in an item: the status and the detail. -/
def refusal (catalog : Catalog) (item : ReviewItem) : Option (Nat × PyStr) :=
  if !isCandidateDigest item.candidateDigest then
    some (400, PyStr.lit "candidate_digest must be sha256")
  else if item.candidateDigestVersion ≠ 1 ∧ item.candidateDigestVersion ≠ 2 then
    some (400, PyStr.lit "unsupported candidate_digest_version")
  else if item.decision ∉ decisions then
    some (400, PyStr.lit "unsupported review decision: " ++ item.decision)
  else if item.jobId.any fun id => id ∉ catalog.jobs then some (404, PyStr.lit "Not Found")
  else
    let messages := catalog.fieldMessages item ++ clean item
    if messages = [] then none else some (400, (PyStr.lit "; ").intercalate messages)

/-! ## Rows, requests and the client -/

variable {T : Type}

/-- A row of `control_extractionreview`, with the item that was saved; `T` is the type of
    timestamps. -/
structure Review (T : Type) where
  id : Nat
  tenant : String
  item : ReviewItem
  reviewer : String
  createdAt : T
  deriving DecidableEq

inductive Status where
  | opened
  | committed
  | rolledBack
  deriving DecidableEq, Repr

/-- A request to `review`: the items it has still to save, and the rows it has saved. -/
structure Request (T : Type) where
  tenant : String
  apiKey : String
  items : List ReviewItem
  rows : List (Review T) := []
  status : Status := .opened

/-- The requests so far, and one client of one tenant. -/
structure State (T : Type) where
  requests : List (Request T) := []
  tenant : String
  cursor : T
  received : List (Review T) := []

/-- What queries see. -/
def Request.visible (r : Request T) : List (Review T) :=
  match r.status with
  | .committed => r.rows
  | .opened | .rolledBack => []

def State.visible (s : State T) : List (Review T) := s.requests.flatMap Request.visible

/-- The rows of `reviews_since`. -/
def State.reviewsSince [LinearOrder T] (s : State T) : List (Review T) :=
  Sorting.sortedBy Review.createdAt <| Sorting.sortedBy Review.id <|
    s.visible.filter fun r => r.tenant = s.tenant ∧ s.cursor ≤ r.createdAt

inductive Action (T : Type) where
  /-- A request arrives. -/
  | call (tenant apiKey : String) (items : List ReviewItem)
  /-- A request saves its next item under a new id, at a time. -/
  | save (request : Nat) (id : Nat) (now : T)
  /-- A request that has saved all its items commits; the commit may fail. -/
  | commit (request : Nat) (succeeds : Bool)
  | poll

variable (catalog : Catalog)

/-- A request is rolled back: its rows are gone. -/
def Request.rollback (r : Request T) : Request T := { r with rows := [], status := .rolledBack }

/-- One round of the loop in `review`.  An id that is taken raises `IntegrityError`. -/
def Request.save (taken : List Nat) (id : Nat) (now : T) (r : Request T) : Request T :=
  match r.status, r.items with
  | .opened, item :: items =>
      if (refusal catalog item).isSome ∨ id ∈ taken then r.rollback
      else
        let saved := { item with candidateDigest := bareDigest item.candidateDigest }
        { r with
          items := items
          rows := r.rows ++ [⟨id, r.tenant, saved, "machine_key:" ++ r.apiKey, now⟩] }
  | _, _ => r

def Request.commit (succeeds : Bool) (r : Request T) : Request T :=
  match r.status, r.items with
  | .opened, [] => if succeeds then { r with status := .committed } else r.rollback
  | _, _ => r

/-- The ids of all rows that are there. -/
def State.ids (s : State T) : List Nat := (s.requests.flatMap Request.rows).map Review.id

def Action.apply [LinearOrder T] (s : State T) : Action T → State T
  | .call tenant apiKey items =>
      -- a batch of more than 500 is refused before the transaction
      if 500 < items.length then s
      else { s with requests := s.requests ++ [{ tenant := tenant, apiKey := apiKey, items := items }] }
  | .save i id now => { s with requests := s.requests.modify i (Request.save catalog s.ids id now) }
  | .commit i succeeds => { s with requests := s.requests.modify i (Request.commit succeeds) }
  | .poll => { s with
      received := s.received ++ s.reviewsSince
      cursor := (s.reviewsSince.map Review.createdAt).foldl max s.cursor }

def run [LinearOrder T] (history : List (Action T)) (s : State T) : State T :=
  history.foldl (Action.apply catalog) s

/-! ## What a request can do -/

section Requests

variable {catalog} {r : Request T} {s : State T}

theorem save_cases (taken : List Nat) (id : Nat) (now : T) :
    r.save catalog taken id now = r ∨
      r.status = .opened ∧ (r.save catalog taken id now = r.rollback ∨
        id ∉ taken ∧ ∃ row items, row.id = id ∧
          r.save catalog taken id now = { r with items := items, rows := r.rows ++ [row] }) := by
  unfold Request.save
  split
  · rename_i item items hstatus hitems
    refine Or.inr ⟨hstatus, ?_⟩
    split
    · exact Or.inl rfl
    · rename_i hnew
      exact Or.inr ⟨fun htaken => hnew (Or.inr htaken), _, items, rfl, rfl⟩
  · exact Or.inl rfl

theorem commit_cases (succeeds : Bool) :
    r.commit succeeds = r ∨ r.status = .opened ∧ (r.commit succeeds = r.rollback ∨
      r.items = [] ∧ succeeds = true ∧ r.commit succeeds = { r with status := .committed }) := by
  unfold Request.commit
  split
  · rename_i hstatus hitems
    refine Or.inr ⟨hstatus, ?_⟩
    cases succeeds with
    | true => exact Or.inr ⟨hitems, rfl, rfl⟩
    | false => exact Or.inl rfl
  · exact Or.inl rfl

theorem visible_opened (h : r.status = .opened) : r.visible = [] := by rw [Request.visible, h]

theorem visible_rollback : r.rollback.visible = [] := rfl

theorem visible_sublist : r.visible.Sublist r.rows := by
  unfold Request.visible
  split
  · exact List.Sublist.refl _
  · exact List.nil_sublist _
  · exact List.nil_sublist _

/-- A step of one request leaves the others alone. -/
theorem modify_cases (f : Request T → Request T) (i : Nat) (requests : List (Request T)) :
    (requests[i]? = none ∧ requests.modify i f = requests) ∨ ∃ before r after,
      requests = before ++ r :: after ∧ requests[i]? = some r ∧
        requests.modify i f = before ++ f r :: after := by
  by_cases hi : i < requests.length
  · obtain ⟨before, r, after, heq, hlen, hmodify⟩ := List.exists_of_modify f hi
    refine Or.inr ⟨before, r, after, heq, ?_, hmodify⟩
    rw [heq, ← hlen, List.getElem?_append_right (le_refl _), Nat.sub_self]
    rfl
  · have hle := Nat.le_of_not_lt hi
    exact Or.inl ⟨List.getElem?_eq_none hle, List.modify_eq_self hle⟩

theorem mem_reviewsSince [LinearOrder T] {row : Review T} : row ∈ s.reviewsSince ↔
    row ∈ s.visible ∧ row.tenant = s.tenant ∧ s.cursor ≤ row.createdAt := by
  rw [State.reviewsSince, Sorting.mem_sortedBy, Sorting.mem_sortedBy, List.mem_filter,
    decide_eq_true_eq]

end Requests

/-! ## The invariant -/

/-- Every row has an id of its own, and what the client has is visible. -/
structure State.Ok (s : State T) : Prop where
  distinct : s.ids.Nodup
  received : ∀ row ∈ s.received, row ∈ s.visible

section Steps

variable {catalog} {s : State T} {f : Request T → Request T} {i : Nat} {r : Request T}
  {before after : List (Request T)}

/-- What a step of a request does to its rows and to what is visible of it. -/
inductive Moves (s : State T) (r : Request T) : Request T → Prop where
  | stays : Moves s r r
  | drops (h : r.status = .opened) : Moves s r r.rollback
  | saves (h : r.status = .opened) {row : Review T} (items : List ReviewItem) (hid : row.id ∉ s.ids) :
      Moves s r { r with items := items, rows := r.rows ++ [row] }
  | commits (h : r.status = .opened) (hitems : r.items = []) : Moves s r { r with status := .committed }

theorem save_moves (id : Nat) (now : T) : Moves s r (r.save catalog s.ids id now) := by
  rcases @save_cases _ catalog r s.ids id now with
    h | ⟨hopened, h | ⟨hid, row, items, rfl, h⟩⟩ <;> rw [h]
  · exact .stays
  · exact .drops hopened
  · exact .saves hopened items hid

theorem commit_moves (succeeds : Bool) : Moves s r (r.commit succeeds) := by
  rcases commit_cases (r := r) succeeds with h | ⟨hopened, h | ⟨hitems, -, h⟩⟩ <;> rw [h]
  · exact .stays
  · exact .drops hopened
  · exact .commits hopened hitems

theorem ids_of_requests {requests : List (Request T)}
    (h : s.requests = before ++ r :: after) (hmoved : requests = before ++ f r :: after)
    (hf : Moves s r (f r)) (hdistinct : s.ids.Nodup) :
    ((requests.flatMap Request.rows).map Review.id).Nodup := by
  have hids : s.ids = (before.flatMap Request.rows ++ (r.rows ++ after.flatMap Request.rows)).map
      Review.id := by rw [State.ids, h, List.flatMap_append, List.flatMap_cons]
  rw [hmoved, List.flatMap_append, List.flatMap_cons]
  generalize f r = r' at hf
  cases hf with
  | stays => rwa [hids] at hdistinct
  | drops hopened =>
    rw [hids] at hdistinct
    refine hdistinct.sublist (List.Sublist.map _ ?_)
    exact (List.Sublist.refl _).append (List.sublist_append_right _ _)
  | @saves hopened row items hid =>
    rw [hids] at hdistinct hid
    have hperm : (before.flatMap Request.rows ++ (r.rows ++ [row] ++ after.flatMap Request.rows)).Perm
        (row :: (before.flatMap Request.rows ++ (r.rows ++ after.flatMap Request.rows))) := by
      rw [List.append_assoc, List.singleton_append, ← List.append_assoc]
      exact List.perm_middle.trans (by rw [List.append_assoc])
    refine (hperm.map Review.id).nodup_iff.mpr ?_
    rw [List.map_cons]
    exact List.nodup_cons.mpr ⟨hid, hdistinct⟩
  | commits hopened hitems => rwa [hids] at hdistinct

/-- What is visible stays visible, and what becomes visible is a request's rows. -/
theorem visible_moves (hf : Moves s r (f r)) {row : Review T} :
    row ∈ (f r).visible ↔ row ∈ r.visible ∨
      (r.status = .opened ∧ (f r).status = .committed ∧ row ∈ r.rows) := by
  generalize f r = r' at hf
  cases hf with
  | stays =>
    refine (or_iff_left ?_).symm
    rintro ⟨hopened, hcommitted, -⟩
    rw [hopened] at hcommitted
    cases hcommitted
  | drops hopened =>
    rw [visible_rollback, visible_opened hopened]
    refine (or_iff_left ?_).symm
    rintro ⟨-, hcommitted, -⟩
    cases hcommitted
  | @saves hopened new items hid =>
    have hsaved : ({ r with items := items, rows := r.rows ++ [new] } : Request T).visible = [] :=
      visible_opened hopened
    rw [hsaved, visible_opened hopened]
    refine (or_iff_left ?_).symm
    rintro ⟨-, hcommitted, -⟩
    rw [hopened] at hcommitted
    cases hcommitted
  | commits hopened hitems =>
    rw [visible_opened hopened]
    exact ⟨fun hrow => Or.inr ⟨hopened, rfl, hrow⟩,
      fun h => h.elim (fun hnil => absurd hnil List.not_mem_nil) fun hboth => hboth.2.2⟩

/-- What a step of request `i` makes visible. -/
theorem visible_modify {s' : State T} (hs' : s'.requests = s.requests.modify i f)
    (hf : ∀ r, Moves s r (f r)) {row : Review T} : row ∈ s'.visible ↔ row ∈ s.visible ∨
      ∃ r, s.requests[i]? = some r ∧ r.status = .opened ∧ (f r).status = .committed ∧
        row ∈ r.rows := by
  rw [State.visible, State.visible, hs']
  rcases modify_cases f i s.requests with ⟨hnone, heq⟩ | ⟨before, r, after, hbefore, hget, heq⟩
  · rw [heq, hnone]
    refine (or_iff_left ?_).symm
    rintro ⟨r, h, -⟩
    cases h
  · rw [heq, hget, hbefore]
    simp only [List.flatMap_append, List.flatMap_cons, List.mem_append, visible_moves (hf r),
      Option.some.injEq, exists_eq_left']
    constructor
    · rintro (h | (h | h) | h)
      · exact Or.inl (Or.inl h)
      · exact Or.inl (Or.inr (Or.inl h))
      · exact Or.inr h
      · exact Or.inl (Or.inr (Or.inr h))
    · rintro ((h | h | h) | h)
      · exact Or.inl h
      · exact Or.inr (Or.inl (Or.inl h))
      · exact Or.inr (Or.inr h)
      · exact Or.inr (Or.inl (Or.inr h))

variable [LinearOrder T]

/-- What an action makes visible: the rows of a request that commits. -/
theorem visible_apply (action : Action T) {row : Review T} :
    row ∈ (action.apply catalog s).visible ↔ row ∈ s.visible ∨ ∃ i r, action = .commit i true ∧
      s.requests[i]? = some r ∧ r.status = .opened ∧ r.items = [] ∧ row ∈ r.rows := by
  cases action with
  | call tenant apiKey items =>
    have hnew : row ∈ (Action.apply catalog s (.call tenant apiKey items)).visible ↔
        row ∈ s.visible := by
      rw [Action.apply]
      split
      · rfl
      · have hempty : ({ tenant := tenant, apiKey := apiKey, items := items } : Request T).visible =
            [] := rfl
        simp only [State.visible, List.flatMap_append, List.flatMap_cons, List.flatMap_nil, hempty,
          List.append_nil]
    rw [hnew]
    refine (or_iff_left ?_).symm
    rintro ⟨_, _, h, -⟩
    cases h
  | save i id now =>
    refine (visible_modify (f := Request.save catalog s.ids id now) rfl
      fun r => save_moves id now).trans ((or_iff_left ?_).trans (or_iff_left ?_).symm)
    · rintro ⟨r, -, hopened, hcommitted, -⟩
      rcases @save_cases _ catalog r s.ids id now with
        h | ⟨-, h | ⟨-, row, items, -, h⟩⟩ <;> rw [h] at hcommitted
      · rw [hopened] at hcommitted
        cases hcommitted
      · cases hcommitted
      · exact absurd (hopened.symm.trans hcommitted) (by decide)
    · rintro ⟨_, _, h, -⟩
      cases h
  | commit i succeeds =>
    refine (visible_modify (f := Request.commit succeeds) rfl
      fun r => commit_moves succeeds).trans (or_congr_right ?_)
    constructor
    · rintro ⟨r, hget, hopened, hcommitted, hrow⟩
      rcases commit_cases (r := r) succeeds with h | ⟨-, h | ⟨hitems, rfl, -⟩⟩
      · rw [h, hopened] at hcommitted
        cases hcommitted
      · rw [h] at hcommitted
        cases hcommitted
      · exact ⟨i, r, rfl, hget, hopened, hitems, hrow⟩
    · rintro ⟨_, r, h, hget, hopened, hitems, hrow⟩
      cases h
      refine ⟨r, hget, hopened, ?_, hrow⟩
      unfold Request.commit
      rw [hopened, hitems]
      rfl
  | poll =>
    refine (or_iff_left ?_).symm
    rintro ⟨_, _, h, -⟩
    cases h

theorem ok_apply (hs : s.Ok) (action : Action T) : (action.apply catalog s).Ok := by
  have hvisible : ∀ row ∈ s.visible, row ∈ (action.apply catalog s).visible :=
    fun row hrow => (visible_apply action).mpr (Or.inl hrow)
  have hmodify : ∀ {f : Request T → Request T} {i : Nat}, (∀ r, Moves s r (f r)) →
      (((s.requests.modify i f).flatMap Request.rows).map Review.id).Nodup := by
    intro f i hf
    rcases modify_cases f i s.requests with ⟨-, heq⟩ | ⟨before, r, after, hbefore, -, heq⟩
    · rw [heq]
      exact hs.distinct
    · exact ids_of_requests hbefore heq (hf r) hs.distinct
  cases action with
  | call tenant apiKey items =>
    rw [Action.apply] at hvisible ⊢
    split
    · exact hs
    · rename_i hlen
      rw [if_neg hlen] at hvisible
      refine ⟨?_, fun row hrow => hvisible row (hs.received row hrow)⟩
      simp only [State.ids, List.flatMap_append, List.flatMap_cons, List.flatMap_nil, List.append_nil]
      exact hs.distinct
  | save i id now =>
    exact ⟨hmodify fun r => save_moves id now, fun row hrow => hvisible row (hs.received row hrow)⟩
  | commit i succeeds =>
    exact ⟨hmodify fun r => commit_moves succeeds, fun row hrow => hvisible row (hs.received row hrow)⟩
  | poll =>
    refine ⟨hs.distinct, fun row hrow => ?_⟩
    rcases List.mem_append.mp hrow with hold | hnew
    · exact hs.received row hold
    · exact (mem_reviewsSince.mp hnew).1

end Steps

/-! ## What the client can still get -/

section Ahead

variable {catalog} [LinearOrder T] {s : State T} {start : T}

/-- Every review of the tenant since `start` has been received, or lies ahead of the cursor. -/
def Ahead (start : T) (s : State T) : Prop := ∀ row ∈ s.visible, row.tenant = s.tenant →
  start ≤ row.createdAt → row ∈ s.received ∨ s.cursor ≤ row.createdAt

/-- No row of request `i` is stamped before the cursor, if it is about to commit. -/
def NotBehind (start : T) (s : State T) (i : Nat) : Prop := ∀ r, s.requests[i]? = some r →
  r.status = .opened → r.items = [] → ∀ row ∈ r.rows, row.tenant = s.tenant →
    start ≤ row.createdAt → s.cursor ≤ row.createdAt

theorem tenant_apply (action : Action T) : (action.apply catalog s).tenant = s.tenant := by
  cases action with
  | call tenant apiKey items =>
    rw [Action.apply]
    split <;> rfl
  | save | commit | poll => rfl

theorem cursor_le_apply (action : Action T) : s.cursor ≤ (action.apply catalog s).cursor := by
  have hfold : ∀ (stamps : List T) (cursor : T), cursor ≤ stamps.foldl max cursor := by
    intro stamps
    induction stamps with
    | nil => exact fun cursor => le_refl cursor
    | cons stamp stamps ih => exact fun cursor => (le_max_left cursor stamp).trans (ih _)
  cases action with
  | call tenant apiKey items =>
    rw [Action.apply]
    split <;> exact le_refl _
  | save | commit => exact le_refl _
  | poll => exact hfold _ _

/-- Rows that an action delivers lay ahead of the cursor. -/
theorem received_apply (action : Action T) {row : Review T}
    (h : row ∈ (action.apply catalog s).received) :
    row ∈ s.received ∨ s.cursor ≤ row.createdAt := by
  cases action with
  | call tenant apiKey items =>
    rw [Action.apply] at h
    split at h <;> exact Or.inl h
  | save | commit => exact Or.inl h
  | poll =>
    rcases List.mem_append.mp h with hold | hnew
    · exact Or.inl hold
    · exact Or.inr (mem_reviewsSince.mp hnew).2.2

theorem received_mono (action : Action T) {row : Review T} (h : row ∈ s.received) :
    row ∈ (action.apply catalog s).received := by
  cases action with
  | call tenant apiKey items =>
    rw [Action.apply]
    split <;> exact h
  | save | commit => exact h
  | poll => exact List.mem_append_left _ h

omit [LinearOrder T] in
/-- The rows of a request that is not committed are not visible. -/
theorem hidden (hs : s.Ok) {r : Request T} (hr : r ∈ s.requests) (hnone : r.visible = [])
    {row : Review T} (hrow : row ∈ r.rows) : row ∉ s.visible := by
  obtain ⟨before, after, hsplit⟩ := List.append_of_mem hr
  have hdistinct := hs.distinct
  rw [State.ids, hsplit, List.flatMap_append, List.flatMap_cons] at hdistinct
  have hnodup := List.Nodup.of_map _ hdistinct
  have hmono : ∀ {requests : List (Request T)}, row ∈ requests.flatMap Request.visible →
      row ∈ requests.flatMap Request.rows := by
    intro requests h
    obtain ⟨q, hq, hrowq⟩ := List.mem_flatMap.mp h
    exact List.mem_flatMap.mpr ⟨q, hq, visible_sublist.mem hrowq⟩
  obtain ⟨-, hright, hapart⟩ := List.nodup_append.mp hnodup
  obtain ⟨-, -, hapart'⟩ := List.nodup_append.mp hright
  rw [State.visible, hsplit, List.flatMap_append, List.flatMap_cons, hnone, List.nil_append]
  intro hvisible
  rcases List.mem_append.mp hvisible with hbefore | hafter
  · exact hapart row (hmono hbefore) row (List.mem_append_left _ hrow) rfl
  · exact hapart' row hrow row (hmono hafter) rfl

/-- **One action keeps everything ahead, unless it commits a row behind the cursor; and what is lost
    stays lost.** -/
theorem ahead_apply (hs : s.Ok) (action : Action T) : Ahead start (action.apply catalog s) ↔
    Ahead start s ∧ ∀ i, action = .commit i true → NotBehind start s i := by
  constructor
  · intro hahead
    constructor
    · intro row hrow htenant hstart
      have hafter := hahead row ((visible_apply action).mpr (Or.inl hrow))
        (htenant.trans (tenant_apply action).symm) hstart
      rcases hafter with hreceived | hcursor
      · exact received_apply action hreceived
      · exact Or.inr ((cursor_le_apply action).trans hcursor)
    · rintro i rfl r hget hopened hitems row hrow htenant hstart
      have hafter := hahead row
        ((visible_apply _).mpr (Or.inr ⟨i, r, rfl, hget, hopened, hitems, hrow⟩)) htenant hstart
      rcases hafter with hreceived | hcursor
      · -- what has been received was visible, and this row was not
        exact absurd (hs.received row hreceived)
          (hidden hs (List.mem_of_getElem? hget) (visible_opened hopened) hrow)
      · exact hcursor
  · rintro ⟨hahead, hcommit⟩ row hrow htenant hstart
    rw [tenant_apply] at htenant
    rcases (visible_apply action).mp hrow with hold | ⟨i, r, rfl, hget, hopened, hitems, hnew⟩
    · rcases hahead row hold htenant hstart with hreceived | hcursor
      · exact Or.inl (received_mono action hreceived)
      · cases action with
        | call tenant apiKey items =>
          refine Or.inr ?_
          rw [Action.apply]
          split <;> exact hcursor
        | save | commit => exact Or.inr hcursor
        | poll =>
          exact Or.inl (List.mem_append_right _ (mem_reviewsSince.mpr ⟨hold, htenant, hcursor⟩))
    · exact Or.inr (hcommit i rfl r hget hopened hitems row hnew htenant hstart)

end Ahead

/-! ## All histories -/

section Histories

variable [LinearOrder T] (tenant : String) (start : T)

/-- A client that asks from `start` on. -/
def initial : State T := { tenant := tenant, cursor := start }

/-- The next poll has every review of the tenant that is visible and was not received; and of every
    request all rows are visible, or none is. -/
structure Lossless (s : State T) : Prop where
  complete : ∀ row ∈ s.visible, row.tenant = s.tenant → start ≤ row.createdAt →
    row ∈ (Action.apply catalog s .poll).received
  whole : ∀ r ∈ s.requests, (∀ row ∈ r.rows, row ∈ s.visible) ∨ ∀ row ∈ r.rows, row ∉ s.visible

variable {catalog} {tenant} {start}

theorem run_snoc (history : List (Action T)) (action : Action T) (s : State T) :
    run catalog (history ++ [action]) s = action.apply catalog (run catalog history s) := by
  rw [run, run, List.foldl_append]
  rfl

theorem run_ok (history : List (Action T)) : (run catalog history (initial tenant start)).Ok := by
  induction history using List.reverseRecOn with
  | nil => exact ⟨List.nodup_nil, fun _ hrow => absurd hrow List.not_mem_nil⟩
  | append_singleton history action ih =>
    rw [run_snoc]
    exact ok_apply ih action

theorem lossless_iff {s : State T} (hs : s.Ok) : Lossless catalog start s ↔ Ahead start s := by
  constructor
  · intro h row hrow htenant hstart
    rcases List.mem_append.mp (h.complete row hrow htenant hstart) with hold | hnew
    · exact Or.inl hold
    · exact Or.inr (mem_reviewsSince.mp hnew).2.2
  · intro hahead
    refine ⟨fun row hrow htenant hstart => ?_, fun r hr => ?_⟩
    · rcases hahead row hrow htenant hstart with hreceived | hcursor
      · exact List.mem_append_left _ hreceived
      · exact List.mem_append_right _ (mem_reviewsSince.mpr ⟨hrow, htenant, hcursor⟩)
    · cases hstatus : r.status with
      | committed =>
        refine Or.inl fun row hrow => List.mem_flatMap.mpr ⟨r, hr, ?_⟩
        rwa [Request.visible, hstatus]
      | opened | rolledBack =>
        refine Or.inr fun row hrow => hidden hs hr ?_ hrow
        rw [Request.visible, hstatus]

/-- **The feed loses nothing exactly when no transaction commits behind the client's cursor.** -/
theorem review_feed_lossless (history : List (Action T)) :
    Lossless catalog start (run catalog history (initial tenant start)) ↔
      ∀ before i, before ++ [.commit i true] <+: history →
        NotBehind start (run catalog before (initial tenant start)) i := by
  rw [lossless_iff (run_ok history), Histories.holds_iff
    (P := fun history => Ahead start (run catalog history (initial tenant start)))
    (fun _ hrow => absurd hrow List.not_mem_nil)
    fun before action => by rw [run_snoc]; exact ahead_apply (run_ok before) action]
  constructor
  · exact fun h before i hbefore => h before _ hbefore i rfl
  · rintro h before action hbefore i rfl
    exact h before i hbefore

end Histories

/-! ## Two requests that overlap -/

def smallItem : ReviewItem where
  candidateDigest := List.replicate 64 0x30
  decision := PyStr.lit "accept"

/-- The first request saves first and commits last; the client polls in between. -/
def smallHistory : List (Action Nat) :=
  [.call "tenant" "key" [smallItem], .call "tenant" "key" [smallItem], .save 0 0 1, .save 1 1 2,
    .commit 1 true, .poll, .commit 0 true]

/-- The next poll asks from 2 on, and the row that was saved at 1 is never returned. -/
theorem overlapping_request_lost :
    ¬ Lossless ⟨[], fun _ => []⟩ 0 (run ⟨[], fun _ => []⟩ smallHistory (initial "tenant" 0)) := by
  intro hlossless
  have hrow := hlossless.complete ⟨0, "tenant", smallItem, "machine_key:key", 1⟩ (by decide) rfl
    (by decide)
  revert hrow
  decide

end ControlPlane.Extraction.ReviewFeed
