/-
  ROLLBACK PREPARATION: `prepare_legacy_uniqueness` of the extraction migration 0002, away from
  Postgres.

  The older constraint knows no `source_kind`, so before it returns, jobs that it takes for one
  another must be told apart.  One scan in the order of creation remembers the first job of every group and
  lists the others; each of these gets a new `params_hash`, a digest in which its own id stands.

  1. `Scanned`: of the jobs already scanned, those are listed that COLLIDE with an earlier one.  Since
     only the first of a group is remembered, this needs `Json.eq_trans`.
  2. `digest_inj`: the new hashes of two jobs differ, since their ids do.
  3. `legacy_uniqueness`: no two jobs collide any more, exactly the first of each group stay what they
     are, only hashes change, and a second run changes nothing.
-/
import ControlPlane.Fallible
import ControlPlane.JsonEq
import ControlPlane.Layout.Cache
import ControlPlane.Orchestration.Keys
import ControlPlane.Sorting
import Mathlib.Data.Prod.Lex

namespace ControlPlane.Extraction.Rollback

open Keys (Uuid)
open PyStr (lit Scalar encode encoded)

/-- A row of `control_extractionjob`; `rest` is what the migration does not read. -/
structure Job (Rest : Type) where
  id : Uuid
  tenantId : Uuid
  operation : PyStr
  sourceKind : PyStr
  sourceRef : Json
  paramsHash : PyStr
  /-- In microseconds. -/
  createdAt : Int
  rest : Rest

/-- The table: a primary key, text that is stored as UTF-8, and JSON that was parsed. -/
structure JobTable (Rest : Type) where
  rows : List (Job Rest)
  ids : (rows.map Job.id).Nodup
  text : ∀ job ∈ rows, Scalar job.paramsHash ∧ Scalar job.sourceKind
  keyed : ∀ job ∈ rows, job.sourceRef.Keyed

variable {Rest : Type}

/-! ## The migration -/

abbrev Identity := Uuid × PyStr × PyStr

def Job.identity (job : Job Rest) : Identity := (job.tenantId, job.operation, job.paramsHash)

/-- What the scan carries along. -/
structure Scan where
  duplicateIds : List Uuid
  seen : List (Identity × Json)

/-- The body of the scan. -/
def scanJob (s : Scan) (job : Job Rest) : Scan :=
  if s.seen.any fun prior => job.identity = prior.1 && job.sourceRef.eq prior.2 then
    { s with duplicateIds := s.duplicateIds ++ [job.id] }
  else { s with seen := s.seen ++ [(job.identity, job.sourceRef)] }

/-- `order_by('created_at', 'id')`. -/
def Job.order (job : Job Rest) : Int ×ₗ Nat := toLex (job.createdAt, job.id.int)

/-- The ids that the scan lists. -/
def duplicateIds (rows : List (Job Rest)) : List Uuid :=
  ((Sorting.sortedBy Job.order rows).foldl scanJob ⟨[], []⟩).duplicateIds

/-- `rollback_identity`. -/
def Job.rollbackIdentity (job : Job Rest) : PyStr :=
  lit "theorem.extraction.rollback:" ++ job.paramsHash ++ lit ":" ++ job.sourceKind ++ lit ":" ++
    job.id.str

/-- The new `params_hash`. -/
def rollbackHash (hexdigest : List UInt8 → PyStr) (job : Job Rest) : Except PyError PyStr :=
  match encode job.rollbackIdentity with
  | some raw => .ok (hexdigest raw)
  | none => .error ⟨.unicodeEncodeError, []⟩

/-- What becomes of a row. -/
def rewriteJob (hexdigest : List UInt8 → PyStr) (duplicates : List Uuid) (job : Job Rest) :
    Except PyError (Job Rest) :=
  if job.id ∈ duplicates then
    (rollbackHash hexdigest job).map fun digest => { job with paramsHash := digest }
  else .ok job

/-- `prepare_legacy_uniqueness`, where the database is not Postgres. -/
def prepareLegacyUniqueness (hexdigest : List UInt8 → PyStr) (rows : List (Job Rest)) :
    Except PyError (List (Job Rest)) :=
  rows.mapM (rewriteJob hexdigest (duplicateIds rows))

/-- The older constraint takes the jobs for one another. -/
def Job.collides (a b : Job Rest) : Bool := a.identity = b.identity && a.sourceRef.eq b.sourceRef

variable {rows jobs scanned : List (Job Rest)} {job a b c : Job Rest} {s : Scan}
  {hexdigest : List UInt8 → PyStr}

/-! ## Collisions -/

theorem collides_iff :
    a.collides b = true ↔ a.identity = b.identity ∧ a.sourceRef.eq b.sourceRef = true := by
  rw [Job.collides, Bool.and_eq_true, decide_eq_true_eq]

theorem collides_symm (ha : a.sourceRef.Keyed) (hb : b.sourceRef.Keyed) (h : a.collides b = true) :
    b.collides a = true := by
  obtain ⟨hidentity, href⟩ := collides_iff.mp h
  exact collides_iff.mpr ⟨hidentity.symm, Json.eq_symm ha hb href⟩

theorem collides_trans (ha : a.sourceRef.Keyed) (hab : a.collides b = true)
    (hbc : b.collides c = true) : a.collides c = true := by
  obtain ⟨hidentity, href⟩ := collides_iff.mp hab
  obtain ⟨hidentity', href'⟩ := collides_iff.mp hbc
  exact collides_iff.mpr ⟨hidentity.trans hidentity', Json.eq_trans ha href href'⟩

/-! ## The scan -/

/-- What the scan knows: the listed jobs collide with an earlier one, and every job is remembered or
    collides with one that is. -/
structure Scanned (scanned : List (Job Rest)) (s : Scan) : Prop where
  listed : ∀ id, id ∈ s.duplicateIds ↔
    ∃ job ∈ scanned, job.id = id ∧
      ∃ prior ∈ scanned, prior.order < job.order ∧ job.collides prior = true
  seen : ∀ x ∈ s.seen, ∃ job ∈ scanned, x = (job.identity, job.sourceRef)
  covered : ∀ job ∈ scanned, (job.identity, job.sourceRef) ∈ s.seen ∨
    ∃ prior ∈ scanned, (prior.identity, prior.sourceRef) ∈ s.seen ∧ job.collides prior = true

theorem scanned_nil : Scanned ([] : List (Job Rest)) ⟨[], []⟩ where
  listed := fun _ => iff_of_false List.not_mem_nil fun ⟨_, h, _⟩ => absurd h List.not_mem_nil
  seen := fun _ h => absurd h List.not_mem_nil
  covered := fun _ h => absurd h List.not_mem_nil

/-- A job is listed when it collides with any before it. -/
theorem any_seen_iff (h : Scanned scanned s) (hjob : job.sourceRef.Keyed) :
    (s.seen.any fun prior => job.identity = prior.1 && job.sourceRef.eq prior.2) = true ↔
      ∃ prior ∈ scanned, job.collides prior = true := by
  rw [List.any_eq_true]
  constructor
  · rintro ⟨x, hx, hcollides⟩
    obtain ⟨prior, hprior, rfl⟩ := h.seen x hx
    exact ⟨prior, hprior, hcollides⟩
  · rintro ⟨prior, hprior, hcollides⟩
    rcases h.covered prior hprior with hseen | ⟨first, -, hseen, hfirst⟩
    · exact ⟨_, hseen, hcollides⟩
    · exact ⟨_, hseen, collides_trans hjob hcollides hfirst⟩

/-- One job more, which comes after all that were scanned. -/
theorem scanJob_scanned (h : Scanned scanned s) (hjob : job.sourceRef.Keyed)
    (hlater : ∀ prior ∈ scanned, prior.order < job.order) :
    Scanned (scanned ++ [job]) (scanJob s job) := by
  have hbefore : (∃ prior ∈ scanned ++ [job], prior.order < job.order ∧ job.collides prior = true) ↔
      ∃ prior ∈ scanned, job.collides prior = true := by
    constructor
    · rintro ⟨prior, hprior, hlt, hcollides⟩
      rcases List.mem_append.mp hprior with hprior | hprior
      · exact ⟨prior, hprior, hcollides⟩
      · rw [List.mem_singleton.mp hprior] at hlt
        exact absurd hlt (lt_irrefl _)
    · rintro ⟨prior, hprior, hcollides⟩
      exact ⟨prior, List.mem_append_left _ hprior, hlater prior hprior, hcollides⟩
  have hearlier : ∀ j ∈ scanned,
      (∃ prior ∈ scanned ++ [job], prior.order < j.order ∧ j.collides prior = true) ↔
        ∃ prior ∈ scanned, prior.order < j.order ∧ j.collides prior = true := by
    intro j hj
    constructor
    · rintro ⟨prior, hprior, hlt, hcollides⟩
      rcases List.mem_append.mp hprior with hprior | hprior
      · exact ⟨prior, hprior, hlt, hcollides⟩
      · rw [List.mem_singleton.mp hprior] at hlt
        exact absurd (hlt.trans (hlater j hj)) (lt_irrefl _)
    · rintro ⟨prior, hprior, h⟩
      exact ⟨prior, List.mem_append_left _ hprior, h⟩
  have hlisted : ∀ id, (∃ j ∈ scanned ++ [job], j.id = id ∧
      ∃ prior ∈ scanned ++ [job], prior.order < j.order ∧ j.collides prior = true) ↔
      id ∈ s.duplicateIds ∨ job.id = id ∧ ∃ prior ∈ scanned, job.collides prior = true := by
    intro id
    rw [h.listed, ← hbefore]
    constructor
    · rintro ⟨j, hj, hid, hprior⟩
      rcases List.mem_append.mp hj with hj | hj
      · exact Or.inl ⟨j, hj, hid, (hearlier j hj).mp hprior⟩
      · cases List.mem_singleton.mp hj
        exact Or.inr ⟨hid, hprior⟩
    · rintro (⟨j, hj, hid, hprior⟩ | ⟨hid, hprior⟩)
      · exact ⟨j, List.mem_append_left _ hj, hid, (hearlier j hj).mpr hprior⟩
      · exact ⟨job, List.mem_append_right _ (List.mem_singleton_self job), hid, hprior⟩
  unfold scanJob
  split
  · rename_i hany
    have hprior := (any_seen_iff h hjob).mp hany
    refine ⟨fun id => ?_, fun x hx => ?_, fun j hj => ?_⟩
    · rw [hlisted, List.mem_append, List.mem_singleton, and_iff_left hprior, eq_comm (a := id)]
    · obtain ⟨j, hj, heq⟩ := h.seen x hx
      exact ⟨j, List.mem_append_left _ hj, heq⟩
    · rcases List.mem_append.mp hj with hj | hj
      · exact (h.covered j hj).imp_right fun ⟨prior, hprior, hrest⟩ =>
          ⟨prior, List.mem_append_left _ hprior, hrest⟩
      · obtain ⟨x, hx, hcollides⟩ := List.any_eq_true.mp hany
        obtain ⟨prior, hprior, rfl⟩ := h.seen x hx
        rw [List.mem_singleton.mp hj]
        exact Or.inr ⟨prior, List.mem_append_left _ hprior, hx, hcollides⟩
  · rename_i hany
    have hprior := mt (any_seen_iff h hjob).mpr hany
    refine ⟨fun id => ?_, fun x hx => ?_, fun j hj => ?_⟩
    · rw [hlisted]
      exact (or_iff_left fun hid => hprior hid.2).symm
    · rcases List.mem_append.mp hx with hx | hx
      · obtain ⟨j, hj, heq⟩ := h.seen x hx
        exact ⟨j, List.mem_append_left _ hj, heq⟩
      · exact ⟨job, List.mem_append_right _ (List.mem_singleton_self job), List.mem_singleton.mp hx⟩
    · rcases List.mem_append.mp hj with hj | hj
      · refine (h.covered j hj).imp (List.mem_append_left _) ?_
        exact fun ⟨prior, hprior, hseen, hcollides⟩ =>
          ⟨prior, List.mem_append_left _ hprior, List.mem_append_left _ hseen, hcollides⟩
      · rw [List.mem_singleton.mp hj]
        exact Or.inl (List.mem_append_right _ (List.mem_singleton_self _))

/-- The rest of the jobs, in the order of creation. -/
theorem scan_scanned (h : Scanned scanned s) (hjobs : ∀ job ∈ jobs, job.sourceRef.Keyed)
    (horder : (scanned ++ jobs).Pairwise fun a b => a.order < b.order) :
    Scanned (scanned ++ jobs) (jobs.foldl scanJob s) := by
  induction jobs generalizing scanned s with
  | nil => rwa [List.append_nil]
  | cons job jobs ih =>
    rw [List.forall_mem_cons] at hjobs
    have hlater := fun prior hprior =>
      (List.pairwise_append.mp horder).2.2 prior hprior job List.mem_cons_self
    have hsplit : scanned ++ job :: jobs = (scanned ++ [job]) ++ jobs := by
      rw [List.append_assoc, List.singleton_append]
    rw [hsplit] at horder ⊢
    exact ih (scanJob_scanned h hjobs.1 hlater) hjobs.2 horder

theorem order_inj (h : a.order = b.order) : a.id = b.id := by
  have hint : a.id.int = b.id.int := congrArg (fun o => (ofLex o).2) h
  cases ha : a.id
  cases hb : b.id
  rw [ha, hb] at hint
  cases hint
  rfl

/-- Created before or after. -/
theorem sorted_order (hids : (rows.map Job.id).Nodup) :
    (Sorting.sortedBy Job.order rows).Pairwise fun a b => a.order < b.order := by
  have hle := List.pairwise_insertionSort (fun a b : Job Rest => a.order ≤ b.order) rows
  have hne : (Sorting.sortedBy Job.order rows).Pairwise fun a b => a.id ≠ b.id :=
    List.pairwise_map.mp (((Sorting.sortedBy_perm Job.order rows).map Job.id).nodup_iff.mpr hids)
  exact hle.imp₂ (fun a b hab hid => lt_of_le_of_ne hab fun h => hid (order_inj h)) hne

/-- **What is listed**: the jobs that collide with an earlier one. -/
theorem mem_duplicateIds (hids : (rows.map Job.id).Nodup) (hkeyed : ∀ job ∈ rows, job.sourceRef.Keyed)
    (hjob : job ∈ rows) : job.id ∈ duplicateIds rows ↔
      ∃ prior ∈ rows, prior.order < job.order ∧ job.collides prior = true := by
  have hsorted := sorted_order hids
  have hscanned := scan_scanned scanned_nil
    (fun job hjob => hkeyed job (Sorting.mem_sortedBy.mp hjob)) hsorted
  rw [List.nil_append] at hscanned
  rw [duplicateIds, hscanned.listed]
  simp only [Sorting.mem_sortedBy]
  constructor
  · rintro ⟨j, hj, hid, hprior⟩
    rwa [Table.eq_of_key hids hj hjob hid] at hprior
  · exact fun hprior => ⟨job, hjob, rfl, hprior⟩

/-! ## New hashes -/

/-- The id is the last 36 characters of the text. -/
theorem rollbackIdentity_inj (h : a.rollbackIdentity = b.rollbackIdentity) : a.id = b.id := by
  unfold Job.rollbackIdentity at h
  exact Uuid.str_inj (List.append_inj' h (by rw [Uuid.str_length, Uuid.str_length])).2

theorem rollbackHash_ok {digest : PyStr} : rollbackHash hexdigest job = .ok digest ↔
    ∃ raw, encode job.rollbackIdentity = some raw ∧ hexdigest raw = digest := by
  unfold rollbackHash
  cases encode job.rollbackIdentity with
  | none => exact iff_of_false nofun fun ⟨_, h, _⟩ => nomatch h
  | some raw =>
    refine ⟨fun h => ⟨raw, rfl, Except.ok.inj h⟩, ?_⟩
    rintro ⟨_, hraw, rfl⟩
    rw [Option.some.inj hraw]

theorem digest_inj (hhash : Function.Injective hexdigest) {digest : PyStr}
    (ha : rollbackHash hexdigest a = .ok digest) (hb : rollbackHash hexdigest b = .ok digest) :
    a.id = b.id := by
  obtain ⟨raw, hraw, rfl⟩ := rollbackHash_ok.mp ha
  obtain ⟨raw', hraw', heq⟩ := rollbackHash_ok.mp hb
  rw [hhash heq] at hraw'
  exact rollbackIdentity_inj (PyStr.encode_inj hraw hraw')

theorem uuid_scalar (u : Uuid) : Scalar u.str := by
  intro c hc
  have hname := List.all_eq_true.mp (Uuid.str_name u) c hc
  simp only [Keys.isNameChar, Bool.or_eq_true, Bool.and_eq_true, decide_eq_true_eq,
    beq_iff_eq] at hname
  simp only [PyStr.isSurrogate, Bool.and_eq_false_iff, decide_eq_false_iff_not]
  omega

theorem rollbackHash_exists (hhash : Scalar job.paramsHash) (hkind : Scalar job.sourceKind) :
    ∃ digest, rollbackHash hexdigest job = .ok digest := by
  have hscalar : Scalar job.rollbackIdentity := by
    unfold Job.rollbackIdentity
    simp only [PyStr.scalar_append]
    exact ⟨⟨⟨⟨⟨PyStr.lit_scalar _, hhash⟩, PyStr.lit_scalar _⟩, hkind⟩, PyStr.lit_scalar _⟩,
      uuid_scalar _⟩
  exact ⟨_, rollbackHash_ok.mpr ⟨_, PyStr.encode_of_scalar hscalar, rfl⟩⟩

/-! ## What becomes of the table -/

/-- Only the hash may change. -/
def Rehashed (job job' : Job Rest) : Prop := job' = { job with paramsHash := job'.paramsHash }

theorem rewriteJob_ok {duplicates : List Uuid} {job' : Job Rest} :
    rewriteJob hexdigest duplicates job = .ok job' ↔
      (job.id ∉ duplicates ∧ job' = job) ∨
        (job.id ∈ duplicates ∧ ∃ digest, rollbackHash hexdigest job = .ok digest ∧
          job' = { job with paramsHash := digest }) := by
  unfold rewriteJob
  by_cases hlisted : job.id ∈ duplicates
  · rw [if_pos hlisted, Fallible.map_ok]
    simp only [hlisted, not_true, false_and, false_or, true_and, eq_comm]
  · rw [if_neg hlisted]
    simp only [hlisted, not_false_eq_true, true_and, false_and, or_false, Except.ok.injEq, eq_comm]

theorem Rehashed.id_eq {job' : Job Rest} (h : Rehashed job job') : job'.id = job.id := by rw [h]

theorem ids_eq (h : List.Forall₂ Rehashed rows jobs) : jobs.map Job.id = rows.map Job.id := by
  induction h with
  | nil => rfl
  | cons hjob _ ih => rw [List.map_cons, List.map_cons, hjob.id_eq, ih]

theorem rehashed_of_rewrite {duplicates : List Uuid} {job' : Job Rest}
    (h : rewriteJob hexdigest duplicates job = .ok job') : Rehashed job job' := by
  rcases rewriteJob_ok.mp h with ⟨-, rfl⟩ | ⟨-, digest, -, rfl⟩ <;> rfl

section Runs

variable {table : JobTable Rest} (hhash : Function.Injective hexdigest)
  (hfresh : ∀ job ∈ table.rows, ∀ other ∈ table.rows,
    rollbackHash hexdigest job ≠ .ok other.paramsHash)
include hfresh

/-- A row that was not listed, beside any row of the table as it is left. -/
theorem unlisted_apart {b' : Job Rest} (ha : a ∈ table.rows) (hb : b ∈ table.rows)
    (ha' : a.id ∉ duplicateIds table.rows)
    (hb' : rewriteJob hexdigest (duplicateIds table.rows) b = .ok b')
    (hne : a.id ≠ b.id) : a.collides b' = false := by
  rw [Bool.eq_false_iff]
  intro hcollides
  rcases rewriteJob_ok.mp hb' with ⟨hunlisted, rfl⟩ | ⟨-, digest, hdigest, rfl⟩
  · rw [mem_duplicateIds table.ids table.keyed ha] at ha'
    rw [mem_duplicateIds table.ids table.keyed hb] at hunlisted
    rcases lt_trichotomy a.order b'.order with hlt | heq | hlt
    · exact hunlisted ⟨a, ha, hlt, collides_symm (table.keyed a ha) (table.keyed _ hb) hcollides⟩
    · exact hne (order_inj heq)
    · exact ha' ⟨b', hb, hlt, hcollides⟩
  · have hsame : a.paramsHash = digest := congrArg (fun i => i.2.2) (collides_iff.mp hcollides).1
    exact hfresh b hb a ha (hsame ▸ hdigest)

include hhash

/-- **No two rows collide** as the table is left. -/
theorem rewritten_apart {a' b' : Job Rest} (ha : a ∈ table.rows) (hb : b ∈ table.rows)
    (ha' : rewriteJob hexdigest (duplicateIds table.rows) a = .ok a')
    (hb' : rewriteJob hexdigest (duplicateIds table.rows) b = .ok b') (hne : a.id ≠ b.id) :
    a'.collides b' = false := by
  rcases rewriteJob_ok.mp ha' with ⟨hunlisted, rfl⟩ | ⟨-, digest, hdigest, heq⟩
  · exact unlisted_apart hfresh ha hb hunlisted hb' hne
  rcases rewriteJob_ok.mp hb' with ⟨hunlisted, rfl⟩ | ⟨-, digest', hdigest', heq'⟩
  · have hback := unlisted_apart hfresh hb ha hunlisted ha' hne.symm
    rw [Bool.eq_false_iff] at hback ⊢
    refine fun hcollides => hback (collides_symm ?_ (table.keyed _ hb) hcollides)
    rw [heq]
    exact table.keyed a ha
  · rw [Bool.eq_false_iff]
    intro hcollides
    have hsame : a'.paramsHash = b'.paramsHash :=
      congrArg (fun i => i.2.2) (collides_iff.mp hcollides).1
    have hsame : digest = digest' := by rwa [heq, heq'] at hsame
    exact hne (digest_inj hhash hdigest (hsame ▸ hdigest'))

end Runs

/-- A table without collisions is left as it is. -/
theorem prepare_of_apart (hids : (rows.map Job.id).Nodup) (hkeyed : ∀ job ∈ rows, job.sourceRef.Keyed)
    (hapart : ∀ a ∈ rows, ∀ b ∈ rows, a.id ≠ b.id → a.collides b = false) :
    prepareLegacyUniqueness hexdigest rows = .ok rows := by
  have hkept : ∀ job ∈ rows, rewriteJob hexdigest (duplicateIds rows) job = .ok (id job) := by
    intro job hjob
    refine rewriteJob_ok.mpr (Or.inl ⟨fun hlisted => ?_, rfl⟩)
    obtain ⟨prior, hprior, hlt, hcollides⟩ := (mem_duplicateIds hids hkeyed hjob).mp hlisted
    have hne : job.id ≠ prior.id := by
      intro hid
      rw [Table.eq_of_key hids hjob hprior hid] at hlt
      exact lt_irrefl _ hlt
    exact Bool.false_ne_true ((hapart job hjob prior hprior hne).symm.trans hcollides)
  rw [prepareLegacyUniqueness, Fallible.mapM_map hkept, List.map_id]

/-- **The older constraint holds again.**  Where the hash is one-to-one and no new digest stands in the
    table, the migration gets through.  No two jobs collide then; nothing but hashes changed; a job
    stayed what it was exactly if it collided with no earlier one, as the first of a group and a job
    without a collision do; and a second run changes nothing. -/
theorem legacy_uniqueness (hexdigest : List UInt8 → PyStr) (hhash : Function.Injective hexdigest)
    (table : JobTable Rest) (hfresh : ∀ job ∈ table.rows, ∀ other ∈ table.rows,
      rollbackHash hexdigest job ≠ .ok other.paramsHash) :
    ∃ rows, prepareLegacyUniqueness hexdigest table.rows = .ok rows ∧
      (rows.Pairwise fun a b => a.collides b = false ∧ b.collides a = false) ∧
      List.Forall₂ Rehashed table.rows rows ∧
      (∀ job ∈ table.rows, job ∈ rows ↔
        ∀ prior ∈ table.rows, prior.order < job.order → job.collides prior = false) ∧
      prepareLegacyUniqueness hexdigest rows = .ok rows := by
  have hrewrite : ∀ job ∈ table.rows, ∃ job',
      rewriteJob hexdigest (duplicateIds table.rows) job = .ok job' ∧ Rehashed job job' := by
    intro job hjob
    obtain ⟨digest, hdigest⟩ := @rollbackHash_exists _ job hexdigest (table.text job hjob).1
      (table.text job hjob).2
    by_cases hlisted : job.id ∈ duplicateIds table.rows
    · exact ⟨_, rewriteJob_ok.mpr (Or.inr ⟨hlisted, digest, hdigest, rfl⟩), rfl⟩
    · exact ⟨job, rewriteJob_ok.mpr (Or.inl ⟨hlisted, rfl⟩), rfl⟩
  obtain ⟨rows, hrows, hrehashed⟩ := Fallible.mapM_exists hrewrite
  have hmem := Fallible.mapM_mem hrows
  have hnodup : (rows.map Job.id).Nodup := ids_eq hrehashed ▸ table.ids
  have hapart : ∀ a ∈ rows, ∀ b ∈ rows, a.id ≠ b.id → a.collides b = false := by
    intro a' ha' b' hb' hne
    obtain ⟨a, ha, hra⟩ := hmem.2 a' ha'
    obtain ⟨b, hb, hrb⟩ := hmem.2 b' hb'
    refine rewritten_apart hhash hfresh ha hb hra hrb ?_
    rwa [← (rehashed_of_rewrite hra).id_eq, ← (rehashed_of_rewrite hrb).id_eq]
  have hkeyed : ∀ job ∈ rows, job.sourceRef.Keyed := by
    intro job' hjob'
    obtain ⟨job, hjob, hr⟩ := hmem.2 job' hjob'
    rw [rehashed_of_rewrite hr]
    exact table.keyed job hjob
  refine ⟨rows, hrows, ?_, hrehashed, fun job hjob => ?_, prepare_of_apart hnodup hkeyed hapart⟩
  · refine (List.pairwise_map.mp hnodup).imp_of_mem fun {a b} ha hb hne => ?_
    exact ⟨hapart a ha b hb hne, hapart b hb a ha hne.symm⟩
  · have hstays : job ∈ rows ↔ job.id ∉ duplicateIds table.rows := by
      constructor
      · intro hstay hlisted
        obtain ⟨prior, hprior, hr⟩ := hmem.2 job hstay
        cases Table.eq_of_key table.ids hprior hjob (rehashed_of_rewrite hr).id_eq.symm
        rcases rewriteJob_ok.mp hr with ⟨hunlisted, -⟩ | ⟨-, digest, hdigest, heq⟩
        · exact hunlisted hlisted
        · have hsame : digest = job.paramsHash := (congrArg Job.paramsHash heq).symm
          exact hfresh job hjob job hjob (hsame ▸ hdigest)
      · intro hunlisted
        obtain ⟨job', hjob', hr⟩ := hmem.1 job hjob
        rcases rewriteJob_ok.mp hr with ⟨-, rfl⟩ | ⟨hlisted, -⟩
        · exact hjob'
        · exact absurd hlisted hunlisted
    rw [hstays, mem_duplicateIds table.ids table.keyed hjob]
    simp only [not_exists, not_and, Bool.not_eq_true]

/-! ## A small table -/

/-- A job with the source `{"n": …}`, as the number was written. -/
def smallJob (id : Fin 16) (kind : String) (n : Json) (createdAt : Int) : Job Unit where
  id := ⟨id, by omega⟩
  tenantId := ⟨0, by decide⟩
  operation := lit "atlas"
  sourceKind := lit kind
  sourceRef := .obj [(lit "n", n)]
  paramsHash := lit "000"
  createdAt := createdAt
  rest := ()

/-- `1`, `1.0` and `2`: the first two collide. -/
def smallTable : JobTable Unit where
  rows := [smallJob 1 "life_email" (.float 1) 5, smallJob 2 "web_corpus" (.int 1) 3,
    smallJob 3 "web_corpus" (.int 2) 4]
  ids := by decide
  text := by decide
  keyed := by
    simp only [List.forall_mem_cons]
    exact ⟨.obj (by decide) (by simp [Json.Keyed.float]), .obj (by decide) (by simp [Json.Keyed.int]),
      .obj (by decide) (by simp [Json.Keyed.int]), fun _ h => absurd h List.not_mem_nil⟩

/-- The later of the two is rewritten, and once. -/
theorem legacy_uniqueness_small :
    (duplicateIds smallTable.rows).map Uuid.int = [1] ∧
      ∃ rows, prepareLegacyUniqueness Layout.hexOf smallTable.rows = .ok rows ∧
        smallJob 2 "web_corpus" (.int 1) 3 ∈ rows ∧
        prepareLegacyUniqueness Layout.hexOf rows = .ok rows := by
  obtain ⟨rows, hrows, -, -, hkept, hagain⟩ :=
    legacy_uniqueness Layout.hexOf Layout.hexOf_injective smallTable (by decide +kernel)
  refine ⟨by decide +kernel, rows, hrows, (hkept _ ?_).mpr (by decide +kernel), hagain⟩
  exact List.mem_cons_of_mem _ List.mem_cons_self

end ControlPlane.Extraction.Rollback
