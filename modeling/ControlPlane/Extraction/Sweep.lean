/-
  THE SWEEP, `sweep_extraction_jobs`: one reconciliation after the other, over all jobs that are QUEUED
  or RUNNING when it starts.

  Nothing in the loop catches what a reconciliation raises, so the first one that raises ends the
  sweep.  A sweep is ISOLATED when every job whose own reconciliation does not fail is reconciled, and
  is left as if the failing jobs were not there; that is so if and only if no failing job comes
  before one that does not fail (`sweep_isolated_iff`).
-/
import ControlPlane.Extraction.Reconcile
import Mathlib.Data.List.TakeWhile

namespace ControlPlane.Extraction

open ControlPlane.Bucket

/-! ## The loop -/

/-- All jobs with their rows, in the order in which the query yields them. -/
structure Jobs where
  rows : List (String × Ledger)
  unique : (rows.map Prod.fst).Nodup

/-- `ExtractionJob.objects.get(id=job_id)`, and the rows that hang on it. -/
def Jobs.get? (jobs : Jobs) (id : String) : Option Ledger :=
  (jobs.rows.find? fun r => r.1 = id).map Prod.snd

def Jobs.save (jobs : Jobs) (id : String) (l : Ledger) : Jobs where
  rows := Table.modify Prod.fst id (fun r => (r.1, l)) jobs.rows
  unique := by
    have hkeys : (Table.modify Prod.fst id (fun r => (r.1, l)) jobs.rows).map Prod.fst =
        jobs.rows.map Prod.fst := Table.modify_map_key fun _ _ _ => rfl
    exact hkeys ▸ jobs.unique

/-- `status__in=nonterminal`. -/
def Ledger.nonterminal (l : Ledger) : Bool :=
  l.job.status == .queued || l.job.status == .running

/-- The ids that the sweep goes through. -/
def Jobs.pending (jobs : Jobs) : List String :=
  (jobs.rows.filter fun r => r.2.nonterminal).map Prod.fst

/-- A sweep under way: the jobs it has reconciled, in order, and what ended it; `count` of the code is
    the length of `reconciled`. -/
structure Swept where
  jobs : Jobs
  objects : Objects (List Nat)
  reconciled : List String := []
  raised : Option PlanError := none

variable (cfg : Settings) (weather : String → Weather)

/-- The loop of `sweep_extraction_jobs`. -/
def sweepLoop : List String → Swept → Swept
  | [], w => w
  | id :: rest, w => match w.jobs.get? id with
    | none => { w with raised := some (.other "ExtractionJob matching query does not exist.") }
    | some l => match reconcileExtraction cfg (weather id) l w.objects with
      | (l, objects, some e) =>
          { w with jobs := w.jobs.save id l, objects := objects, raised := some e }
      | (l, objects, none) => sweepLoop rest
          { w with
            jobs := w.jobs.save id l
            objects := objects
            reconciled := w.reconciled ++ [id] }

/-- `sweep_extraction_jobs`. -/
def sweepExtractionJobs (jobs : Jobs) (objects : Objects (List Nat)) : Swept :=
  sweepLoop cfg weather jobs.pending { jobs := jobs, objects := objects }

/-! ## Failing jobs -/

/-- The job's own reconciliation raises; what is stored besides has no part in it. -/
def fails (r : String × Ledger) : Bool :=
  (reconcileExtraction cfg (weather r.1) r.2 []).2.2.isSome

/-- The rows that the job's own reconciliation leaves. -/
def reconciledRows (r : String × Ledger) : Ledger :=
  (reconcileExtraction cfg (weather r.1) r.2 []).1

/-- The jobs that fail when the sweep comes to them. -/
def failing (r : String × Ledger) : Bool := r.2.nonterminal && fails cfg weather r

/-- The jobs as if the failing ones were absent. -/
def Jobs.withoutFailing (jobs : Jobs) : Jobs where
  rows := jobs.rows.filter fun r => !failing cfg weather r
  unique := jobs.unique.sublist (List.filter_sublist.map _)

/-- The law of the sweep, for what it leaves. -/
def Isolated (jobs : Jobs) (objects : Objects (List Nat)) : Prop :=
  ∀ r ∈ jobs.rows, r.2.nonterminal = true → fails cfg weather r = false →
    r.1 ∈ (sweepExtractionJobs cfg weather jobs objects).reconciled ∧
      (sweepExtractionJobs cfg weather jobs objects).jobs.get? r.1 =
        (sweepExtractionJobs cfg weather (jobs.withoutFailing cfg weather) objects).jobs.get? r.1

/-- No failing job comes before one that does not fail. -/
def FailuresLast (jobs : Jobs) : Prop :=
  (jobs.rows.filter fun r => r.2.nonterminal).Pairwise fun a b =>
    fails cfg weather a = true → fails cfg weather b = true

variable {cfg weather} {jobs : Jobs} {objects : Objects (List Nat)} {w : Swept}
  {r : String × Ledger}

/-! ## What the loop does -/

theorem Jobs.get?_eq_some {id : String} {l : Ledger} :
    jobs.get? id = some l ↔ (id, l) ∈ jobs.rows := by
  constructor
  · intro h
    obtain ⟨r, hr, rfl⟩ := Option.map_eq_some_iff.mp h
    have hid : r.1 = id := by simpa using List.find?_some hr
    exact hid ▸ List.mem_of_find?_eq_some hr
  · intro h
    have hsome : (jobs.rows.find? fun r => r.1 = id).isSome = true :=
      List.find?_isSome.mpr ⟨(id, l), h, by simp⟩
    obtain ⟨r, hr⟩ := Option.isSome_iff_exists.mp hsome
    have hid : r.1 = id := by simpa using List.find?_some hr
    have hsame : r = (id, l) :=
      Table.eq_of_key jobs.unique (List.mem_of_find?_eq_some hr) h hid
    rw [Jobs.get?, hr, hsame]
    rfl

theorem Jobs.get?_save {id id' : String} {l l' : Ledger} (h : jobs.get? id = some l) :
    (jobs.save id l').get? id' = if id' = id then some l' else jobs.get? id' := by
  have hmem := Jobs.get?_eq_some.mp h
  split
  · rename_i hid
    subst hid
    refine Jobs.get?_eq_some.mpr (Table.mem_modify.mpr (Or.inl ⟨_, hmem, rfl, rfl⟩))
  · rename_i hid
    refine Option.ext fun m => ?_
    rw [Jobs.get?_eq_some, Jobs.get?_eq_some]
    constructor
    · intro hm
      rcases Table.mem_modify.mp hm with ⟨r, hr, hkey, heq⟩ | ⟨hm, -⟩
      · exact absurd ((congrArg Prod.fst heq).trans hkey) hid
      · exact hm
    · intro hm
      exact Table.mem_modify.mpr (Or.inr ⟨hm, hid⟩)

/-- What a pass does to the job it is given. -/
theorem reconcile_eq {l : Ledger} {objects' : Objects (List Nat)} {raised : Option PlanError}
    (h : reconcileExtraction cfg (weather r.1) r.2 objects = (l, objects', raised)) :
    fails cfg weather r = raised.isSome ∧ l = reconciledRows cfg weather r := by
  obtain ⟨hrows, hraised⟩ := reconcile_bucket cfg (weather r.1) r.2 [] objects
  rw [h] at hrows hraised
  exact ⟨congrArg Option.isSome hraised, hrows.symm⟩

/-- A job that is not in the list is left alone. -/
theorem sweepLoop_other {id : String} {ids : List String} (hid : id ∉ ids) :
    (sweepLoop cfg weather ids w).jobs.get? id = w.jobs.get? id := by
  induction ids generalizing w with
  | nil => rfl
  | cons other rest ih =>
    obtain ⟨hne, hrest⟩ := List.ne_and_not_mem_of_not_mem_cons hid
    rw [sweepLoop]
    split
    · rfl
    · rename_i l hl
      split
      · rw [Jobs.get?_save hl, if_neg hne]
      · rw [ih hrest]
        exact (Jobs.get?_save hl).trans (if_neg hne)

/-- The loop over jobs that are still as they were: it reconciles them up to the first that fails. -/
theorem sweepLoop_spec (cfg : Settings) (weather : String → Weather) {w : Swept}
    {rows : List (String × Ledger)} (hnodup : (rows.map Prod.fst).Nodup)
    (hrows : ∀ r ∈ rows, w.jobs.get? r.1 = some r.2) :
    (sweepLoop cfg weather (rows.map Prod.fst) w).reconciled =
        w.reconciled ++ (rows.takeWhile fun r => !fails cfg weather r).map Prod.fst ∧
      ∀ r ∈ rows.takeWhile fun r => !fails cfg weather r,
        (sweepLoop cfg weather (rows.map Prod.fst) w).jobs.get? r.1 =
          some (reconciledRows cfg weather r) := by
  induction rows generalizing w with
  | nil => exact ⟨(List.append_nil _).symm, fun _ h => nomatch h⟩
  | cons r rest ih =>
    obtain ⟨hr, hrest⟩ := List.nodup_cons.mp hnodup
    have hget : w.jobs.get? r.1 = some r.2 := hrows r (List.mem_cons_self ..)
    rw [List.map_cons, sweepLoop, hget]
    dsimp only
    split
    · -- the pass raises, and the sweep ends
      rename_i hpass
      obtain ⟨hfails, -⟩ := reconcile_eq hpass
      rw [List.takeWhile_cons_of_neg (by simp [hfails])]
      exact ⟨(List.append_nil _).symm, fun _ h => nomatch h⟩
    · rename_i l objects hpass
      obtain ⟨hfails, rfl⟩ := reconcile_eq hpass
      rw [List.takeWhile_cons_of_pos (by simp [hfails])]
      have hlater : ∀ r' ∈ rest, (w.jobs.save r.1 (reconciledRows cfg weather r)).get? r'.1 =
          some r'.2 := by
        intro r' hr'
        have hne : r'.1 ≠ r.1 := fun heq => hr (heq ▸ List.mem_map_of_mem hr')
        rw [Jobs.get?_save hget, if_neg hne]
        exact hrows r' (List.mem_cons_of_mem _ hr')
      obtain ⟨hreconciled, hleft⟩ := ih (w := { w with
        jobs := w.jobs.save r.1 (reconciledRows cfg weather r)
        objects := objects
        reconciled := w.reconciled ++ [r.1] }) hrest hlater
      refine ⟨by rw [hreconciled]; simp, fun r' hr' => ?_⟩
      rcases List.mem_cons.mp hr' with rfl | hr'
      · -- no later pass touches this job
        rw [sweepLoop_other hr]
        exact (Jobs.get?_save hget).trans (if_pos rfl)
      · exact hleft r' hr'

/-! ## Isolation -/

/-- What fails stands last if and only if nothing that does not fail is cut off by `takeWhile`. -/
theorem failing_last_iff {α : Type} {q : α → Bool} {xs : List α} (hnodup : xs.Nodup) :
    xs.Pairwise (fun a b => q a = true → q b = true) ↔
      ∀ x ∈ xs, q x = false → x ∈ xs.takeWhile fun x => !q x := by
  induction xs with
  | nil => simp
  | cons a xs ih =>
    obtain ⟨ha, hxs⟩ := List.nodup_cons.mp hnodup
    rw [List.pairwise_cons, ih hxs]
    cases hq : q a with
    | true =>
      rw [List.takeWhile_cons_of_neg (by simp [hq])]
      constructor
      · rintro ⟨hall, -⟩ x hx hfalse
        rcases List.mem_cons.mp hx with rfl | hx
        · rw [hq] at hfalse
          cases hfalse
        · rw [hall x hx rfl] at hfalse
          cases hfalse
      · intro hnone
        have hall : ∀ x ∈ xs, q x = true := by
          intro x hx
          by_contra hfalse
          exact nomatch hnone x (List.mem_cons_of_mem _ hx) (by simpa using hfalse)
        refine ⟨fun x hx _ => hall x hx, fun x hx hfalse => ?_⟩
        rw [hall x hx] at hfalse
        cases hfalse
    | false =>
      rw [List.takeWhile_cons_of_pos (by simp [hq])]
      constructor
      · rintro ⟨-, hrest⟩ x hx hfalse
        rcases List.mem_cons.mp hx with rfl | hx
        · exact List.mem_cons_self ..
        · exact List.mem_cons_of_mem _ (hrest x hx hfalse)
      · intro hrest
        refine ⟨fun _ _ h => (nomatch h), fun x hx hfalse => ?_⟩
        rcases List.mem_cons.mp (hrest x (List.mem_cons_of_mem _ hx) hfalse) with rfl | hx'
        · exact absurd hx ha
        · exact hx'

/-- A whole sweep, over the jobs that are pending when it starts. -/
theorem sweep_spec (cfg : Settings) (weather : String → Weather) (jobs : Jobs)
    (objects : Objects (List Nat)) :
    (sweepExtractionJobs cfg weather jobs objects).reconciled =
        ((jobs.rows.filter fun r => r.2.nonterminal).takeWhile fun r =>
          !fails cfg weather r).map Prod.fst ∧
      ∀ r ∈ (jobs.rows.filter fun r => r.2.nonterminal).takeWhile fun r => !fails cfg weather r,
        (sweepExtractionJobs cfg weather jobs objects).jobs.get? r.1 =
          some (reconciledRows cfg weather r) := by
  have hnodup : ((jobs.rows.filter fun r => r.2.nonterminal).map Prod.fst).Nodup :=
    jobs.unique.sublist (List.filter_sublist.map _)
  have hrows : ∀ r ∈ jobs.rows.filter fun r => r.2.nonterminal, jobs.get? r.1 = some r.2 :=
    fun r hr => Jobs.get?_eq_some.mpr (List.mem_filter.mp hr).1
  obtain ⟨hreconciled, hleft⟩ := sweepLoop_spec cfg weather
    (w := { jobs := jobs, objects := objects }) hnodup hrows
  exact ⟨hreconciled.trans (List.nil_append _), hleft⟩

/-- **The sweep is isolated** if and only if no failing job comes before one that does not fail. -/
theorem sweep_isolated_iff (cfg : Settings) (weather : String → Weather) (jobs : Jobs)
    (objects : Objects (List Nat)) :
    Isolated cfg weather jobs objects ↔ FailuresLast cfg weather jobs := by
  have hnodup : (jobs.rows.filter fun r => r.2.nonterminal).Nodup :=
    (List.Nodup.of_map _ jobs.unique).sublist List.filter_sublist
  obtain ⟨hreconciled, hleft⟩ := sweep_spec cfg weather jobs objects
  rw [FailuresLast, failing_last_iff hnodup]
  constructor
  · intro hisolated r hr hfails
    obtain ⟨hmem, hnonterminal⟩ := List.mem_filter.mp hr
    obtain ⟨hdone, -⟩ := hisolated r hmem hnonterminal hfails
    rw [hreconciled] at hdone
    obtain ⟨r', hr', hid⟩ := List.mem_map.mp hdone
    have hmem' : r' ∈ jobs.rows :=
      (List.mem_filter.mp ((List.takeWhile_sublist _).subset hr')).1
    obtain rfl : r' = r := Table.eq_of_key jobs.unique hmem' hmem hid
    exact hr'
  · intro hlast r hmem hnonterminal hfails
    have hreached := hlast r (List.mem_filter.mpr ⟨hmem, hnonterminal⟩) hfails
    refine ⟨hreconciled ▸ List.mem_map_of_mem hreached, ?_⟩
    -- without the failing jobs the loop comes to every job
    have halone : r ∈ ((jobs.withoutFailing cfg weather).rows.filter fun r =>
        r.2.nonterminal).takeWhile fun r => !fails cfg weather r := by
      rw [List.takeWhile_eq_self_iff.mpr]
      · refine List.mem_filter.mpr ⟨List.mem_filter.mpr ⟨hmem, ?_⟩, hnonterminal⟩
        simp [failing, hfails]
      · intro r' hr'
        obtain ⟨hkept, hpending⟩ := List.mem_filter.mp hr'
        simpa [failing, hpending] using (List.mem_filter.mp hkept).2
    rw [hleft r hreached, (sweep_spec cfg weather _ objects).2 r halone]

/-! ## Concrete sweeps -/

/-- A job whose only shard failed on the size of its output. -/
def oversizeLedger : Ledger where
  job := { status := .running }
  shards := [{ index := 0, input := [7, 8], orchestrationJob := some 0, status := .running }]
  offloads := [
    { operation := "data_science.extraction.atlas"
      status := .failed
      error := "output_exceeds_max_bytes: 2 > 1" }]

/-- A job whose only shard has succeeded, which is still to be noticed. -/
def finishedLedger : Ledger where
  job := { status := .running }
  shards := [{ index := 0, input := [9], orchestrationJob := some 0, status := .running }]
  offloads := [{ operation := "data_science.extraction.atlas", status := .succeeded }]

/-- The refused artifact cannot be read. -/
def storageOutage : String → Weather := fun _ =>
  { planning := fun _ => toyPlanning
    replan := fun _ => { replanFaults with read := some (.storage "artifact storage read failed") }
    broker := fun _ => some "task" }

def finishedFirst : Jobs := ⟨[("finished", finishedLedger), ("poison", oversizeLedger)], by decide⟩

def poisonFirst : Jobs := ⟨[("poison", oversizeLedger), ("finished", finishedLedger)], by decide⟩

/-- The poison job comes last. -/
theorem sweep_isolated_finished : Isolated toySettings storageOutage finishedFirst toyObjects := by
  refine (sweep_isolated_iff toySettings storageOutage finishedFirst toyObjects).mpr ?_
  show List.Pairwise _ _
  decide +kernel

/-- The poison job comes first, and the finished one is never looked at. -/
theorem sweep_poisoned : ¬ ∀ (cfg : Settings) (weather : String → Weather) (jobs : Jobs)
    (objects : Objects (List Nat)), Isolated cfg weather jobs objects := by
  intro hlaw
  have h := hlaw toySettings storageOutage poisonFirst toyObjects ("finished", finishedLedger)
    (by simp [poisonFirst]) rfl (by decide +kernel)
  exact absurd h.1 (by decide +kernel)

end ControlPlane.Extraction
