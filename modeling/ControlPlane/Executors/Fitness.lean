/-
  FITNESS: what `_measured_fitness` finds while harnesses publish.

  1. `fitness_measured`: whatever is found as the fitness of an executor is the mean of what ONE
     publication of the tenant measured of it, on every document.
  2. `fitness_recent`: a search passes nothing over.  Between its pages runs may come to stand in
     front of others, but what stands behind the offset stays there (`Sorting.sortedBy_sublist`), so
     it finds a run at least as recent as any that was there when it began.

  Both rest on `frozen`: a FINISHED run of the harness is never written to again.
-/
import ControlPlane.Executors.Receipts
import ControlPlane.PyDict

namespace ControlPlane.Executors

open PyStr Interleave
open Sorting (sortedBy)

variable {runId : Nat → PyStr} {admits : Task → Bool} {s s' : Store} {p p' : Proc}
  {st st' : Config Store Proc} {tenant : PyStr} {x : Executor} {f : Fitness} {i e : Nat}

/-! ## Runs that a search looks for -/

/-- A FINISHED run of the harness on the executor. -/
def FinishedRun (s : Store) (tenant : PyStr) (x : Executor) (i : Nat) (run : Run) : Prop :=
  s.runs[i]? = some run ∧ s.experiments[run.experiment]? = some (harnessExperiment tenant) ∧
    run.tag (lit "theorem.executor") = some x.name ∧
    run.tag (lit "theorem.evidence") = some modelHarness ∧ run.status = .finished

/-- A fitness is in the store. -/
def Measured (s : Store) (tenant : PyStr) (x : Executor) (f : Fitness) : Prop :=
  ∃ run, FinishedRun s tenant x f.run run ∧ run.metric x.fitnessMetric = some f.value ∧
    f.value.isfinite = true ∧ f.metric = x.fitnessMetric

/-- Experiments stay where they are, and FINISHED runs of the harness as they are. -/
def Kept (s s' : Store) : Prop :=
  s.experiments <+: s'.experiments ∧ s.runs.length ≤ s'.runs.length ∧
    ∀ tenant x i run, FinishedRun s tenant x i run → s'.runs[i]? = some run

theorem FinishedRun.mono {run : Run} (h : FinishedRun s tenant x i run) (hkept : Kept s s') :
    FinishedRun s' tenant x i run :=
  ⟨hkept.2.2 tenant x i run h, experiment_kept hkept.1 h.2.1, h.2.2⟩

theorem Measured.mono (h : Measured s tenant x f) (hkept : Kept s s') : Measured s' tenant x f := by
  obtain ⟨run, hrun, hmetric⟩ := h
  exact ⟨run, hrun.mono hkept, hmetric⟩

/-- Where the experiment is known, a search looks for these runs. -/
theorem mem_harnessRuns (hnodup : s.experiments.Nodup)
    (he : s.experiments[e]? = some (harnessExperiment tenant)) :
    i ∈ harnessRuns s e x ↔ ∃ run, FinishedRun s tenant x i run := by
  rw [harnessRuns, List.mem_filter, List.mem_range]
  constructor
  · rintro ⟨hlt, hmatch⟩
    rw [List.getElem?_eq_getElem hlt, Option.map_some, Option.getD_some] at hmatch
    obtain ⟨hexperiment, hexecutor, hevidence, hstatus⟩ := of_decide_eq_true hmatch
    exact ⟨_, List.getElem?_eq_getElem hlt, hexperiment ▸ he, hexecutor, hevidence, hstatus⟩
  · rintro ⟨run, hrun, hexperiment, hexecutor, hevidence, hstatus⟩
    refine ⟨(List.getElem?_eq_some_iff.mp hrun).1, ?_⟩
    rw [hrun, Option.map_some, Option.getD_some]
    exact decide_eq_true ⟨experiment_unique hnodup hexperiment he, hexecutor, hevidence, hstatus⟩

theorem fitnessOf_eq (h : fitnessOf s x i = some f) :
    f.run = i ∧ f.metric = x.fitnessMetric ∧ f.value.isfinite = true ∧
      ∃ run, s.runs[i]? = some run ∧ run.metric x.fitnessMetric = some f.value := by
  unfold fitnessOf at h
  split at h
  · rename_i hvalue
    split at h
    · rename_i hfinite
      obtain ⟨run, hrun, hmetric⟩ := Option.bind_eq_some_iff.mp hvalue
      cases h
      exact ⟨rfl, rfl, hfinite, run, hrun, hmetric⟩
    · cases h
  · cases h

theorem Measured.fitnessOf (h : Measured s tenant x f) : fitnessOf s x f.run = some f := by
  obtain ⟨run, hrun, hmetric, hfinite, hname⟩ := h
  rw [Executors.fitnessOf, hrun.1, Option.bind_some, hmetric]
  simp only [hfinite, if_true, ← hname]

/-- What a page shows is measured. -/
theorem measured_of_search {offset : Nat} (hnodup : s.experiments.Nodup)
    (he : s.experiments[e]? = some (harnessExperiment tenant))
    (hf : (searchRuns runId s e x offset).findSome? (fitnessOf s x) = some f) :
    Measured s tenant x f := by
  obtain ⟨i, hi, hfit⟩ := List.exists_of_findSome?_eq_some hf
  obtain ⟨rfl, hname, hfinite, run, hrun, hmetric⟩ := fitnessOf_eq hfit
  have hmatch : f.run ∈ matching runId s e x := List.mem_of_mem_drop (List.mem_of_mem_take hi)
  obtain ⟨run', hfinished⟩ := (mem_harnessRuns hnodup he).mp (Sorting.mem_sortedBy.mp hmatch)
  obtain rfl : run = run' := Option.some.inj (hrun.symm.trans hfinished.1)
  exact ⟨run, hfinished, hmetric, hfinite, hname⟩

/-! ## Whatever is found is measured -/

/-- Steps taken in a run of the pool. -/
abbrev Reached (runId : Nat → PyStr) (admits : Task → Bool) :
    Config Store Proc → Event Proc Reply Empty → Prop :=
  fun s e => Program.Any s e ∧ (program runId admits).Reach Program.Any fresh s

theorem Step.length (h : Step runId s p s' p') : s.runs.length ≤ s'.runs.length := by
  cases h with
  | experiment _ he _ =>
    obtain ⟨-, rfl⟩ := createExperiment_eq he
    exact Nat.le_refl _
  | run now hpoint => exact Nat.le_of_lt (by rw [length_create]; exact Nat.lt_succ_self _)
  | orphan now hpoint => exact Nat.le_of_lt (by rw [length_create]; exact Nat.lt_succ_self _)
  | write hpoint => exact Nat.le_of_eq length_write.symm
  | fail carriedOut hpoint =>
    cases carriedOut with
    | false => exact Nat.le_refl _
    | true => exact Nat.le_of_eq length_write.symm
  | recover hpoint => exact Nat.le_of_eq length_write.symm
  | giveUp hpoint => exact Nat.le_of_eq length_write.symm
  | _ => exact Nat.le_refl _

theorem kept_step {j : Nat} (hst : (program runId admits).Reach Program.Any fresh st)
    (hj : st.procs[j]? = some p) (h : Step runId st.store p s' p') : Kept st.store s' :=
  ⟨h.experiments, h.length, fun _ _ _ _ hrun => frozen hst hrun.1 hrun.2.1 hrun.2.2.2.2 hj h⟩

/-- Everything found is in the store. -/
def Honest (s : Store) (p : Proc) : Prop :=
  ∀ x f, (x, some f) ∈ p.found → Measured s p.task.tenant x f

theorem Honest.report {rest : List Executor} {fitness : Option Fitness} (h : Honest s p)
    (hf : ∀ f, fitness = some f → Measured s p.task.tenant x f) :
    Honest s (p.report x rest fitness) := by
  intro y f hmem
  rcases List.mem_append.mp hmem with hmem | hmem
  · exact h y f hmem
  · obtain ⟨rfl, hfit⟩ := Prod.mk.inj (List.mem_singleton.mp hmem)
    exact hf f hfit.symm

theorem Step.honest (hnodup : s.experiments.Nodup) (hsound : Sound runId s p)
    (h : Step runId s p s' p') (hs : Honest s p) : Honest s p' := by
  cases h with
  | absent _ _ => exact hs.report fun _ hf => nomatch hf
  | found hpoint hf =>
    simp only [Sound, hpoint] at hsound
    refine hs.report fun f heq => ?_
    cases heq
    exact measured_of_search hnodup hsound.2 hf
  | exhausted _ _ _ => exact hs.report fun _ hf => nomatch hf
  | _ => exact hs

/-- The outline of whatever is found. -/
def honest (runId : Nat → PyStr) (admits : Task → Bool) :
    Outline (program runId admits) (Reached runId admits) where
  inv _ := True
  asserts := Honest
  grows := Kept
  stable hkept h x f hmem := (h x f hmem).mono hkept
  start {s p} _ hstart := by
    obtain ⟨task, found, point⟩ := p
    cases found with
    | cons _ _ => cases hstart
    | nil => exact fun _ _ hmem => nomatch hmem
  act {st j c p s' p'} _ hp hC hj hact := by
    have hstep := step_of_act hact
    obtain ⟨hnodup, hpool⟩ := placed_reach hC.2
    have hkept := kept_step hC.2 hj hstep
    have hhonest := hstep.honest hnodup (hpool p (List.mem_of_getElem? hj)).2 hp
    exact ⟨trivial, hkept, fun x f hmem => (hhonest x f hmem).mono hkept⟩
  env {_ w} _ _ _ := w.elim

theorem reached {st₀ : Config Store Proc} (hst₀ : (program runId admits).Reach Program.Any fresh st₀)
    (hst : (program runId admits).Reach Program.Any st₀ st) :
    (program runId admits).Reach (Reached runId admits) st₀ st :=
  Program.Reach.within _ (fun _ e _ hI _ he => hI.tail ⟨e, trivial, he⟩) hst hst₀

theorem honest_reach (hst : (program runId admits).Reach Program.Any fresh st) (hp : p ∈ st.procs) :
    Honest st.store p :=
  ((honest runId admits).reach (reached Relation.ReflTransGen.refl hst)
    ⟨trivial, fun _ hp => nomatch hp⟩).2 p hp

/-! ## What a measured run is -/

theorem metricValues_ne_nil {rows : List Row} {stage metric : PyStr}
    (h : metric ∈ metricNames rows stage) : metricValues rows stage metric ≠ [] := by
  obtain ⟨r, hr, hmetric⟩ := List.mem_flatMap.mp (List.mem_dedup.mp h)
  obtain ⟨value, hvalue⟩ := Option.isSome_iff_exists.mp (PyDict.lookup_isSome.mpr hmetric)
  exact List.ne_nil_of_mem (List.mem_filterMap.mpr ⟨r, hr, hvalue⟩)

namespace Publication

variable {pub : Publication} {stage : PyStr} {run : Run}

theorem tagOf_script {w : Write} (hw : w ∈ (pub.recording stage).script) :
    Write.tagOf (lit "theorem.executor") w = none := by
  rcases List.mem_append.mp hw with hw | hw
  · simp only [writes, List.mem_append, List.mem_cons, List.mem_map, List.not_mem_nil,
      or_false] at hw
    rcases hw with ((rfl | rfl | rfl | rfl | rfl) | ⟨metric, -, rfl⟩) | ⟨path, -, rfl⟩ <;> rfl
  · obtain rfl := List.mem_singleton.mp hw
    rfl

/-- The executor of a run of the harness is the stage. -/
theorem executor_eq (htags : run.tags = (pub.recording stage).tags)
    (hwritten : run.written = (pub.recording stage).script) :
    run.tag (lit "theorem.executor") = some stage := by
  have hnone : latest (Write.tagOf (lit "theorem.executor")) run.written = none :=
    latest_eq_none.mpr fun w hw => tagOf_script (hwritten ▸ hw)
  rw [Run.tag, hnone, htags]
  rfl

/-- A fitness in a run of the harness is the mean of what was measured. -/
theorem metric_eq {value : PyFloat} (hwritten : run.written = (pub.recording stage).script)
    (hmetric : run.metric x.fitnessMetric = some value) :
    value = mean (metricValues pub.rows stage x.fitnessMetric) ∧
      metricValues pub.rows stage x.fitnessMetric ≠ [] := by
  obtain ⟨w, hw, hvalue⟩ := latest_mem hmetric
  rw [hwritten] at hw
  rcases List.mem_append.mp hw with hw | hw
  · simp only [writes, List.mem_append, List.mem_cons, List.mem_map, List.not_mem_nil,
      or_false] at hw
    rcases hw with ((rfl | rfl | rfl | rfl | rfl) | ⟨metric, hname, rfl⟩) | ⟨path, -, rfl⟩
    · cases hvalue
    · cases hvalue
    · cases x <;> cases hvalue
    · cases x <;> cases hvalue
    · cases x <;> cases hvalue
    · simp only [Write.metricOf] at hvalue
      split at hvalue
      · rename_i hmetric
        subst hmetric
        exact ⟨(Option.some.inj hvalue).symm,
          metricValues_ne_nil ((pub.namesPerm stage).mem_iff.mp hname)⟩
      · cases hvalue
    · cases hvalue
  · obtain rfl := List.mem_singleton.mp hw
    cases hvalue

/-- A stage that is measured: 100 documents, every one of them. -/
theorem measured_rows (hrows : wellFormed pub.rows = true) (hstage : stage ∈ STAGES)
    (h : pub.measured stage = true) :
    (documents pub.rows stage).length = 100 ∧ (documents pub.rows stage).Nodup ∧
      ∀ r ∈ stageRows pub.rows stage, r.measured = true := by
  obtain ⟨-, hall⟩ := Bool.and_eq_true_iff.mp hrows
  have hwell := List.all_eq_true.mp hall stage hstage
  simp only [Bool.and_eq_true, beq_iff_eq] at hwell
  obtain ⟨⟨⟨hlength, -⟩, -⟩, hdedup⟩ := hwell
  have hdocuments : (documents pub.rows stage).length = 100 := by
    rw [documents, List.length_map, hlength]
  refine ⟨hdocuments, ?_, List.length_filter_eq_length_iff.mp (beq_iff_eq.mp h)⟩
  have hsame : (documents pub.rows stage).dedup = documents pub.rows stage :=
    (List.dedup_sublist _).eq_of_length (hdedup.trans hdocuments.symm)
  exact hsame ▸ List.nodup_dedup _

end Publication

/-- **Whatever is found is measured.**  A fitness that a listing shows, or an observation refers to,
    is the mean over one publication of the same tenant in which the executor was measured on every
    one of 100 documents, and the run it names is the FINISHED run of that. -/
theorem fitness_measured (hst : (program runId admits).Reach Program.Any fresh st)
    (hp : p ∈ st.procs) (hf : (x, some f) ∈ p.found) :
    ∃ pub run, admits (.publish pub) = true ∧ pub.tenant = p.task.tenant ∧
      ((documents pub.rows x.name).length = 100 ∧ (documents pub.rows x.name).Nodup ∧
        ∀ r ∈ stageRows pub.rows x.name, r.measured = true) ∧
      f.metric = x.fitnessMetric ∧ f.value.isfinite = true ∧
      (f.value = mean (metricValues pub.rows x.name x.fitnessMetric) ∧
        metricValues pub.rows x.name x.fitnessMetric ≠ []) ∧
      st.store.runs[f.run]? = some run ∧ run.tags = (pub.recording x.name).tags ∧
      run.status = .finished := by
  obtain ⟨run, ⟨hrun, he, hexecutor, -, hstatus⟩, hmetric, hfinite, hname⟩ :=
    honest_reach hst hp x f hf
  obtain ⟨pub, hadmits, hrows, htenant, stage, hstage, htags, hwritten, hmeasured⟩ :=
    published hst hrun he hstatus
  obtain rfl : stage = x.name :=
    Option.some.inj ((Publication.executor_eq htags hwritten).symm.trans hexecutor)
  exact ⟨pub, run, hadmits, htenant, Publication.measured_rows hrows hstage hmeasured, hname,
    hfinite, Publication.metric_eq hwritten hmetric, hrun, htags, hstatus⟩

/-! ## Nothing is passed over -/

theorem FinishedRun.startTime_eq {run : Run} (h : FinishedRun s tenant x i run) (hkept : Kept s s') :
    s'.startTime i = s.startTime i := by
  rw [Store.startTime, Store.startTime, h.1, (h.mono hkept).1]

/-- What stands behind an offset stays there. -/
theorem behind_mono {offset : Nat} (hnodup : s.experiments.Nodup)
    (he : s.experiments[e]? = some (harnessExperiment tenant)) (hnodup' : s'.experiments.Nodup)
    (hkept : Kept s s') (hi : i ∈ (matching runId s e x).drop offset) :
    i ∈ (matching runId s' e x).drop offset := by
  have hmem {j : Nat} (hj : j ∈ harnessRuns s e x) : ∃ run, FinishedRun s tenant x j run :=
    (mem_harnessRuns hnodup he).mp hj
  have hsub : (matching runId s e x).Sublist (matching runId s' e x) := by
    refine Sorting.sortedBy_sublist (fun i j hij => ?_) (fun j hj => ?_) ?_
    · exact (Prod.mk.inj (toLex.injective (Prod.mk.inj (toLex.injective hij)).2)).2
    · obtain ⟨run, hrun⟩ := hmem hj
      rw [recency, recency, hrun.startTime_eq hkept]
    · refine List.subperm_of_subset (List.nodup_range.filter _) fun j hj => ?_
      obtain ⟨run, hrun⟩ := hmem hj
      exact (mem_harnessRuns hnodup' (experiment_kept hkept.1 he)).mpr ⟨run, hrun.mono hkept⟩
  exact (hsub.drop offset).subset hi

theorem startTime_le {j : Nat} (h : recency runId s j ≤ recency runId s i) :
    s.startTime i ≤ s.startTime j :=
  OrderDual.toDual_le_toDual.mp (Prod.Lex.monotone_fst_ofLex h)

/-- A page that shows a fitness shows none of an older run than one that is not behind it. -/
theorem found_recent {offset : Nat} {g : Fitness} (hi : i ∈ (matching runId s e x).drop offset)
    (hf : fitnessOf s x i = some f)
    (hg : (searchRuns runId s e x offset).findSome? (fitnessOf s x) = some g) :
    s.startTime i ≤ s.startTime g.run := by
  obtain ⟨before, j, after, hpage, hj, hbefore⟩ := List.findSome?_eq_some_iff.mp hg
  obtain ⟨rfl, -⟩ := fitnessOf_eq hj
  have hdrop : (matching runId s e x).drop offset =
      before ++ g.run :: (after ++ ((matching runId s e x).drop offset).drop 100) := by
    rw [← List.cons_append, ← List.append_assoc, ← hpage, searchRuns, List.take_append_drop]
  have hsorted : (before ++ g.run ::
      (after ++ ((matching runId s e x).drop offset).drop 100)).Pairwise
      fun i j => recency runId s i ≤ recency runId s j :=
    hdrop ▸ (List.pairwise_insertionSort _ _).sublist (List.drop_sublist _ _)
  rw [hdrop] at hi
  rcases List.mem_append.mp hi with hi | hi
  · rw [hbefore i hi] at hf
    cases hf
  · rcases List.mem_cons.mp hi with rfl | hi
    · exact Nat.le_refl _
    · have hright := (List.pairwise_append.mp hsorted).2.1
      exact startTime_le ((List.pairwise_cons.mp hright).1 i hi)

/-- When a page shows no fitness, the run stands behind it. -/
theorem behind_page {offset : Nat} (hi : i ∈ (matching runId s e x).drop offset)
    (hf : fitnessOf s x i = some f)
    (hg : (searchRuns runId s e x offset).findSome? (fitnessOf s x) = none) :
    i ∈ (matching runId s e x).drop (offset + 100) ∧
      (searchRuns runId s e x offset).length = 100 := by
  have hbehind : i ∈ ((matching runId s e x).drop offset).drop 100 := by
    rw [← List.take_append_drop 100 ((matching runId s e x).drop offset)] at hi
    rcases List.mem_append.mp hi with hi | hi
    · rw [List.findSome?_eq_none_iff.mp hg i hi] at hf
      cases hf
    · exact hi
  refine ⟨List.drop_drop ▸ hbehind, ?_⟩
  have hlt := List.length_pos_of_mem hbehind
  rw [List.length_drop] at hlt
  rw [searchRuns, List.length_take]
  omega

/-- Where a search stands that process `p` was about to begin: the run of `f` is still to come, or
    one at least as recent was found. -/
inductive Seeking (runId : Nat → PyStr) (p : Proc) (x : Executor) (rest : List Executor) (f : Fitness)
    (s : Store) (q : Proc) : Prop where
  | start (h : q.point = .searching (x :: rest) none) (hfound : q.found = p.found)
  | page {e offset : Nat} (h : q.point = .searching (x :: rest) (some (e, offset)))
      (hfound : q.found = p.found)
      (he : s.experiments[e]? = some (harnessExperiment q.task.tenant))
      (hbehind : f.run ∈ (matching runId s e x).drop offset)
  | dead (h : q.point = .ended) (hfound : q.found = p.found)
  | found {g : Fitness} {more : List (Executor × Option Fitness)}
      (hg : Measured s q.task.tenant x g) (hle : s.startTime f.run ≤ s.startTime g.run)
      (hfound : q.found = p.found ++ (x, some g) :: more)

variable {q q' : Proc} {rest : List Executor}

theorem Step.found_prefix (h : Step runId s q s' q') : q.found <+: q'.found := by
  cases h with
  | absent _ _ => exact List.prefix_append _ _
  | found _ _ => exact List.prefix_append _ _
  | exhausted _ _ _ => exact List.prefix_append _ _
  | _ => exact ⟨[], List.append_nil _⟩

theorem Seeking.mono (hnodup : s.experiments.Nodup) (hnodup' : s'.experiments.Nodup)
    (hkept : Kept s s') (hf : Measured s tenant x f) (h : Seeking runId p x rest f s q) :
    Seeking runId p x rest f s' q := by
  cases h with
  | start hpoint hfound => exact .start hpoint hfound
  | page hpoint hfound he hbehind =>
    exact .page hpoint hfound (experiment_kept hkept.1 he)
      (behind_mono hnodup he hnodup' hkept hbehind)
  | dead hpoint hfound => exact .dead hpoint hfound
  | found hg hle hfound =>
    refine .found (hg.mono hkept) ?_ hfound
    obtain ⟨run, hrun, -⟩ := hf
    obtain ⟨run', hrun', -⟩ := hg
    rw [hrun.startTime_eq hkept, hrun'.startTime_eq hkept]
    exact hle

/-- The own steps of the search: the run is on the page, or behind it. -/
theorem Seeking.step (hnodup : s.experiments.Nodup) (hf : Measured s q.task.tenant x f)
    (h : Seeking runId p x rest f s q) (hstep : Step runId s q s' q') :
    Seeking runId p x rest f s q' := by
  cases h with
  | start hpoint hfound =>
    obtain ⟨run, hrun, -⟩ := hf
    cases hstep with
    | stop => exact .dead rfl hfound
    | absent _ he =>
      have hnone := List.findIdx?_eq_none_iff.mp he _ (List.mem_of_getElem? hrun.2.1)
      exact absurd rfl (of_decide_eq_false hnone)
    | search hpoint' he =>
      cases hpoint.symm.trans hpoint'
      have hmem := (mem_harnessRuns hnodup (experimentByName_eq he)).mpr ⟨run, hrun⟩
      exact .page rfl hfound (experimentByName_eq he) (Sorting.mem_sortedBy.mpr hmem)
    | _ => cases hpoint.symm.trans ‹q.point = _›
  | page hpoint hfound he hbehind =>
    cases hstep with
    | stop => exact .dead rfl hfound
    | found hpoint' hg =>
      cases hpoint.symm.trans hpoint'
      exact .found (measured_of_search hnodup he hg) (found_recent hbehind hf.fitnessOf hg)
        (congrArg (· ++ _) hfound)
    | page hpoint' hg =>
      cases hpoint.symm.trans hpoint'
      exact .page rfl hfound he (behind_page hbehind hf.fitnessOf hg).1
    | exhausted hpoint' hg hlast =>
      cases hpoint.symm.trans hpoint'
      exact absurd (behind_page hbehind hf.fitnessOf hg).2 hlast
    | _ => cases hpoint.symm.trans ‹q.point = _›
  | dead hpoint hfound =>
    cases hstep with
    | stop => exact .dead rfl hfound
    | _ => cases hpoint.symm.trans ‹q.point = _›
  | found hg hle hfound =>
    obtain ⟨more, hmore⟩ := hstep.found_prefix
    rw [hfound, List.append_assoc] at hmore
    exact .found (hstep.task ▸ hg) hle hmore.symm

/-- What is watched of a searching process. -/
def Watched (runId : Nat → PyStr) (p : Proc) (x : Executor) (rest : List Executor) (f : Fitness)
    (s : Store) (q : Proc) : Prop :=
  q.task = p.task ∧ Measured s p.task.tenant x f ∧ Seeking runId p x rest f s q

theorem Watched.own {j : Nat} (hst : (program runId admits).Reach Program.Any fresh st)
    (hj : st.procs[j]? = some q) (h : Watched runId p x rest f st.store q)
    (hstep : Step runId st.store q s' q') : Watched runId p x rest f s' q' := by
  obtain ⟨htask, hf, hseeking⟩ := h
  have hnodup := (placed_reach hst).1
  have hkept := kept_step hst hj hstep
  exact ⟨hstep.task.trans htask, hf.mono hkept,
    (hseeking.step hnodup (htask ▸ hf) hstep).mono hnodup (hstep.nodup hnodup) hkept hf⟩

theorem Watched.other {j : Nat} {o o' : Proc}
    (hst : (program runId admits).Reach Program.Any fresh st) (hj : st.procs[j]? = some o)
    (h : Watched runId p x rest f st.store q) (hstep : Step runId st.store o s' o') :
    Watched runId p x rest f s' q := by
  obtain ⟨htask, hf, hseeking⟩ := h
  have hnodup := (placed_reach hst).1
  have hkept := kept_step hst hj hstep
  exact ⟨htask, hf.mono hkept, hseeking.mono hnodup (hstep.nodup hnodup) hkept hf⟩

/-- **A search passes nothing over.**  When a process begins to look for the fitness of an executor
    and a fitness of it is in the store, then what it finds, if it goes on that far, is the fitness of
    a run at least as recent, however many runs are published between its pages. -/
theorem fitness_recent {j : Nat} (hst : (program runId admits).Reach Program.Any fresh st)
    (hst' : (program runId admits).Reach Program.Any st st') (hj : st.procs[j]? = some p)
    (hpoint : p.point = .searching (x :: rest) none) (hf : Measured st.store p.task.tenant x f)
    (hj' : st'.procs[j]? = some q) (hfound : p.found.length < q.found.length) :
    ∃ g, q.found[p.found.length]? = some (x, some g) ∧
      st'.store.startTime f.run ≤ st'.store.startTime g.run := by
  have hwatch := @Program.Reach.watch _ _ _ _ (program runId admits) (Reached runId admits)
    (Watched runId p x rest f) j
    (fun h hC hj hact => Watched.own hC.2 hj h (step_of_act hact))
    (fun h hC _ hi hact => Watched.other hC.2 hi h (step_of_act hact))
    (fun {_ w _ _} _ _ _ _ => w.elim) _ _ _ (reached hst hst') hj ⟨rfl, hf, .start hpoint rfl⟩
  obtain ⟨q', hq', -, -, hseeking⟩ := hwatch
  obtain rfl : q = q' := Option.some.inj (hj'.symm.trans hq')
  cases hseeking with
  | start _ hsame => exact absurd hfound (by rw [hsame]; exact Nat.lt_irrefl _)
  | page _ hsame _ _ => exact absurd hfound (by rw [hsame]; exact Nat.lt_irrefl _)
  | dead _ hsame => exact absurd hfound (by rw [hsame]; exact Nat.lt_irrefl _)
  | @found g more _ hle hq =>
    refine ⟨g, ?_, hle⟩
    rw [hq, List.getElem?_append_right (Nat.le_refl _), Nat.sub_self]
    rfl

/-! ## A publication and two observations -/

def demoMetric : PyStr := lit "exact_text_f1"

def demoRow (stage : PyStr) (d : Nat) : Row :=
  ⟨[Fin.ofNat 0x110000 d], stage, true, [(demoMetric, .finite 1)]⟩

/-- The rows of some stages over the same 100 documents. -/
def demoRowsOf (stages : List PyStr) : List Row :=
  stages.flatMap fun stage => (List.range 100).map (demoRow stage)

def demoRows : List Row := demoRowsOf STAGES

def demoDocuments : List PyStr := (List.range 100).map fun d => [Fin.ofNat 0x110000 d]

theorem stage_of_mem {stage : PyStr} {stages : List PyStr} {r : Row} (hr : r ∈ demoRowsOf stages)
    (hstage : r.stage = stage) : stage ∈ stages := by
  obtain ⟨stage', hstage', hr⟩ := List.mem_flatMap.mp hr
  obtain ⟨d, -, rfl⟩ := List.mem_map.mp hr
  exact hstage ▸ hstage'

theorem stageRows_demo {stage : PyStr} {stages : List PyStr} (hnodup : stages.Nodup)
    (hstage : stage ∈ stages) :
    stageRows (demoRowsOf stages) stage = (List.range 100).map (demoRow stage) := by
  have hown : ((List.range 100).map (demoRow stage)).filter (fun r => r.stage = stage) =
      (List.range 100).map (demoRow stage) := by
    refine List.filter_eq_self.mpr fun r hr => ?_
    obtain ⟨d, -, rfl⟩ := List.mem_map.mp hr
    exact decide_eq_true rfl
  induction stages with
  | nil => cases hstage
  | cons stage' stages ih =>
    obtain ⟨hnot, hnodup⟩ := List.nodup_cons.mp hnodup
    rw [stageRows, demoRowsOf, List.flatMap_cons, List.filter_append]
    rcases eq_or_ne stage stage' with rfl | hne
    · have hrest : (demoRowsOf stages).filter (fun r => r.stage = stage) = [] :=
        List.filter_eq_nil_iff.mpr fun r hr hr' => hnot (stage_of_mem hr (of_decide_eq_true hr'))
      rw [hown, ← demoRowsOf, hrest, List.append_nil]
    · have hfront : ((List.range 100).map (demoRow stage')).filter (fun r => r.stage = stage) = [] := by
        refine List.filter_eq_nil_iff.mpr fun r hr hr' => hne ?_
        obtain ⟨d, -, rfl⟩ := List.mem_map.mp hr
        exact (of_decide_eq_true hr').symm
      rw [hfront, List.nil_append]
      exact ih hnodup ((List.mem_cons.mp hstage).resolve_left hne)

theorem documents_demo {stage : PyStr} (hstage : stage ∈ STAGES) :
    documents demoRows stage = demoDocuments := by
  rw [documents, demoRows, stageRows_demo (by decide) hstage, List.map_map]
  rfl

theorem wellFormed_demo : wellFormed demoRows = true := by
  refine Bool.and_eq_true_iff.mpr ⟨by decide +kernel, List.all_eq_true.mpr fun stage hstage => ?_⟩
  have hlength : (stageRows demoRows stage).length = 100 := by
    rw [demoRows, stageRows_demo (by decide) hstage, List.length_map, List.length_range]
  rw [hlength, documents_demo hstage, documents_demo (by decide)]
  decide +kernel

def demoPublication : Publication where
  tenant := lit "a"
  rows := demoRows
  checks := []
  policySha256 := lit "0"
  corpusDigest _ := lit "1"
  artifacts := []
  names := metricNames demoRows
  namesPerm _ := .refl _

def demoObservation : ObserveCall where
  tenant := lit "a"
  payloadTenant := none
  executor := .parsePaddle
  inputDigest := lit "2"
  evidenceClass := lit "runtime_observation"
  raises := false
  elapsed := .finite 1

/-- Two stages are published, one observation finds the fitness, and another is about to look. -/
def demoEvents : List (Event Proc Reply Empty) :=
  List.replicate 18 (.act 0 (.answered 7)) ++
    .spawn ⟨.observe demoObservation, [], .called⟩ :: List.replicate 3 (.act 1 (.answered 8)) ++
    [.spawn ⟨.observe demoObservation, [], .called⟩, .act 2 (.answered 9)]

def demoFitness : Fitness := ⟨.finite 1, demoMetric, 1⟩

abbrev demoProgram : Program Store Proc Reply Empty := program (fun _ => []) fun _ => true

/-- A publication that passed its checks. -/
def demoStart : Config Store Proc := ⟨⟨[], []⟩, [⟨.publish demoPublication, [], .looking false⟩]⟩

theorem act_called {now : Nat} (h : p.point = .called) (hchecks : p.task.checks = true) :
    act runId s p (.answered now) = some (s, p.at (p.task.next p.task.executors)) := by
  simp only [act, h, hchecks, if_true]

theorem demoStart_reach : demoProgram.Reach Program.Any fresh demoStart := by
  have hspawn : demoProgram.step fresh (.spawn ⟨.publish demoPublication, [], .called⟩) =
      some ⟨⟨[], []⟩, [⟨.publish demoPublication, [], .called⟩]⟩ := rfl
  have hcall : demoProgram.step ⟨⟨[], []⟩, [⟨.publish demoPublication, [], .called⟩]⟩
      (.act 0 (.answered 7)) = some demoStart := by
    have hchecks : Task.checks (.publish demoPublication) = true := wellFormed_demo
    have hact : demoProgram.act ⟨[], []⟩ ⟨.publish demoPublication, [], .called⟩ (.answered 7) =
        some (⟨[], []⟩, ⟨.publish demoPublication, [], .looking false⟩) :=
      @act_called (fun _ => []) ⟨[], []⟩ ⟨.publish demoPublication, [], .called⟩ 7 rfl hchecks
    simp only [Program.step, List.getElem?_cons_zero, Option.bind_some, hact, Option.map_some]
    rfl
  exact (Relation.ReflTransGen.single ⟨_, trivial, hspawn⟩).tail ⟨_, trivial, hcall⟩

/-- About to look for the fitness of the one executor. -/
def seeks (p : Proc) : Bool :=
  match p.point with
  | .searching [.parsePaddle] none => true
  | _ => false

theorem point_of_seeks (h : seeks p = true) : p.point = .searching [.parsePaddle] none := by
  unfold seeks at h
  split at h
  · assumption
  · cases h

theorem demo_run :
    ((demoProgram.run demoStart demoEvents).bind fun st =>
      (demoProgram.run st [.act 2 (.answered 9), .act 2 (.answered 9)]).bind fun st' =>
        st.procs[1]?.bind fun first => st.procs[2]?.bind fun p => st'.procs[2]?.map fun q =>
          decide (first.task.tenant = lit "a" ∧ first.found = [(.parsePaddle, some demoFitness)] ∧
            seeks p = true ∧ p.task.tenant = lit "a" ∧ p.found = [] ∧
            q.found = [(.parsePaddle, some demoFitness)])) = some true := by
  decide +kernel

/-- The states before and after the second observation looks. -/
theorem demo_reach : ∃ st st' first p q, demoProgram.Reach Program.Any fresh st ∧
    demoProgram.Reach Program.Any st st' ∧ st.procs[1]? = some first ∧ st.procs[2]? = some p ∧
    st'.procs[2]? = some q ∧ first.task.tenant = lit "a" ∧
    first.found = [(.parsePaddle, some demoFitness)] ∧ p.point = .searching [.parsePaddle] none ∧
    p.task.tenant = lit "a" ∧ p.found = [] ∧ q.found = [(.parsePaddle, some demoFitness)] := by
  obtain ⟨st, hst, hrest⟩ := Option.bind_eq_some_iff.mp demo_run
  obtain ⟨st', hst', hrest⟩ := Option.bind_eq_some_iff.mp hrest
  obtain ⟨first, hfirst, hrest⟩ := Option.bind_eq_some_iff.mp hrest
  obtain ⟨p, hp, hrest⟩ := Option.bind_eq_some_iff.mp hrest
  obtain ⟨q, hq, hall⟩ := Option.map_eq_some_iff.mp hrest
  obtain ⟨htenant, hfound, hseeks, hp', hnone, hq'⟩ := of_decide_eq_true hall
  exact ⟨st, st', first, p, q, demoStart_reach.trans (Program.run_reach _ _ hst),
    Program.run_reach _ _ hst', hfirst, hp, hq, htenant, hfound, point_of_seeks hseeks, hp', hnone, hq'⟩

theorem fitness_measured_demo : ∃ pub : Publication, pub.tenant = lit "a" ∧
    (documents pub.rows (lit "parse.paddle")).length = 100 ∧
    demoFitness.value = mean (metricValues pub.rows (lit "parse.paddle") demoMetric) := by
  obtain ⟨st, -, first, -, -, hst, -, hfirst, -, -, htenant, hfound, -⟩ := demo_reach
  obtain ⟨pub, run, -, hpub, hrows, -, -, hvalue, -⟩ := fitness_measured hst
    (List.mem_of_getElem? hfirst) (hfound ▸ List.mem_singleton_self _)
  exact ⟨pub, hpub.trans htenant, hrows.1, hvalue.1⟩

theorem fitness_recent_demo : ∃ st' : Config Store Proc, ∃ q g, st'.procs[2]? = some q ∧
    q.found[0]? = some (.parsePaddle, some g) ∧
    st'.store.startTime demoFitness.run ≤ st'.store.startTime g.run := by
  obtain ⟨st, st', first, p, q, hst, hst', hfirst, hp, hq, htenant, hfound, hpoint, hp', hnone, hq'⟩ :=
    demo_reach
  have hmeasured : Measured st.store p.task.tenant .parsePaddle demoFitness := by
    rw [hp', ← htenant]
    exact honest_reach hst (List.mem_of_getElem? hfirst) _ _ (hfound ▸ List.mem_singleton_self _)
  obtain ⟨g, hg, hle⟩ := fitness_recent hst hst' hp hpoint hmeasured hq (by rw [hnone, hq']; decide)
  rw [hnone] at hg
  exact ⟨st', q, g, hq, hg, hle⟩

end ControlPlane.Executors
