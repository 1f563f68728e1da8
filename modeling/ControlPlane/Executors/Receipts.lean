/-
  WHAT A RUN OF THE TRACKING STORE SAYS: `Tracking` over every interleaving of its callers.

  1. A run has at most one writer, and what was written to it is a beginning of what its caller
     writes, followed by some of the recovery if a request failed (`receipt`, by the rule `Solo`).
  2. A FINISHED run of the harness is a whole publication of a measured stage (`published`), and it
     is never written to again (`frozen`).
  3. `receipts_exact`: what the runs of `execute` and of `observe_execution` say.
-/
import ControlPlane.Executors.Tracking
import ControlPlane.Solo

namespace ControlPlane.Executors

open PyStr Interleave

/-! ## Steps -/

/-- What a step of a process can be. -/
inductive Step (runId : Nat → PyStr) (s : Store) (p : Proc) : Store → Proc → Prop where
  | stop : Step runId s p s (p.at .ended)
  | call (h : p.point = .called) (hchecks : p.task.checks = true) :
      Step runId s p s (p.at (p.task.next p.task.executors))
  | absent {x rest} (h : p.point = .searching (x :: rest) none)
      (he : s.experimentByName (harnessExperiment p.task.tenant) = none) :
      Step runId s p s (p.report x rest none)
  | search {x rest e} (h : p.point = .searching (x :: rest) none)
      (he : s.experimentByName (harnessExperiment p.task.tenant) = some e) :
      Step runId s p s (p.at (.searching (x :: rest) (some (e, 0))))
  | found {x rest e offset f} (h : p.point = .searching (x :: rest) (some (e, offset)))
      (hf : (searchRuns runId s e x offset).findSome? (fitnessOf s x) = some f) :
      Step runId s p s (p.report x rest (some f))
  | page {x rest e offset} (h : p.point = .searching (x :: rest) (some (e, offset)))
      (hf : (searchRuns runId s e x offset).findSome? (fitnessOf s x) = none) :
      Step runId s p s (p.at (.searching (x :: rest) (some (e, offset + 100))))
  | exhausted {x rest e offset} (h : p.point = .searching (x :: rest) (some (e, offset)))
      (hf : (searchRuns runId s e x offset).findSome? (fitnessOf s x) = none)
      (hlast : (searchRuns runId s e x offset).length ≠ 100) :
      Step runId s p s (p.report x rest none)
  | resolved {again e} (h : p.point = .looking again)
      (he : s.experimentByName p.task.experiment = some e) :
      Step runId s p s (p.at (nextRun e (p.task.recordings runId p.found)))
  | unresolved {again} (h : p.point = .looking again) : Step runId s p s (p.at .creatingExperiment)
  | experiment {s' q} (h : p.point = .creatingExperiment)
      (he : s.createExperiment p.task.experiment = some s')
      (hq : q = nextRun s.experiments.length (p.task.recordings runId p.found) ∨
        q = .looking true ∨ q = .ended) : Step runId s p s' (p.at q)
  | taken (h : p.point = .creatingExperiment) : Step runId s p s (p.at (.looking true))
  | run {e rec todo} (now : Nat) (h : p.point = .creatingRun e (rec :: todo)) :
      Step runId s p (s.createRun e now rec.tags)
        (p.at (nextWrite e s.runs.length rec todo rec.script))
  | orphan {e rec todo} (now : Nat) (h : p.point = .creatingRun e (rec :: todo)) :
      Step runId s p (s.createRun e now rec.tags) (p.at .ended)
  | write {e run rec w script todo} (h : p.point = .recording e run rec (w :: script) todo) :
      Step runId s p (s.write run w) (p.at (nextWrite e run rec todo script))
  | fail {e run rec w script todo} (carriedOut : Bool)
      (h : p.point = .recording e run rec (w :: script) todo) :
      Step runId s p (if carriedOut then s.write run w else s)
        (p.at (.recovering run (rec.recovery.writes w)))
  | recover {run w script} (h : p.point = .recovering run (w :: script)) :
      Step runId s p (s.write run w) (p.at (.recovering run script))
  | giveUp {run w script} (h : p.point = .recovering run (w :: script)) :
      Step runId s p (s.write run w) (p.at .ended)

variable {runId : Nat → PyStr} {admits : Task → Bool} {s s' : Store} {p p' : Proc} {c : Reply}

theorem step_of_answered {now : Nat} (h : act runId s p (.answered now) = some (s', p')) :
    Step runId s p s' p' := by
  simp only [act] at h
  split at h
  · rename_i hpoint
    split at h
    · rename_i hchecks
      cases h
      exact .call hpoint hchecks
    · cases h
      exact .stop
  · rename_i hpoint
    split at h
    · rename_i he
      cases h
      exact .absent hpoint he
    · rename_i he
      cases h
      exact .search hpoint he
  · rename_i hpoint
    split at h
    · rename_i hf
      cases h
      exact .found hpoint hf
    · rename_i hf
      split at h
      · cases h
        exact .page hpoint hf
      · rename_i hlast
        cases h
        exact .exhausted hpoint hf hlast
  · rename_i hpoint
    split at h
    · rename_i he
      cases h
      exact .resolved hpoint he
    · cases h
      split
      · exact .stop
      · exact .unresolved hpoint
  · rename_i hpoint
    split at h
    · rename_i he
      cases h
      exact .experiment hpoint he (Or.inl rfl)
    · cases h
      exact .taken hpoint
  · rename_i hpoint
    cases h
    exact .run now hpoint
  · rename_i hpoint
    cases h
    exact .write hpoint
  · rename_i hpoint
    cases h
    exact .recover hpoint
  · cases h
    exact .stop
  · cases h

theorem step_of_failed {now : Nat} {carriedOut mlflow : Bool}
    (h : act runId s p (.failed now carriedOut mlflow) = some (s', p')) : Step runId s p s' p' := by
  simp only [act] at h
  split at h
  · cases h
    exact .stop
  · cases h
    exact .stop
  · rename_i hpoint
    cases h
    cases carriedOut with
    | false =>
      cases mlflow with
      | false => exact .stop
      | true => exact .taken hpoint
    | true =>
      cases he : s.createExperiment p.task.experiment with
      | none =>
        cases mlflow with
        | false => exact .stop
        | true => exact .taken hpoint
      | some s' => exact .experiment hpoint he (by cases mlflow <;> simp)
  · rename_i hpoint
    cases h
    cases carriedOut with
    | false => exact .stop
    | true => exact .orphan now hpoint
  · rename_i hpoint
    cases h
    exact .fail carriedOut hpoint
  · rename_i hpoint
    cases h
    cases carriedOut with
    | false => exact .stop
    | true => exact .giveUp hpoint
  · cases h

theorem step_of_act (h : act runId s p c = some (s', p')) : Step runId s p s' p' := by
  cases c with
  | answered now => exact step_of_answered h
  | failed now carriedOut mlflow => exact step_of_failed h
  | crash =>
    cases h
    exact .stop

/-! ## Experiments -/

theorem experimentByName_eq {name : PyStr} {e : Nat} (h : s.experimentByName name = some e) :
    s.experiments[e]? = some name := by
  obtain ⟨hlt, hname, -⟩ := List.findIdx?_eq_some_iff_getElem.mp h
  exact List.getElem?_eq_some_iff.mpr ⟨hlt, of_decide_eq_true hname⟩

theorem createExperiment_eq {name : PyStr} (h : s.createExperiment name = some s') :
    name ∉ s.experiments ∧ s' = { s with experiments := s.experiments ++ [name] } := by
  unfold Store.createExperiment at h
  split at h
  · cases h
  · rename_i hname
    exact ⟨hname, (Option.some.inj h).symm⟩

/-- Experiments stay where they are. -/
theorem Step.experiments (h : Step runId s p s' p') : s.experiments <+: s'.experiments := by
  cases h with
  | experiment _ he _ =>
    obtain ⟨-, rfl⟩ := createExperiment_eq he
    exact List.prefix_append _ _
  | fail carriedOut _ => cases carriedOut <;> exact List.prefix_rfl
  | _ => exact List.prefix_rfl

theorem Step.nodup (h : Step runId s p s' p') (hnodup : s.experiments.Nodup) :
    s'.experiments.Nodup := by
  cases h with
  | experiment _ he _ =>
    obtain ⟨hname, rfl⟩ := createExperiment_eq he
    exact List.nodup_append_comm.mp (List.nodup_cons.mpr ⟨hname, hnodup⟩)
  | fail carriedOut _ => cases carriedOut <;> exact hnodup
  | _ => exact hnodup

theorem experiment_kept {e : Nat} {name : PyStr} (h : s.experiments <+: s'.experiments)
    (he : s.experiments[e]? = some name) : s'.experiments[e]? = some name := by
  obtain ⟨more, hmore⟩ := h
  rw [← hmore, List.getElem?_append_left (List.getElem?_eq_some_iff.mp he).1, he]

/-- An experiment is a place. -/
theorem experiment_unique {e e' : Nat} {name : PyStr} (hnodup : s.experiments.Nodup)
    (he : s.experiments[e]? = some name) (he' : s.experiments[e']? = some name) : e = e' :=
  (List.getElem?_inj (List.getElem?_eq_some_iff.mp he).1 hnodup).mp (he.trans he'.symm)

/-- What a process has in its variables: an experiment is the one it looked up or created. -/
def Sound (runId : Nat → PyStr) (s : Store) (p : Proc) : Prop :=
  match p.point with
  | .called => p.found = []
  | .searching _ none => p.task.checks = true
  | .searching _ (some (e, _)) =>
      p.task.checks = true ∧ s.experiments[e]? = some (harnessExperiment p.task.tenant)
  | .looking _ => p.task.checks = true
  | .creatingExperiment => p.task.checks = true
  | .creatingRun e todo => p.task.checks = true ∧ s.experiments[e]? = some p.task.experiment ∧
      ∀ r ∈ todo, r ∈ p.task.recordings runId p.found
  | .recording e _ rec _ todo => p.task.checks = true ∧ s.experiments[e]? = some p.task.experiment ∧
      ∀ r ∈ rec :: todo, r ∈ p.task.recordings runId p.found
  | .recovering _ _ => True
  | .ended => True

theorem Sound.mono (h : Sound runId s p) (hexperiments : s.experiments <+: s'.experiments) :
    Sound runId s' p := by
  unfold Sound at h ⊢
  split at h
  · exact h
  · exact h
  · exact ⟨h.1, experiment_kept hexperiments h.2⟩
  · exact h
  · exact h
  · exact ⟨h.1, experiment_kept hexperiments h.2.1, h.2.2⟩
  · exact ⟨h.1, experiment_kept hexperiments h.2.1, h.2.2⟩
  · trivial
  · trivial

theorem sound_next {task : Task} (hchecks : task.checks = true) (xs : List Executor)
    (found : List (Executor × Option Fitness)) : Sound runId s ⟨task, found, task.next xs⟩ := by
  cases xs with
  | cons x rest => exact hchecks
  | nil =>
    cases task with
    | list tenant => trivial
    | _ => exact hchecks

theorem sound_nextRun {e : Nat} {todo : List Recording} (hchecks : p.task.checks = true)
    (he : s.experiments[e]? = some p.task.experiment)
    (htodo : ∀ r ∈ todo, r ∈ p.task.recordings runId p.found) :
    Sound runId s (p.at (nextRun e todo)) := by
  cases todo with
  | nil => trivial
  | cons r todo => exact ⟨hchecks, he, htodo⟩

theorem sound_nextWrite {e run : Nat} {rec : Recording} {todo : List Recording} {script : List Write}
    (hchecks : p.task.checks = true) (he : s.experiments[e]? = some p.task.experiment)
    (htodo : ∀ r ∈ rec :: todo, r ∈ p.task.recordings runId p.found) :
    Sound runId s (p.at (nextWrite e run rec todo script)) := by
  cases script with
  | nil => exact sound_nextRun hchecks he fun r hr => htodo r (List.mem_cons_of_mem _ hr)
  | cons w script => exact ⟨hchecks, he, htodo⟩

theorem Step.sound (h : Step runId s p s' p') (hs : Sound runId s p) : Sound runId s' p' := by
  have hkept := h.experiments
  cases h with
  | stop => trivial
  | call _ hchecks => exact sound_next hchecks _ _
  | absent hpoint _ =>
    simp only [Sound, hpoint] at hs
    exact sound_next hs _ _
  | search hpoint he =>
    simp only [Sound, hpoint] at hs
    exact ⟨hs, experimentByName_eq he⟩
  | found hpoint _ =>
    simp only [Sound, hpoint] at hs
    exact sound_next hs.1 _ _
  | page hpoint _ =>
    simp only [Sound, hpoint] at hs
    exact hs
  | exhausted hpoint _ _ =>
    simp only [Sound, hpoint] at hs
    exact sound_next hs.1 _ _
  | resolved hpoint he =>
    simp only [Sound, hpoint] at hs
    exact sound_nextRun hs (experimentByName_eq he) fun _ hr => hr
  | unresolved hpoint =>
    simp only [Sound, hpoint] at hs
    exact hs
  | experiment hpoint he hq =>
    simp only [Sound, hpoint] at hs
    obtain ⟨-, rfl⟩ := createExperiment_eq he
    rcases hq with rfl | rfl | rfl
    · exact sound_nextRun hs List.getElem?_concat_length fun _ hr => hr
    · exact hs
    · trivial
  | taken hpoint =>
    simp only [Sound, hpoint] at hs
    exact hs
  | run now hpoint =>
    simp only [Sound, hpoint] at hs
    exact sound_nextWrite hs.1 hs.2.1 hs.2.2
  | orphan now hpoint => trivial
  | write hpoint =>
    simp only [Sound, hpoint] at hs
    exact sound_nextWrite hs.1 (experiment_kept hkept hs.2.1) hs.2.2
  | fail carriedOut hpoint => trivial
  | recover hpoint => trivial
  | giveUp hpoint => trivial

theorem Step.task (h : Step runId s p s' p') : p'.task = p.task := by
  cases h <;> rfl

/-- Experiments are named once, and every process knows which one it writes to. -/
def placed (runId : Nat → PyStr) (admits : Task → Bool) :
    Outline (program runId admits) Program.Any where
  inv s := s.experiments.Nodup
  asserts s p := admits p.task = true ∧ Sound runId s p
  grows s s' := s.experiments <+: s'.experiments
  stable hgrows h := ⟨h.1, h.2.mono hgrows⟩
  start {s p} _ hstart := by
    obtain ⟨task, found, point⟩ := p
    cases found with
    | cons _ _ => cases hstart
    | nil =>
      cases point with
      | called => exact ⟨hstart, rfl⟩
      | _ => cases hstart
  act hnodup hp _ _ hact :=
    have hstep := step_of_act hact
    ⟨hstep.nodup hnodup, hstep.experiments, by rw [hstep.task]; exact hp.1, hstep.sound hp.2⟩
  env {_ w} _ _ _ := w.elim

/-! ## One writer -/

/-- The run that a process writes to. -/
def Point.target : Point → Option Nat
  | .recording _ run _ _ _ => some run
  | .recovering run _ => some run
  | _ => none

def writesTo (i : Nat) (p : Proc) : Bool := p.point.target = some i

theorem writesTo_target {i : Nat} (h : p.point.target = some i) : writesTo i p = true :=
  decide_eq_true h

theorem not_writesTo {i : Nat} (h : p.point.target = none) : writesTo i p = false :=
  decide_eq_false (by rw [h]; exact fun h => nomatch h)

namespace Recording

variable (rec : Recording)

/-- A request failed: what was written before it, it perhaps, and some of the recovery. -/
def Recovers (written todo : List Write) : Prop :=
  ∃ done w rest again, rec.script = done ++ w :: rest ∧ rec.recovery.writes w = again ++ todo ∧
    (written = done ++ again ∨ written = done ++ w :: again)

/-- What may have been written of a recording, at any time. -/
def Wrote (written : List Write) : Prop :=
  (∃ rest, written ++ rest = rec.script) ∨ ∃ todo, rec.Recovers written todo

/-- What was written, by what its writer still has to write. -/
def Held (written : List Write) : Option Proc → Prop
  | none => rec.Wrote written
  | some p => match p.point with
    | .recording _ _ r script _ => r = rec ∧ written ++ script = rec.script
    | .recovering _ todo => rec.Recovers written todo
    | _ => False

variable {rec} {written : List Write}

theorem Held.wrote {o : Option Proc} (h : rec.Held written o) : rec.Wrote written := by
  cases o with
  | none => exact h
  | some p =>
    cases hpoint : p.point with
    | recording e run r script todo =>
      simp only [Held, hpoint] at h
      exact Or.inl ⟨script, h.2⟩
    | recovering run todo =>
      simp only [Held, hpoint] at h
      exact Or.inr ⟨todo, h⟩
    | _ =>
      simp only [Held, hpoint] at h

/-- Some writes of the script, all of it so far or not, or some of them and then some recovery. -/
theorem Wrote.split (h : rec.Wrote written) :
    (∃ rest, written ++ rest = rec.script) ∨
      ∃ before w again todo, (∀ v ∈ before, v ∈ rec.script) ∧ written = before ++ again ∧
        rec.recovery.writes w = again ++ todo ∧ again ≠ [] := by
  rcases h with h | ⟨todo, done, w, rest, again, hscript, hwrites, hwritten⟩
  · exact Or.inl h
  · cases again with
    | nil =>
      rcases hwritten with rfl | rfl
      · exact Or.inl ⟨w :: rest, by rw [List.append_nil, hscript]⟩
      · exact Or.inl ⟨rest, by rw [hscript, List.append_assoc]; rfl⟩
    | cons v again =>
      refine Or.inr ?_
      rcases hwritten with rfl | rfl
      · exact ⟨done, w, v :: again, todo,
          fun u hu => hscript ▸ List.mem_append_left _ hu, rfl, hwrites, List.cons_ne_nil _ _⟩
      · refine ⟨done ++ [w], w, v :: again, todo, fun u hu => ?_, List.append_cons _ _ _, hwrites,
          List.cons_ne_nil _ _⟩
        rw [hscript, List.append_cons]
        exact List.mem_append_left _ hu

theorem Wrote.mem {v : Write} (h : rec.Wrote written) (hv : v ∈ written) :
    v ∈ rec.script ∨ ∃ w, v ∈ rec.recovery.writes w := by
  rcases h.split with ⟨rest, hrest⟩ | ⟨before, w, again, todo, hbefore, rfl, hwrites, -⟩
  · exact Or.inl (hrest ▸ List.mem_append_left _ hv)
  · rcases List.mem_append.mp hv with hv | hv
    · exact Or.inl (hbefore v hv)
    · exact Or.inr ⟨w, hwrites ▸ List.mem_append_left _ hv⟩

/-- The next write of a recovery. -/
theorem Recovers.add {w : Write} {todo : List Write} (h : rec.Recovers written (w :: todo)) :
    rec.Recovers (written ++ [w]) todo := by
  obtain ⟨done, v, rest, again, hscript, hwrites, hwritten⟩ := h
  refine ⟨done, v, rest, again ++ [w], hscript, by rw [hwrites, List.append_cons], ?_⟩
  rcases hwritten with rfl | rfl
  · exact Or.inl (List.append_assoc _ _ _)
  · exact Or.inr (List.append_assoc _ _ _)

/-- Nothing is recovered yet. -/
theorem recovers_fail {w : Write} {script : List Write} (h : written ++ w :: script = rec.script)
    (carriedOut : Bool) : rec.Recovers (if carriedOut then written ++ [w] else written)
      (rec.recovery.writes w) := by
  refine ⟨written, w, script, [], h.symm, rfl, ?_⟩
  cases carriedOut with
  | false => exact Or.inl (List.append_nil _).symm
  | true => exact Or.inr rfl

end Recording

/-- A run is the recording of an admitted call. -/
def Receipt (runId : Nat → PyStr) (admits : Task → Bool) (s : Store) (run : Run) (rec : Recording) :
    Prop :=
  run.tags = rec.tags ∧ ∃ task found, admits task = true ∧ task.checks = true ∧
    rec ∈ task.recordings runId found ∧ s.experiments[run.experiment]? = some task.experiment

theorem Receipt.mono {run : Run} {rec : Recording} (h : Receipt runId admits s run rec)
    (hexperiments : s.experiments <+: s'.experiments) : Receipt runId admits s' run rec := by
  obtain ⟨htags, task, found, hadmits, hchecks, hrec, he⟩ := h
  exact ⟨htags, task, found, hadmits, hchecks, hrec, experiment_kept hexperiments he⟩

/-- A process about to create a run creates it as the recording of its call. -/
theorem receipt_created {e now : Nat} {rec : Recording} {todo : List Recording} {written : List Write}
    (hadmits : admits p.task = true) (hs : Sound runId s p)
    (hpoint : p.point = .creatingRun e (rec :: todo)) :
    Receipt runId admits s ⟨e, now, rec.tags, written⟩ rec := by
  simp only [Sound, hpoint] at hs
  obtain ⟨hchecks, he, htodo⟩ := hs
  exact ⟨rfl, p.task, p.found, hadmits, hchecks, htodo rec List.mem_cons_self, he⟩

variable {i : Nat}

theorem runs_write_self {run : Run} {w : Write} (h : s.runs[i]? = some run) :
    (s.write i w).runs[i]? = some (run.add w) := by
  rw [Store.write, List.getElem?_modify_eq, h]
  rfl

theorem runs_write_of_ne {j : Nat} {w : Write} (h : j ≠ i) : (s.write j w).runs[i]? = s.runs[i]? :=
  List.getElem?_modify_ne _ _ h

theorem length_write {j : Nat} {w : Write} : (s.write j w).runs.length = s.runs.length :=
  List.length_modify _ _ _

/-- A run that is created is the last. -/
theorem runs_create {e now : Nat} {tags : List (PyStr × PyStr)} :
    (s.createRun e now tags).runs[i]? =
      if i = s.runs.length then some ⟨e, now, tags, []⟩ else s.runs[i]? := by
  rw [Store.createRun, List.getElem?_append]
  split
  · rw [if_neg (by omega)]
  · split
    · rename_i hi
      rw [hi, Nat.sub_self]
      rfl
    · rw [List.getElem?_eq_none (by simp only [List.length_singleton]; omega),
        List.getElem?_eq_none (by omega)]

theorem length_create {e now : Nat} {tags : List (PyStr × PyStr)} :
    (s.createRun e now tags).runs.length = s.runs.length + 1 := List.length_append

theorem target_nextRun {e : Nat} {todo : List Recording} : (nextRun e todo).target = none := by
  cases todo <;> rfl

theorem target_next {task : Task} {xs : List Executor} : (task.next xs).target = none := by
  cases xs with
  | cons x rest => rfl
  | nil => cases task <;> rfl

/-- The store on either side of a step, at a run that its process does not write to. -/
theorem Step.aside (h : Step runId s p s' p') (hp : writesTo i p = false) :
    (s'.runs[i]? = s.runs[i]? ∧ s'.runs.length = s.runs.length) ∨
      ∃ e now rec todo, p.point = .creatingRun e (rec :: todo) ∧ s' = s.createRun e now rec.tags := by
  have hne {j : Nat} (htarget : p.point.target = some j) : j ≠ i :=
    fun hj => of_decide_eq_false hp (hj ▸ htarget)
  cases h with
  | experiment _ he _ =>
    obtain ⟨-, rfl⟩ := createExperiment_eq he
    exact Or.inl ⟨rfl, rfl⟩
  | run now hpoint => exact Or.inr ⟨_, now, _, _, hpoint, rfl⟩
  | orphan now hpoint => exact Or.inr ⟨_, now, _, _, hpoint, rfl⟩
  | write hpoint => exact Or.inl ⟨runs_write_of_ne (hne (by rw [hpoint]; rfl)), length_write⟩
  | fail carriedOut hpoint =>
    cases carriedOut with
    | false => exact Or.inl ⟨rfl, rfl⟩
    | true => exact Or.inl ⟨runs_write_of_ne (hne (by rw [hpoint]; rfl)), length_write⟩
  | recover hpoint => exact Or.inl ⟨runs_write_of_ne (hne (by rw [hpoint]; rfl)), length_write⟩
  | giveUp hpoint => exact Or.inl ⟨runs_write_of_ne (hne (by rw [hpoint]; rfl)), length_write⟩
  | _ => exact Or.inl ⟨rfl, rfl⟩

/-- Whoever writes to a run created it. -/
theorem Step.enter (h : Step runId s p s' p') (hp : writesTo i p = false)
    (hp' : writesTo i p' = true) :
    i = s.runs.length ∧ ∃ e now rec todo, p.point = .creatingRun e (rec :: todo) ∧
      s' = s.createRun e now rec.tags ∧ p'.point = .recording e i rec rec.script todo := by
  have htarget : p'.point.target = some i := of_decide_eq_true hp'
  have hnot : p.point.target ≠ some i := of_decide_eq_false hp
  cases h with
  | stop => cases htarget
  | call _ _ => cases target_next.symm.trans htarget
  | absent _ _ => cases target_next.symm.trans htarget
  | search _ _ => cases htarget
  | found _ _ => cases target_next.symm.trans htarget
  | page _ _ => cases htarget
  | exhausted _ _ _ => cases target_next.symm.trans htarget
  | resolved _ _ => cases target_nextRun.symm.trans htarget
  | unresolved _ => cases htarget
  | experiment _ _ hq =>
    rcases hq with rfl | rfl | rfl
    · cases target_nextRun.symm.trans htarget
    · cases htarget
    · cases htarget
  | taken _ => cases htarget
  | @run e rec todo now hpoint =>
    cases hscript : rec.script with
    | nil =>
      simp only [Proc.at, hscript, nextWrite] at htarget
      cases target_nextRun.symm.trans htarget
    | cons w script =>
      simp only [Proc.at, hscript, nextWrite, Point.target, Option.some.injEq] at htarget
      refine ⟨htarget.symm, e, now, rec, todo, hpoint, rfl, ?_⟩
      simp only [Proc.at, hscript, nextWrite, htarget]
  | orphan _ _ => cases htarget
  | @write e run rec w script todo hpoint =>
    cases script with
    | nil => cases target_nextRun.symm.trans htarget
    | cons v script => exact absurd (by rw [hpoint]; exact htarget) hnot
  | fail _ hpoint => exact absurd (by rw [hpoint]; exact htarget) hnot
  | recover hpoint => exact absurd (by rw [hpoint]; exact htarget) hnot
  | giveUp _ => cases htarget

/-- A run that is there is the recording of a call, held by the process that writes to it, if any. -/
def Recorded (runId : Nat → PyStr) (admits : Task → Bool) (i : Nat) (s : Store) (o : Option Proc) :
    Prop :=
  (s.runs.length ≤ i → o = none) ∧ ∀ run, s.runs[i]? = some run →
    ∃ rec, Receipt runId admits s run rec ∧ rec.Held run.written o

theorem Recorded.of_run {run : Run} {rec : Recording} {o : Option Proc}
    (hrun : s.runs[i]? = some run) (hreceipt : Receipt runId admits s run rec)
    (hheld : rec.Held run.written o) : Recorded runId admits i s o := by
  have hlt : i < s.runs.length := (List.getElem?_eq_some_iff.mp hrun).1
  refine ⟨fun hle => absurd hle (Nat.not_le.mpr hlt), fun run' hrun' => ?_⟩
  obtain rfl : run = run' := Option.some.inj (hrun.symm.trans hrun')
  exact ⟨rec, hreceipt, hheld⟩

/-- The writer of a run takes a step. -/
theorem recorded_work (hp : writesTo i p = true) (h : Recorded runId admits i s (some p))
    (hstep : Step runId s p s' p') :
    Recorded runId admits i s' (if writesTo i p' = true then some p' else none) := by
  have hlt : i < s.runs.length := by
    by_contra hle
    cases h.1 (Nat.not_lt.mp hle)
  obtain ⟨run, hrun⟩ : ∃ run, s.runs[i]? = some run := ⟨_, List.getElem?_eq_getElem hlt⟩
  obtain ⟨rec, hreceipt, hheld⟩ := h.2 run hrun
  have htarget : p.point.target = some i := of_decide_eq_true hp
  have hwhich {j : Nat} (hj : p.point.target = some j) : j = i :=
    Option.some.inj (hj.symm.trans htarget)
  cases hstep with
  | stop => exact .of_run hrun hreceipt hheld.wrote
  | @write e j rec' w script todo hpoint =>
    simp only [Recording.Held, hpoint] at hheld
    obtain ⟨rfl, hscript⟩ := hheld
    obtain rfl : j = i := hwhich (by rw [hpoint]; rfl)
    rw [List.append_cons] at hscript
    refine .of_run (runs_write_self hrun) hreceipt ?_
    cases script with
    | nil =>
      rw [if_neg (Bool.eq_false_iff.mp (not_writesTo target_nextRun))]
      exact Or.inl ⟨[], hscript⟩
    | cons v script =>
      rw [if_pos (writesTo_target rfl)]
      exact ⟨rfl, hscript⟩
  | @fail e j rec' w script todo carriedOut hpoint =>
    simp only [Recording.Held, hpoint] at hheld
    obtain ⟨rfl, hscript⟩ := hheld
    obtain rfl : j = i := hwhich (by rw [hpoint]; rfl)
    have hrecovers := Recording.recovers_fail hscript carriedOut
    rw [if_pos (writesTo_target rfl)]
    cases carriedOut with
    | false => exact .of_run hrun hreceipt hrecovers
    | true => exact .of_run (runs_write_self hrun) hreceipt hrecovers
  | @recover j w script hpoint =>
    simp only [Recording.Held, hpoint] at hheld
    obtain rfl : j = i := hwhich (by rw [hpoint]; rfl)
    rw [if_pos (writesTo_target rfl)]
    exact .of_run (runs_write_self hrun) hreceipt hheld.add
  | @giveUp j w script hpoint =>
    simp only [Recording.Held, hpoint] at hheld
    obtain rfl : j = i := hwhich (by rw [hpoint]; rfl)
    exact .of_run (runs_write_self hrun) hreceipt (Or.inr ⟨script, hheld.add⟩)
  | _ =>
    rw [‹p.point = _›] at htarget
    cases htarget

/-- A process creates a run, and may be about to write to it. -/
theorem recorded_create {e now : Nat} {rec : Recording} {todo : List Recording} {o : Option Proc}
    (h : Recorded runId admits i s o) (hadmits : admits p.task = true) (hs : Sound runId s p)
    (hpoint : p.point = .creatingRun e (rec :: todo)) :
    Recorded runId admits i (s.createRun e now rec.tags) o := by
  have hreceipt : Receipt runId admits s ⟨e, now, rec.tags, []⟩ rec :=
    receipt_created hadmits hs hpoint
  rcases eq_or_ne i s.runs.length with hi | hi
  · obtain rfl : o = none := h.1 (Nat.le_of_eq hi.symm)
    refine .of_run (runs_create.trans (if_pos hi)) (hreceipt.mono List.prefix_rfl) ?_
    exact Or.inl ⟨rec.script, rfl⟩
  · refine ⟨fun hle => h.1 ?_, fun run hrun => ?_⟩
    · rw [length_create] at hle
      omega
    · rw [runs_create, if_neg hi] at hrun
      exact h.2 run hrun

/-- Steps taken where the outline holds. -/
abbrev Placed (runId : Nat → PyStr) (admits : Task → Bool) :
    Config Store Proc → Event Proc Reply Empty → Prop :=
  fun s e => Program.Any s e ∧ (placed runId admits).Holds s

/-- The rule `Solo` for one run. -/
def writer (runId : Nat → PyStr) (admits : Task → Bool) (i : Nat) :
    Solo (program runId admits) (Placed runId admits) where
  working := writesTo i
  inv := Recorded runId admits i
  start {p} hstart := by
    obtain ⟨task, found, point⟩ := p
    cases found with
    | cons _ _ => cases hstart
    | nil =>
      cases point with
      | called => rfl
      | _ => cases hstart
  work hwork hinv _ _ hact := recorded_work hwork.works hinv (step_of_act hact)
  enter {s j c p s' p' o} _ hinv hC hj hp hp' hact := by
    obtain ⟨hi, e, now, rec, todo, hpoint, rfl, hpoint'⟩ := (step_of_act hact).enter hp hp'
    obtain ⟨hadmits, hsound⟩ := hC.2.2 p (List.mem_of_getElem? hj)
    obtain rfl : o = none := hinv.1 (Nat.le_of_eq hi.symm)
    refine ⟨rfl, .of_run (runs_create.trans (if_pos hi))
      ((receipt_created hadmits hsound hpoint).mono List.prefix_rfl) ?_⟩
    simp only [Recording.Held, hpoint']
    exact ⟨trivial, rfl⟩
  aside {s j c p s' p' o} _ hinv hC hj hp _ hact := by
    have hstep := step_of_act hact
    rcases hstep.aside hp with ⟨hrun, hlength⟩ | ⟨e, now, rec, todo, hpoint, rfl⟩
    · refine ⟨fun hle => hinv.1 (hlength ▸ hle), fun run hi => ?_⟩
      obtain ⟨rec, hreceipt, hheld⟩ := hinv.2 run (hrun ▸ hi)
      exact ⟨rec, hreceipt.mono hstep.experiments, hheld⟩
    · obtain ⟨hadmits, hsound⟩ := hC.2.2 p (List.mem_of_getElem? hj)
      exact recorded_create hinv hadmits hsound hpoint
  env {_ w} _ _ := w.elim

variable {st st' : Config Store Proc}

theorem placed_reach (hst : (program runId admits).Reach Program.Any fresh st) :
    (placed runId admits).Holds st :=
  (placed runId admits).reach hst ⟨List.nodup_nil, fun _ hp => nomatch hp⟩

theorem placed_step {e : Event Proc Reply Empty} (hs : (placed runId admits).Holds st)
    (h : (program runId admits).step st e = some st') : (placed runId admits).Holds st' :=
  ((placed runId admits).step hs trivial h).1

/-- **A run has one writer**, at most, and is the recording of an admitted call. -/
theorem writer_reach (hst : (program runId admits).Reach Program.Any fresh st) (i : Nat) :
    (writer runId admits i).Holds st := by
  have hplaced : (placed runId admits).Holds fresh := ⟨List.nodup_nil, fun _ hp => nomatch hp⟩
  exact (writer runId admits i).reach
    (Program.Reach.within _ (fun _ _ _ hI _ he => placed_step hI he) hst hplaced)
    ⟨none, rfl, fun _ => rfl, fun _ h => nomatch h⟩

theorem receipt {run : Run} (hst : (program runId admits).Reach Program.Any fresh st)
    (hrun : st.store.runs[i]? = some run) :
    ∃ rec, Receipt runId admits st.store run rec ∧ rec.Wrote run.written := by
  obtain ⟨o, -, -, hrecorded⟩ := writer_reach hst i
  obtain ⟨rec, hreceipt, hheld⟩ := hrecorded run hrun
  exact ⟨rec, hreceipt, hheld.wrote⟩

/-! ## What was written last -/

section Latest

variable {α : Type} {tells : Write → Option α} {written before after rest : List Write} {a : α}

theorem latest_append :
    latest tells (before ++ after) = (latest tells after).or (latest tells before) := by
  rw [latest, List.reverse_append, List.findSome?_append]
  rfl

theorem latest_eq_none : latest tells written = none ↔ ∀ w ∈ written, tells w = none := by
  rw [latest, List.findSome?_eq_none_iff]
  simp only [List.mem_reverse]

theorem latest_mem (h : latest tells written = some a) : ∃ w ∈ written, tells w = some a := by
  obtain ⟨w, hw, htells⟩ := List.exists_of_findSome?_eq_some h
  exact ⟨w, List.mem_reverse.mp hw, htells⟩

/-- Only the last of the writes tells something, so when something is told all of them were written. -/
theorem whole_of_latest {w : Write} (hbefore : ∀ v ∈ before, tells v = none)
    (h : written ++ rest = before ++ [w]) (ha : latest tells written = some a) :
    written = before ++ [w] := by
  rcases List.eq_nil_or_concat rest with rfl | ⟨rest', v, rfl⟩
  · rw [← h, List.append_nil]
  · rw [List.concat_eq_append, ← List.append_assoc] at h
    obtain ⟨hwritten, -⟩ := List.append_inj' h rfl
    have hnone : latest tells written = none :=
      latest_eq_none.mpr fun u hu => hbefore u (hwritten ▸ List.mem_append_left _ hu)
    rw [hnone] at ha
    cases ha

end Latest

theorem status_eq {run : Run} {status : RunStatus} (hstatus : status ≠ .running)
    (h : run.status = status) : latest Write.statusOf run.written = some status := by
  unfold Run.status at h
  cases hlatest : latest Write.statusOf run.written with
  | none =>
    rw [hlatest] at h
    exact absurd h.symm hstatus
  | some status' =>
    rw [hlatest] at h
    exact congrArg some h

/-! ## Runs of the harness -/

/-- Two names that differ at a place. -/
theorem name_ne {name name' : PyStr} (n : Nat) (a b : CodePoint) (ha : name[n]? = some a)
    (hb : name'[n]? = some b) (hne : a ≠ b) : name ≠ name' := by
  rintro rfl
  exact hne (Option.some.inj (ha.symm.trans hb))

theorem index_ne_harness (tenant tenant' : PyStr) :
    indexExperiment tenant ≠ harnessExperiment tenant' := name_ne 8 105 101 rfl rfl (by decide)

/-- What the pipeline observes and what the harness measures is kept apart. -/
theorem runtime_ne_harness (tenant tenant' : PyStr) :
    runtimeExperiment tenant ≠ harnessExperiment tenant' := name_ne 18 45 47 rfl rfl (by decide)

theorem task_of_harness {task : Task} {tenant : PyStr} {rec : Recording}
    {found : List (Executor × Option Fitness)} (h : task.experiment = harnessExperiment tenant)
    (hrec : rec ∈ task.recordings runId found) :
    ∃ pub, task = .publish pub ∧ pub.tenant = tenant ∧
      ∃ stage ∈ STAGES, rec = pub.recording stage := by
  cases task with
  | execute c => exact absurd h (index_ne_harness _ _)
  | observe c => exact absurd h (runtime_ne_harness _ _)
  | list tenant' => cases hrec
  | publish pub =>
    obtain ⟨stage, hstage, rfl⟩ := List.mem_map.mp hrec
    exact ⟨pub, rfl, List.append_cancel_left h, stage, hstage, rfl⟩

namespace Publication

variable {pub : Publication} {stage : PyStr} {run : Run} {written : List Write}

theorem statusOf_writes {w : Write} (hw : w ∈ pub.writes stage) : Write.statusOf w = none := by
  simp only [writes, List.mem_append, List.mem_cons, List.mem_map, List.not_mem_nil, or_false] at hw
  rcases hw with ((rfl | rfl | rfl | rfl | rfl) | ⟨metric, -, rfl⟩) | ⟨path, -, rfl⟩ <;> rfl

/-- A publication recovers nothing. -/
theorem not_recovers {w : Write} {todo : List Write} :
    ¬ (pub.recording stage).Recovers written (w :: todo) := by
  rintro ⟨done, v, rest, again, -, hwrites, -⟩
  cases (List.append_eq_nil_iff.mp hwrites.symm).2

theorem wrote (h : (pub.recording stage).Wrote written) :
    ∃ rest, written ++ rest = (pub.recording stage).script := by
  rcases h.split with h | ⟨before, w, again, todo, -, -, hwrites, hagain⟩
  · exact h
  · exact absurd (List.append_eq_nil_iff.mp hwrites.symm).1 hagain

/-- A FINISHED run is a whole one, of a stage that is measured on every document. -/
theorem finished (h : (pub.recording stage).Wrote run.written) (hstatus : run.status = .finished) :
    run.written = (pub.recording stage).script ∧ pub.measured stage = true := by
  obtain ⟨rest, hrest⟩ := wrote h
  have hlatest := status_eq (by decide) hstatus
  have hwhole := whole_of_latest (fun _ hv => statusOf_writes hv) hrest hlatest
  refine ⟨hwhole, ?_⟩
  rw [hwhole, latest_append, latest, latest] at hlatest
  cases hmeasured : pub.measured stage with
  | true => rfl
  | false =>
    rw [hmeasured] at hlatest
    cases hlatest

end Publication

/-- A FINISHED run of the harness is a whole publication of a measured stage. -/
theorem published {run : Run} {tenant : PyStr}
    (hst : (program runId admits).Reach Program.Any fresh st) (hrun : st.store.runs[i]? = some run)
    (he : st.store.experiments[run.experiment]? = some (harnessExperiment tenant))
    (hstatus : run.status = .finished) :
    ∃ pub, admits (.publish pub) = true ∧ wellFormed pub.rows = true ∧ pub.tenant = tenant ∧
      ∃ stage ∈ STAGES, run.tags = (pub.recording stage).tags ∧
        run.written = (pub.recording stage).script ∧ pub.measured stage = true := by
  obtain ⟨rec, ⟨htags, task, found, hadmits, hchecks, hrec, he'⟩, hwrote⟩ := receipt hst hrun
  obtain ⟨pub, rfl, htenant, stage, hstage, rfl⟩ :=
    task_of_harness (Option.some.inj (he'.symm.trans he)) hrec
  obtain ⟨hwritten, hmeasured⟩ := Publication.finished hwrote hstatus
  exact ⟨pub, hadmits, hchecks, htenant, stage, hstage, htags, hwritten, hmeasured⟩

/-- **A FINISHED run of the harness stays as it is.** -/
theorem frozen {run : Run} {tenant : PyStr} {j : Nat}
    (hst : (program runId admits).Reach Program.Any fresh st) (hrun : st.store.runs[i]? = some run)
    (he : st.store.experiments[run.experiment]? = some (harnessExperiment tenant))
    (hstatus : run.status = .finished) (hj : st.procs[j]? = some p)
    (hstep : Step runId st.store p s' p') : s'.runs[i]? = some run := by
  have hlt : i < st.store.runs.length := (List.getElem?_eq_some_iff.mp hrun).1
  cases hp : writesTo i p with
  | false =>
    rcases hstep.aside hp with ⟨hsame, -⟩ | ⟨e, now, rec, todo, -, rfl⟩
    · rw [hsame, hrun]
    · rw [runs_create, if_neg (by omega), hrun]
  | true =>
    obtain ⟨o, hwork, -, hrecorded⟩ := writer_reach hst i
    obtain rfl : o = some p := hwork.eq (List.mem_of_getElem? hj) hp
    obtain ⟨rec, ⟨-, task, found, -, -, hrec, he'⟩, hheld⟩ := hrecorded run hrun
    obtain ⟨pub, rfl, -, stage, -, rfl⟩ :=
      task_of_harness (Option.some.inj (he'.symm.trans he)) hrec
    have hwhole : run.written = (pub.recording stage).script :=
      (Publication.finished hheld.wrote hstatus).1
    have hdone {w : Write} {script : List Write} :
        run.written ++ w :: script ≠ (pub.recording stage).script := by
      rw [← hwhole]
      exact fun h => nomatch List.append_right_eq_self.mp h
    have htarget : p.point.target = some i := of_decide_eq_true hp
    cases hstep with
    | stop => exact hrun
    | write hpoint =>
      simp only [Recording.Held, hpoint] at hheld
      exact absurd hheld.2 hdone
    | fail carriedOut hpoint =>
      simp only [Recording.Held, hpoint] at hheld
      exact absurd hheld.2 hdone
    | recover hpoint =>
      simp only [Recording.Held, hpoint] at hheld
      exact absurd hheld Publication.not_recovers
    | giveUp hpoint =>
      simp only [Recording.Held, hpoint] at hheld
      exact absurd hheld Publication.not_recovers
    | _ =>
      rw [‹p.point = _›] at htarget
      cases htarget

/-! ## Receipts of executions and observations -/

theorem index_ne_runtime (tenant tenant' : PyStr) :
    indexExperiment tenant ≠ runtimeExperiment tenant' := name_ne 8 105 101 rfl rfl (by decide)

theorem Executed.statusOf_writes {r : Executed} {x : Executor} {w : Write} (hw : w ∈ r.writes x) :
    Write.statusOf w = none := by
  unfold Executed.writes at hw
  split at hw
  · simp only [List.mem_append, List.mem_cons, List.not_mem_nil, or_false] at hw
    rcases hw with (rfl | rfl) | rfl | rfl <;> rfl
  · simp only [List.mem_append, List.mem_cons, List.not_mem_nil, or_false] at hw
    rcases hw with rfl | rfl | rfl <;> rfl

/-- A FINISHED execution returned, and everything of it was written. -/
theorem ExecuteCall.finished {call : ExecuteCall} {run : Run} (h : call.recording.Wrote run.written)
    (hstatus : run.status = .finished) :
    ∃ r, call.result = some r ∧
      run.written = r.writes call.executor ++ [.setTerminated .finished] := by
  have hlatest := status_eq (by decide) hstatus
  cases hresult : call.result with
  | none =>
    obtain ⟨w, hw, hfinished⟩ := latest_mem hlatest
    rcases h.mem hw with hscript | ⟨v, hv⟩
    · rw [recording, hresult] at hscript
      obtain rfl := List.mem_singleton.mp hscript
      cases hfinished
    · rw [recording, hresult] at hv
      cases hv
  | some r =>
    refine ⟨r, rfl, ?_⟩
    rcases h.split with ⟨rest, hrest⟩ | ⟨before, w, again, todo, -, hwritten, hwrites, hagain⟩
    · rw [recording, hresult] at hrest
      exact whole_of_latest (fun _ hv => Executed.statusOf_writes hv) hrest hlatest
    · -- the recovery marks the run as FAILED
      rw [recording, hresult] at hwrites
      rcases List.singleton_eq_append_iff.mp hwrites with ⟨hnil, -⟩ | ⟨hagain, -⟩
      · exact absurd hnil hagain
      · rw [hwritten, hagain, latest_append] at hlatest
        cases hlatest

/-- The only metric of an observation is how long it took. -/
theorem ObserveCall.metric_eq {call : ObserveCall} {fitness : Option Fitness} {run : Run}
    {key : PyStr} {value : PyFloat} (h : (call.recording runId fitness).Wrote run.written)
    (hmetric : run.metric key = some value) :
    key = lit "elapsed_seconds" ∧ value = call.elapsed := by
  obtain ⟨w, hw, hvalue⟩ := latest_mem hmetric
  have helapsed : w = .setTerminated (if call.raises then .failed else .finished) ∨
      w = .logMetric (lit "elapsed_seconds") call.elapsed := by
    rcases h.mem hw with hscript | ⟨v, hv⟩
    · simpa only [recording, List.mem_cons, List.not_mem_nil, or_false] using hscript
    · cases v with
      | setTerminated status => exact Or.inr (List.mem_singleton.mp hv)
      | _ => cases hv
  rcases helapsed with rfl | rfl
  · cases hvalue
  · simp only [Write.metricOf] at hvalue
    split at hvalue
    · rename_i hkey
      exact ⟨hkey.symm, (Option.some.inj hvalue).symm⟩
    · cases hvalue

/-- The operation of a FINISHED observation did not raise. -/
theorem ObserveCall.finished {call : ObserveCall} {fitness : Option Fitness} {run : Run}
    (h : (call.recording runId fitness).Wrote run.written) (hstatus : run.status = .finished) :
    call.raises = false := by
  obtain ⟨w, hw, hfinished⟩ := latest_mem (status_eq (by decide) hstatus)
  rcases h.mem hw with hscript | ⟨v, hv⟩
  · simp only [recording, List.mem_cons, List.not_mem_nil, or_false] at hscript
    rcases hscript with rfl | rfl
    · cases hraises : call.raises with
      | false => rfl
      | true =>
        rw [hraises] at hfinished
        cases hfinished
    · cases hfinished
  · cases v with
    | setTerminated status =>
      obtain rfl := List.mem_singleton.mp hv
      cases hfinished
    | _ => cases hv

/-- **What the receipts say.**  A run of `execute` belongs to one call of the tenant, and when it is
    FINISHED the call has a result and all that is recorded of it is there; a run of
    `observe_execution` says nothing but how long the operation took and whether it returned. -/
theorem receipts_exact {run : Run} {tenant : PyStr}
    (hst : (program runId admits).Reach Program.Any fresh st)
    (hrun : st.store.runs[i]? = some run) :
    (st.store.experiments[run.experiment]? = some (indexExperiment tenant) →
      ∃ call, admits (.execute call) = true ∧ call.tenant = tenant ∧
        run.tags = call.recording.tags ∧
        (run.status = .finished → ∃ r, call.result = some r ∧
          run.written = r.writes call.executor ++ [.setTerminated .finished])) ∧
    (st.store.experiments[run.experiment]? = some (runtimeExperiment tenant) →
      ∃ call fitness, admits (.observe call) = true ∧ call.tenant = tenant ∧
        run.tags = (call.recording runId fitness).tags ∧
        (run.status = .finished → call.raises = false) ∧
        ∀ key value, run.metric key = some value →
          key = lit "elapsed_seconds" ∧ value = call.elapsed) := by
  obtain ⟨rec, ⟨htags, task, found, hadmits, -, hrec, he'⟩, hwrote⟩ := receipt hst hrun
  constructor
  · intro he
    have heq : task.experiment = indexExperiment tenant := Option.some.inj (he'.symm.trans he)
    cases task with
    | execute call =>
      obtain rfl := List.mem_singleton.mp hrec
      exact ⟨call, hadmits, List.append_cancel_left heq, htags, ExecuteCall.finished hwrote⟩
    | observe call => exact absurd heq.symm (index_ne_runtime _ _)
    | publish pub => exact absurd heq.symm (index_ne_harness _ _)
    | list _ => exact absurd heq.symm (index_ne_harness _ _)
  · intro he
    have heq : task.experiment = runtimeExperiment tenant := Option.some.inj (he'.symm.trans he)
    cases task with
    | execute call => exact absurd heq (index_ne_runtime _ _)
    | observe call =>
      obtain ⟨⟨x, fitness⟩, -, rfl⟩ := List.mem_map.mp hrec
      exact ⟨call, fitness, hadmits, List.append_cancel_left heq, htags,
        ObserveCall.finished hwrote, fun _ _ => ObserveCall.metric_eq hwrote⟩
    | publish pub => exact absurd heq.symm (runtime_ne_harness _ _)
    | list _ => exact absurd heq.symm (runtime_ne_harness _ _)

/-- A call of `execute` that finds what it is asked for. -/
def firstCall : ExecuteCall where
  tenant := lit "a"
  payloadTenant := none
  executor := .discovery
  inputDigest := lit "0"
  result := some ⟨lit "hdbscan", some (.finite 1, .finite 5), lit "1"⟩

/-- The run of the call. -/
def firstRun : Run where
  experiment := 0
  startTime := 7
  tags := firstCall.recording.tags
  written := firstCall.recording.script

/-- The pool after the call. -/
def executedPool : Config Store Proc :=
  ⟨⟨[indexExperiment (lit "a")], [firstRun]⟩, [⟨.execute firstCall, [], .ended⟩]⟩

theorem executedPool_reach :
    (program (fun _ => []) fun _ => true).Reach Program.Any fresh executedPool :=
  Program.run_reach _ (.spawn ⟨.execute firstCall, [], .called⟩ ::
    List.replicate 9 (.act 0 (.answered 7))) rfl

theorem receipts_exact_first :
    ∃ call : ExecuteCall, call.tenant = lit "a" ∧ firstRun.tags = call.recording.tags ∧
      (firstRun.status = .finished → ∃ r, call.result = some r ∧
        firstRun.written = r.writes call.executor ++ [.setTerminated .finished]) := by
  obtain ⟨call, -, hcall⟩ := (@receipts_exact _ _ 0 _ _ (lit "a") executedPool_reach rfl).1 rfl
  exact ⟨call, hcall⟩

end ControlPlane.Executors
