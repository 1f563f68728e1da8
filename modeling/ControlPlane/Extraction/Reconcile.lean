/-
  ONE RECONCILIATION, `reconcile_extraction`, as a sequential pass over its job.

  What the world answers to a pass is its `Weather`: whether the artifact store is configured, what
  fails while a refused shard is replanned, and what the broker says.  Of the errors of a replan only
  the two that the `except` clause names are caught; any other one ends the pass.

  * `reconcile_steps`: a pass is a run of the interleaved program, up to its return or its death.
  * `reconcile_bucket`: the rows it leaves, and what it raises, do not depend on what else is stored.
-/
import ControlPlane.Extraction.Planner
import Mathlib.Logic.Relation

namespace ControlPlane.Extraction

open ControlPlane.Bucket ControlPlane.Interleave

/-! ## One pass -/

/-- What the world answers to one pass over a job, by shard index and by offload job. -/
structure Weather where
  /-- What `ArtifactStore.from_settings` misses. -/
  misconfigured : Option String := none
  planning : Nat → Planning Nat
  replan : Nat → ReplanFaults
  /-- The id under which `delay` enqueues the dispatch; `none` is a broker that is down. -/
  broker : Nat → Option String

/-- What a pass works on: the job's rows, the bucket, and the offload jobs it created. -/
structure Pass where
  ledger : Ledger
  objects : Objects (List Nat)
  new : List Nat := []

/-- `_sync_shard`: the rows and the shard object after it. -/
def syncShard (cfg : Settings) (l : Ledger) (s : Shard) : Except PlanError (Ledger × Shard) :=
  match s.orchestrationJob with
  | none => .ok (l, s)
  | some offload => match l.offloads[offload]? with
    | none => .error (.other "Job matching query does not exist.")
    | some row =>
        if s.sync row = s then .ok (l, s) else .ok (l.apply cfg (.saveShard (s.sync row)), s.sync row)

/-- The `except` clause around `replan_shard`: the message of an error that it catches. -/
def PlanError.refusal : PlanError → Option String
  | .validation detail | .planning detail => some detail
  | _ => none

/-- What is saved for a shard whose replan is refused. -/
def refuseReplan (cfg : Settings) (l : Ledger) (s : Shard) (message : String) : Ledger :=
  let error := s.error ++ "; replan refused: " ++ message
  let l := l.apply cfg (.saveShardError s.index error)
  match s.orchestrationJob with
  | none => l
  | some offload => l.apply cfg (.saveOffloadError offload error)

/-- `_create_orchestration_job` for every replacement. -/
def createReplacements (cfg : Settings) : List Shard → Pass → Pass × Option PlanError
  | [], p => (p, none)
  | s :: rest, p =>
      if p.ledger.conflicts cfg [s] then
        (p, some (.other "duplicate key value violates unique constraint"))
      else
        let offload := p.ledger.offloads.length
        let l := p.ledger.apply cfg (.createOffload s)
        createReplacements cfg rest { p with
          ledger := l.apply cfg (.saveShardOffload s.index offload)
          new := p.new ++ [offload] }

/-- A shard that failed on the size of its output is replanned. -/
def replanRefused (cfg : Settings) (w : Weather) (s : Shard) (p : Pass) :
    Pass × Option PlanError :=
  match w.misconfigured with
  | some detail => (p, some (.configuration detail))
  | none => match replanShard (w.planning s.index) cfg (w.replan s.index) p.ledger s p.objects with
    | (.ok created, l, objects) =>
        createReplacements cfg created { p with ledger := l, objects := objects }
    | (.error e, l, objects) => match e.refusal with
      | some message => ({ p with ledger := refuseReplan cfg l s message, objects := objects }, none)
      | none => ({ p with ledger := l, objects := objects }, some e)

/-- The first loop of `reconcile_extraction`. -/
def visitShards (cfg : Settings) (w : Weather) : List Shard → Pass → Pass × Option PlanError
  | [], p => (p, none)
  | s :: rest, p =>
      if s.status = .superseded then visitShards cfg w rest p
      else match syncShard cfg p.ledger s with
        | .error e => (p, some e)
        | .ok (l, s) =>
            let p := { p with ledger := l }
            if s.status = .failed ∧ Text.contains "output_exceeds_max_bytes" s.error then
              match replanRefused cfg w s p with
              | (p, some e) => (p, some e)
              | (p, none) => visitShards cfg w rest p
            else visitShards cfg w rest p

/-- `_dispatch_shard` for every replacement. -/
def dispatchReplacements (cfg : Settings) (w : Weather) :
    List Nat → Ledger → Ledger × Option PlanError
  | [], l => (l, none)
  | offload :: rest, l => match w.broker offload with
    | none => (l, some (.other "broker unavailable"))
    | some id => dispatchReplacements cfg w rest
        ((l.apply cfg (.delayDispatch offload)).apply cfg (.saveOffloadTaskId offload id))

/-- The second loop, over the active shards. -/
def syncActive (cfg : Settings) : List Shard → List Shard → Ledger →
    Ledger × Except PlanError (List Shard)
  | [], done, l => (l, .ok done)
  | s :: rest, done, l => match syncShard cfg l s with
    | .error e => (l, .error e)
    | .ok (l, s) => syncActive cfg rest (done ++ [s]) l

/-- The rest of `reconcile_extraction`, after the first loop. -/
def foldActive (cfg : Settings) (w : Weather) (p : Pass) : Ledger × Option PlanError :=
  match dispatchReplacements cfg w p.new p.ledger with
  | (l, some e) => (l, some e)
  | (l, none) =>
      match syncActive cfg (l.shards.filter fun t => t.status != .superseded) [] l with
      | (l, .error e) => (l, some e)
      | (l, .ok active) =>
          (l.apply cfg (.saveJob (foldStatus active) active.length (rowsTotal active)), none)

/-- `reconcile_extraction`: the rows and the bucket it leaves, and what it raises. -/
def reconcileExtraction (cfg : Settings) (w : Weather) (l : Ledger) (objects : Objects (List Nat)) :
    Ledger × Objects (List Nat) × Option PlanError :=
  if l.job.status = .canceled then (l, objects, none)
  else match visitShards cfg w l.shards { ledger := l, objects := objects } with
    | (p, some e) => (p.ledger, p.objects, some e)
    | (p, none) =>
        let (l, raised) := foldActive cfg w p
        (l, p.objects, raised)

variable {cfg : Settings} {w : Weather} {l l' : Ledger} {s : Shard} {p p' : Pass}
  {objects objects' : Objects (List Nat)} {raised : Option PlanError}

/-! ## A pass is a run of the interleaved program -/

/-- Steps of one process. -/
abbrev Steps (cfg : Settings) : Ledger × Proc → Ledger × Proc → Prop :=
  Relation.ReflTransGen fun x y => ∃ r, act cfg x.1 x.2 r = some y

/-- Where a process is that has gone on to `q`, or has died of what it raised. -/
def Proc.orCrashed (q : Proc) : Option PlanError → Proc
  | none => q
  | some _ => .crashed

theorem steps_next {q q' : Proc} {r : Reply} {write : Write}
    (h : next cfg l q r = some (write, q')) : Steps cfg (l, q) (l.apply cfg write, q') := by
  have hr : r ≠ .crash := by
    rintro rfl
    rw [next_crash] at h
    cases h
  exact Relation.ReflTransGen.single ⟨r, by simp [act, hr, h]⟩

theorem steps_crash {q : Proc} (h : q.ended = false) : Steps cfg (l, q) (l, .crashed) :=
  Relation.ReflTransGen.single ⟨.crash, by simp [act, h]⟩

/-- The read and the save of `_sync_shard` in the first loop. -/
theorem sync_steps {rest : List Shard} {new : List Nat} {s' : Shard}
    (hactive : s.status ≠ .superseded) (h : syncShard cfg l s = .ok (l', s')) :
    Steps cfg (l, .visit (s :: rest) new) (l', visited s' rest new) := by
  unfold syncShard at h
  split at h
  · rename_i hjob
    cases h
    have hread : next cfg l (.visit (s :: rest) new) .ok =
        some (.nothing, visited s rest new) := by
      simp [next, submitStep, reconcileStep, hactive, hjob]
    exact steps_next hread
  · rename_i offload hjob
    split at h
    · cases h
    · rename_i row hrow
      have hread : next cfg l (.visit (s :: rest) new) .ok = some (.nothing,
          if s.sync row = s then visited s rest new else .saveSync (s.sync row) rest new) := by
        simp [next, submitStep, reconcileStep, hactive, hjob, hrow]
      split at h
      · rename_i hsame
        cases h
        rw [if_pos hsame] at hread
        exact steps_next hread
      · rename_i hsame
        cases h
        rw [if_neg hsame] at hread
        exact (steps_next hread).trans (steps_next (r := .ok) rfl)

/-- The read and the save of `_sync_shard` in the second loop. -/
theorem syncActive_steps {rest done : List Shard} {outcome : Except PlanError (List Shard)}
    (h : syncActive cfg rest done l = (l', outcome)) :
    (∀ active, outcome = .ok active → Steps cfg (l, .fold done rest) (l', .fold active [])) ∧
      ∀ e, outcome = .error e → Steps cfg (l, .fold done rest) (l', .crashed) := by
  induction rest generalizing done l with
  | nil =>
    cases h
    refine ⟨fun active heq => ?_, fun e heq => (nomatch heq)⟩
    cases heq
    exact Relation.ReflTransGen.refl
  | cons s rest ih =>
    rw [syncActive] at h
    split at h
    · cases h
      exact ⟨fun active heq => (nomatch heq), fun e _ => steps_crash rfl⟩
    · rename_i l₁ s₁ hsync
      have hstep : Steps cfg (l, .fold done (s :: rest)) (l₁, .fold (done ++ [s₁]) rest) := by
        unfold syncShard at hsync
        split at hsync
        · rename_i hjob
          cases hsync
          have hread : next cfg l (.fold done (s :: rest)) .ok =
              some (.nothing, .fold (done ++ [s]) rest) := by
            simp [next, submitStep, reconcileStep, hjob]
          exact steps_next hread
        · rename_i offload hjob
          split at hsync
          · cases hsync
          · rename_i row hrow
            have hread : next cfg l (.fold done (s :: rest)) .ok = some (.nothing,
                if s.sync row = s then .fold (done ++ [s]) rest
                else .saveFold (s.sync row) done rest) := by
              simp [next, submitStep, reconcileStep, hjob, hrow]
            split at hsync
            · rename_i hsame
              cases hsync
              rw [if_pos hsame] at hread
              exact steps_next hread
            · rename_i hsame
              cases hsync
              rw [if_neg hsame] at hread
              exact (steps_next hread).trans (steps_next (r := .ok) rfl)
      obtain ⟨hok, herror⟩ := ih h
      exact ⟨fun active heq => hstep.trans (hok active heq),
        fun e heq => hstep.trans (herror e heq)⟩

theorem createReplacements_steps {created todo : List Shard}
    (h : createReplacements cfg created p = (p', raised)) :
    Steps cfg (p.ledger, .create created todo p.new)
      (p'.ledger, (Proc.visit todo p'.new).orCrashed raised) := by
  induction created generalizing p with
  | nil =>
    cases h
    have hdone : next cfg p'.ledger (.create [] todo p'.new) .ok =
        some (.nothing, .visit todo p'.new) := rfl
    exact steps_next hdone
  | cons s rest ih =>
    rw [createReplacements] at h
    split at h
    · cases h
      exact steps_crash rfl
    · rename_i hnew
      have hcreate : next cfg p.ledger (.create (s :: rest) todo p.new) .ok = some (.createOffload s,
          .link s p.ledger.offloads.length rest todo p.new) := by
        simp [next, submitStep, reconcileStep, hnew]
      have hlink : next cfg (p.ledger.apply cfg (.createOffload s))
          (.link s p.ledger.offloads.length rest todo p.new) .ok =
            some (.saveShardOffload s.index p.ledger.offloads.length,
              .create rest todo (p.new ++ [p.ledger.offloads.length])) := rfl
      exact ((steps_next hcreate).trans (steps_next hlink)).trans (ih h)

theorem dispatchReplacements_steps {new : List Nat}
    (h : dispatchReplacements cfg w new l = (l', raised)) :
    Steps cfg (l, .dispatch .reconcile new) (l', Proc.listActive.orCrashed raised) := by
  induction new generalizing l with
  | nil =>
    cases h
    have hdone : next cfg l' (.dispatch .reconcile []) .ok = some (.nothing, .listActive) := rfl
    exact steps_next hdone
  | cons offload rest ih =>
    rw [dispatchReplacements] at h
    split at h
    · cases h
      exact steps_crash rfl
    · rename_i id hid
      have hdelay : next cfg l (.dispatch .reconcile (offload :: rest)) (.taskId id) =
          some (.delayDispatch offload, .saveTaskId .reconcile offload id rest) := rfl
      exact ((steps_next hdelay).trans (steps_next (r := .ok) rfl)).trans (ih h)

theorem refuseReplan_steps {rest : List Shard} {new : List Nat} (message : String) :
    Steps cfg (l, .refuse s message rest new)
      (refuseReplan cfg l s message, .visit rest new) := by
  have hrefuse : next cfg l (.refuse s message rest new) .ok =
      some (.saveShardError s.index (s.error ++ "; replan refused: " ++ message),
        match s.orchestrationJob with
        | none => .visit rest new
        | some offload => .refuseOffload offload (s.error ++ "; replan refused: " ++ message) rest
            new) := rfl
  unfold refuseReplan
  cases hjob : s.orchestrationJob with
  | none =>
    rw [hjob] at hrefuse
    exact steps_next hrefuse
  | some offload =>
    rw [hjob] at hrefuse
    exact (steps_next hrefuse).trans (steps_next (r := .ok) rfl)

/-- A replan that succeeds makes the step of the transaction, or finds the shard superseded. -/
theorem replanShard_ok {c : Planning Nat} {f : ReplanFaults} {created : List Shard}
    (h : replanShard c cfg f l s objects = (.ok created, l', objects')) :
    ¬ s.input.length < 2 ∧ ∃ locked, l.shard? s.index = some locked ∧
      ((locked.status = .superseded ∧ l' = l ∧ created = []) ∨
        (locked.status ≠ .superseded ∧ l' = l.apply cfg (.replan s) ∧
          created = l.replacements s)) := by
  unfold replanShard at h
  split at h
  · cases h
  · rename_i hrefusal
    have hlong : ¬ s.input.length < 2 := by
      intro hshort
      unfold replanRefusal at hrefusal
      split at hrefusal
      · cases hrefusal
      · simp [hshort] at hrefusal
    split at h
    · rename_i hattempt
      cases h
      refine ⟨hlong, ?_⟩
      unfold replanAttempt at hattempt
      split at hattempt
      · cases hattempt
      · cases hattempt
      · rename_i locked _ hlocked
        refine ⟨locked, hlocked, ?_⟩
        split at hattempt
        · rename_i hsuperseded
          cases hattempt
          exact Or.inl ⟨hsuperseded, rfl, rfl⟩
        · rename_i hactive
          split at hattempt
          · cases hattempt
          · split at hattempt
            · cases hattempt
            · cases hattempt
              exact Or.inr ⟨hactive, rfl, rfl⟩
    · cases h

theorem replanShard_error {c : Planning Nat} {f : ReplanFaults} {e : PlanError}
    (h : replanShard c cfg f l s objects = (.error e, l', objects')) : l' = l := by
  unfold replanShard at h
  split at h
  · cases h
    rfl
  · split at h
    · cases h
    · cases h
      rfl

theorem replanRefused_steps {rest : List Shard} (h : replanRefused cfg w s p = (p', raised)) :
    Steps cfg (p.ledger, .replan s rest p.new)
      (p'.ledger, (Proc.visit rest p'.new).orCrashed raised) := by
  unfold replanRefused at h
  split at h
  · cases h
    exact steps_crash rfl
  · split at h
    · rename_i created l₁ objects₁ hreplan
      obtain ⟨hlong, locked, hlocked, hcases⟩ := replanShard_ok hreplan
      have hstep : next cfg p.ledger (.replan s rest p.new) .ok =
          some (if locked.status = .superseded then (.nothing, .visit rest p.new)
            else (.replan s, .create (p.ledger.replacements s) rest p.new)) := by
        simp [next, submitStep, reconcileStep, hlong, hlocked]
      rcases hcases with ⟨hsuperseded, rfl, rfl⟩ | ⟨hactive, rfl, rfl⟩
      · rw [if_pos hsuperseded] at hstep
        cases h
        exact steps_next hstep
      · rw [if_neg hactive] at hstep
        exact (steps_next hstep).trans (createReplacements_steps h)
    · rename_i e l₁ objects₁ hreplan
      obtain rfl := replanShard_error hreplan
      split at h
      · rename_i message _
        cases h
        have hstep : next cfg p.ledger (.replan s rest p.new) (.error message) =
            some (.nothing, .refuse s message rest p.new) := rfl
        exact (steps_next hstep).trans (refuseReplan_steps message)
      · cases h
        exact steps_crash rfl

theorem visitShards_steps {rest : List Shard} (h : visitShards cfg w rest p = (p', raised)) :
    Steps cfg (p.ledger, .visit rest p.new)
      (p'.ledger, (Proc.visit [] p'.new).orCrashed raised) := by
  induction rest generalizing p with
  | nil =>
    cases h
    exact Relation.ReflTransGen.refl
  | cons s rest ih =>
    rw [visitShards] at h
    split at h
    · rename_i hsuperseded
      have hskip : next cfg p.ledger (.visit (s :: rest) p.new) .ok =
          some (.nothing, .visit rest p.new) := by
        simp [next, submitStep, reconcileStep, hsuperseded]
      exact (steps_next hskip).trans (ih h)
    · rename_i hactive
      split at h
      · cases h
        exact steps_crash rfl
      · rename_i l₁ s₁ hsync
        have hvisited : Steps cfg (p.ledger, .visit (s :: rest) p.new)
            (l₁, visited s₁ rest p.new) := sync_steps hactive hsync
        dsimp only at h
        split at h
        · rename_i hfailed
          rw [visited, if_pos hfailed] at hvisited
          split at h
          · rename_i hreplan
            cases h
            exact hvisited.trans (replanRefused_steps hreplan)
          · rename_i hreplan
            exact (hvisited.trans (replanRefused_steps hreplan)).trans (ih h)
        · rename_i hother
          rw [visited, if_neg hother] at hvisited
          exact hvisited.trans (ih h)

/-- **A pass is a run of the interleaved program**: it makes the steps of `reconcile`, and returns or
    dies of what it raises. -/
theorem reconcile_steps (h : reconcileExtraction cfg w l objects = (l', objects', raised)) :
    Steps cfg (l, .reconcile) (l', Proc.returned.orCrashed raised) := by
  unfold reconcileExtraction at h
  split at h
  · rename_i hcanceled
    cases h
    have hstep : next cfg l .reconcile .ok = some (.nothing, .returned) := by
      simp [next, submitStep, reconcileStep, hcanceled]
    exact steps_next hstep
  · rename_i hlive
    have hstart : next cfg l .reconcile .ok = some (.nothing, .listShards) := by
      simp [next, submitStep, reconcileStep, hlive]
    have hlist : next cfg l .listShards .ok = some (.nothing, .visit l.shards []) := rfl
    have hbegin := (steps_next hstart).trans (steps_next hlist)
    split at h
    · rename_i hvisit
      cases h
      exact hbegin.trans (visitShards_steps hvisit)
    · rename_i p hvisit
      have hmid := hbegin.trans (visitShards_steps hvisit)
      have hnew : next cfg p.ledger (.visit [] p.new) .ok =
          some (.nothing, .dispatch .reconcile p.new) := rfl
      have hdispatch := hmid.trans (steps_next hnew)
      dsimp only at h
      unfold foldActive at h
      split at h
      · rename_i hloop
        cases h
        exact hdispatch.trans (dispatchReplacements_steps hloop)
      · rename_i l₁ hloop
        have hactive : next cfg l₁ .listActive .ok = some (.nothing,
            .fold [] (l₁.shards.filter fun t => t.status != .superseded)) := rfl
        have hfold := (hdispatch.trans (dispatchReplacements_steps hloop)).trans (steps_next hactive)
        split at h
        · rename_i hsync
          cases h
          exact hfold.trans ((syncActive_steps hsync).2 _ rfl)
        · rename_i l₂ active hsync
          cases h
          have hsave : next cfg l₂ (.fold active []) .ok =
              some (.saveJob (foldStatus active) active.length (rowsTotal active), .returned) := rfl
          exact (hfold.trans ((syncActive_steps hsync).1 _ rfl)).trans (steps_next hsave)

/-- In any configuration, for the process that makes the pass. -/
theorem reconcile_reach {c : Config Ledger Proc} {i : Nat} (hget : c.procs[i]? = some .reconcile)
    (h : reconcileExtraction cfg w c.store objects = (l', objects', raised)) :
    (program cfg).Reach Program.Any c ⟨l', c.procs.set i (Proc.returned.orCrashed raised)⟩ := by
  have hlift : ∀ x y, Steps cfg x y → ∀ procs : List Proc, procs[i]? = some x.2 →
      (program cfg).Reach Program.Any ⟨x.1, procs⟩ ⟨y.1, procs.set i y.2⟩ := by
    intro x y hxy procs hx
    induction hxy with
    | refl =>
      obtain ⟨hi, heq⟩ := List.getElem?_eq_some_iff.mp hx
      rw [← heq, List.set_getElem_self]
    | @tail mid last _ hstep ih =>
      obtain ⟨r, hr⟩ := hstep
      have hi : i < procs.length := (List.getElem?_eq_some_iff.mp hx).1
      refine Relation.ReflTransGen.tail ih ⟨.act i r, trivial, ?_⟩
      simp [Program.step, program, hi, hr]
  exact hlift _ _ (reconcile_steps h) c.procs hget

/-! ## A pass does not depend on the bucket -/

theorem discardLoop_failed (f : Faults) {plans plans' : List ShardPlan}
    (h : plans.map ShardPlan.index = plans'.map ShardPlan.index) (objects objects' : Objects (List Nat)) :
    (discardLoop f plans objects).2 = (discardLoop f plans' objects').2 := by
  induction plans generalizing plans' objects objects' with
  | nil =>
    obtain rfl := List.map_eq_nil_iff.mp h.symm
    rfl
  | cons plan rest ih =>
    obtain ⟨plan', rest', rfl, hindex, hrest⟩ := List.map_eq_cons_iff.mp h.symm
    rw [discardLoop, discardLoop, hindex]
    split
    · exact ih hrest.symm _ _
    · rfl

section Agree

variable {c c' : Planning Nat} {f : ReplanFaults} {l₁ l₂ : Ledger} {s₁ s₂ : Shard}

theorem writeReplacements_agree {a a' : Attempt Nat} (created : List Shard)
    (h : a.plans.map ShardPlan.index = a'.plans.map ShardPlan.index) :
    (writeReplacements c f a created).2 = (writeReplacements c' f a' created).2 ∧
      (writeReplacements c f a created).1.plans.map ShardPlan.index =
        (writeReplacements c' f a' created).1.plans.map ShardPlan.index := by
  induction created generalizing a a' with
  | nil => exact ⟨rfl, h⟩
  | cons s rest ih =>
    have hlength : a.plans.length = a'.plans.length := by
      simpa only [List.length_map] using congrArg List.length h
    have hwrite : (a.write c s.index s.input).plans.map ShardPlan.index =
        (a'.write c' s.index s.input).plans.map ShardPlan.index := by
      rw [Attempt.write, Attempt.write, List.map_append, List.map_append, h]
      rfl
    have hlength' : (a.write c s.index s.input).plans.length = (a'.write c' s.index s.input).plans.length := by
      simpa only [List.length_map] using congrArg List.length hwrite
    rw [writeReplacements, writeReplacements, hlength]
    split
    · exact ⟨rfl, h⟩
    · dsimp only
      rw [hlength']
      split
      · exact ⟨rfl, hwrite⟩
      · exact ih hwrite

/-- Two stored rows, as `replan_shard` sees them. -/
structure SameShard (l₁ l₂ : Ledger) (s₁ s₂ : Shard) : Prop where
  index : s₁.index = s₂.index
  input : s₁.input = s₂.input
  next : l₁.nextIndex = l₂.nextIndex
  stored : (l₁.shard? s₁.index).map (fun t => t.status = .superseded) =
    (l₂.shard? s₂.index).map (fun t => t.status = .superseded)

/-- **What a replan answers** depends on what goes wrong, not on what is planned where. -/
theorem replanShard_agree (h : SameShard l₁ l₂ s₁ s₂) (objects₁ objects₂ : Objects (List Nat)) :
    (replanShard c cfg f l₁ s₁ objects₁).1 = (replanShard c' cfg f l₂ s₂ objects₂).1 := by
  have hreplacements : l₁.replacements s₁ = l₂.replacements s₂ := by
    rw [Ledger.replacements, Ledger.replacements, h.input, h.next]
  have hrefusal : replanRefusal f s₁ = replanRefusal f s₂ := by
    rw [replanRefusal, replanRefusal, h.input]
  have hattempt : (replanAttempt c cfg f l₁ s₁ objects₁).2.map Prod.snd =
        (replanAttempt c' cfg f l₂ s₂ objects₂).2.map Prod.snd ∧
      (replanAttempt c cfg f l₁ s₁ objects₁).1.plans.map ShardPlan.index =
        (replanAttempt c' cfg f l₂ s₂ objects₂).1.plans.map ShardPlan.index := by
    obtain ⟨hraised, hplans⟩ :=
      @writeReplacements_agree c c' f ⟨[], objects₁⟩ ⟨[], objects₂⟩ (l₂.replacements s₂) rfl
    have hstored := h.stored
    unfold replanAttempt
    rw [hreplacements]
    cases f.lock with
    | some e => exact ⟨rfl, rfl⟩
    | none =>
      cases h₁ : l₁.shard? s₁.index with
      | none =>
        cases h₂ : l₂.shard? s₂.index with
        | none => exact ⟨rfl, rfl⟩
        | some locked₂ =>
          rw [h₁, h₂] at hstored
          cases hstored
      | some locked₁ =>
        cases h₂ : l₂.shard? s₂.index with
        | none =>
          rw [h₁, h₂] at hstored
          cases hstored
        | some locked₂ =>
          rw [h₁, h₂] at hstored
          have hstatus : locked₁.status = .superseded ↔ locked₂.status = .superseded :=
            Iff.of_eq (Option.some.inj hstored)
          dsimp only
          by_cases hsup : locked₁.status = .superseded
          · rw [if_pos hsup, if_pos (hstatus.mp hsup)]
            exact ⟨rfl, rfl⟩
          · rw [if_neg hsup, if_neg (hstatus.not.mp hsup)]
            generalize writeReplacements c f ⟨[], objects₁⟩ (l₂.replacements s₂) = x at hraised hplans ⊢
            generalize writeReplacements c' f ⟨[], objects₂⟩ (l₂.replacements s₂) = y
              at hraised hplans ⊢
            obtain ⟨a, e⟩ := x
            obtain ⟨a', e'⟩ := y
            obtain rfl : e = e' := hraised
            cases e with
            | some e => exact ⟨rfl, hplans⟩
            | none =>
              dsimp only
              cases f.commit <;> exact ⟨rfl, hplans⟩
  obtain ⟨houtcome, hplans⟩ := hattempt
  unfold replanShard
  rw [hrefusal]
  cases replanRefusal f s₂ with
  | some e => rfl
  | none =>
    dsimp only
    generalize replanAttempt c cfg f l₁ s₁ objects₁ = x at houtcome hplans ⊢
    generalize replanAttempt c' cfg f l₂ s₂ objects₂ = y at houtcome hplans ⊢
    obtain ⟨a, outcome⟩ := x
    obtain ⟨a', outcome'⟩ := y
    cases outcome with
    | ok r =>
      cases outcome' with
      | ok r' => exact houtcome
      | error => cases houtcome
    | error original =>
      cases outcome' with
      | ok => cases houtcome
      | error original' =>
        obtain rfl := Except.error.inj houtcome
        have hreverse : a.plans.reverse.map ShardPlan.index = a'.plans.reverse.map ShardPlan.index := by
          rw [List.map_reverse, List.map_reverse]
          exact congrArg List.reverse hplans
        have hfailed := discardLoop_failed f.toFaults hreverse a.objects a'.objects
        dsimp only
        unfold discardPlans
        generalize discardLoop f.toFaults a.plans.reverse a.objects = u at hfailed ⊢
        generalize discardLoop f.toFaults a'.plans.reverse a'.objects = v at hfailed ⊢
        obtain ⟨o, b⟩ := u
        obtain ⟨o', b'⟩ := v
        obtain rfl : b = b' := hfailed
        cases b <;> rfl

end Agree

theorem replanShard_bucket (c : Planning Nat) (cfg : Settings) (f : ReplanFaults) (l : Ledger)
    (s : Shard) (objects objects' : Objects (List Nat)) :
    (replanShard c cfg f l s objects).1 = (replanShard c cfg f l s objects').1 ∧
      (replanShard c cfg f l s objects).2.1 = (replanShard c cfg f l s objects').2.1 := by
  have hsame : (replanShard c cfg f l s objects).1 = (replanShard c cfg f l s objects').1 :=
    replanShard_agree ⟨rfl, rfl, rfl, rfl⟩ objects objects'
  refine ⟨hsame, ?_⟩
  generalize hx : replanShard c cfg f l s objects = x at hsame ⊢
  generalize hy : replanShard c cfg f l s objects' = y at hsame ⊢
  obtain ⟨e, l₁, o₁⟩ := x
  obtain ⟨e', l₂, o₂⟩ := y
  obtain rfl : e = e' := hsame
  cases e with
  | error e => exact (replanShard_error hx).trans (replanShard_error hy).symm
  | ok created =>
    obtain ⟨-, locked, hlocked, hx⟩ := replanShard_ok hx
    obtain ⟨-, locked', hlocked', hy⟩ := replanShard_ok hy
    obtain rfl := Option.some.inj (hlocked.symm.trans hlocked')
    rcases hx with ⟨hsup, rfl, -⟩ | ⟨hsup, rfl, -⟩ <;> rcases hy with ⟨hsup', rfl, -⟩ | ⟨hsup', rfl, -⟩
    · rfl
    · exact absurd hsup hsup'
    · exact absurd hsup' hsup
    · rfl

/-- Two passes over the same rows. -/
structure Pass.Agree (p p' : Pass) : Prop where
  ledger : p.ledger = p'.ledger
  new : p.new = p'.new

theorem createReplacements_bucket (cfg : Settings) (created : List Shard) (h : p.Agree p') :
    (createReplacements cfg created p).1.Agree (createReplacements cfg created p').1 ∧
      (createReplacements cfg created p).2 = (createReplacements cfg created p').2 := by
  induction created generalizing p p' with
  | nil => exact ⟨h, rfl⟩
  | cons s rest ih =>
    rw [createReplacements, createReplacements, h.ledger, h.new]
    split
    · exact ⟨h, rfl⟩
    · exact ih ⟨rfl, rfl⟩

theorem replanRefused_bucket (cfg : Settings) (w : Weather) (s : Shard) (h : p.Agree p') :
    (replanRefused cfg w s p).1.Agree (replanRefused cfg w s p').1 ∧
      (replanRefused cfg w s p).2 = (replanRefused cfg w s p').2 := by
  unfold replanRefused
  split
  · exact ⟨h, rfl⟩
  · rw [h.ledger]
    obtain ⟨hraised, hledger⟩ := replanShard_bucket (w.planning s.index) cfg (w.replan s.index)
      p'.ledger s p.objects p'.objects
    generalize replanShard (w.planning s.index) cfg (w.replan s.index) p'.ledger s
      p.objects = x at hraised hledger ⊢
    generalize replanShard (w.planning s.index) cfg (w.replan s.index) p'.ledger s
      p'.objects = y at hraised hledger ⊢
    obtain ⟨e, l, o⟩ := x
    obtain ⟨e', l', o'⟩ := y
    obtain rfl : e = e' := hraised
    obtain rfl : l = l' := hledger
    cases e with
    | ok created => exact createReplacements_bucket cfg created ⟨rfl, h.new⟩
    | error e =>
      dsimp only
      split
      · exact ⟨⟨rfl, h.new⟩, rfl⟩
      · exact ⟨⟨rfl, h.new⟩, rfl⟩

theorem visitShards_bucket (cfg : Settings) (w : Weather) (rest : List Shard) (h : p.Agree p') :
    (visitShards cfg w rest p).1.Agree (visitShards cfg w rest p').1 ∧
      (visitShards cfg w rest p).2 = (visitShards cfg w rest p').2 := by
  induction rest generalizing p p' with
  | nil => exact ⟨h, rfl⟩
  | cons s rest ih =>
    rw [visitShards, visitShards, h.ledger]
    split
    · exact ih h
    · split
      · exact ⟨h, rfl⟩
      · rename_i l₁ s₁ _
        have hagree : Pass.Agree { p with ledger := l₁ } { p' with ledger := l₁ } := ⟨rfl, h.new⟩
        dsimp only
        split
        · obtain ⟨hpass, hraised⟩ := replanRefused_bucket cfg w s₁ hagree
          generalize replanRefused cfg w s₁ { p with ledger := l₁ } = x at hpass hraised ⊢
          generalize replanRefused cfg w s₁ { p' with ledger := l₁ } = y at hpass hraised ⊢
          obtain ⟨q, e⟩ := x
          obtain ⟨q', e'⟩ := y
          obtain rfl : e = e' := hraised
          cases e with
          | some e => exact ⟨hpass, rfl⟩
          | none => exact ih hpass
        · exact ih hagree

theorem reconcile_bucket (cfg : Settings) (w : Weather) (l : Ledger)
    (objects objects' : Objects (List Nat)) :
    (reconcileExtraction cfg w l objects).1 = (reconcileExtraction cfg w l objects').1 ∧
      (reconcileExtraction cfg w l objects).2.2 = (reconcileExtraction cfg w l objects').2.2 := by
  unfold reconcileExtraction
  split
  · exact ⟨rfl, rfl⟩
  · have hagree : Pass.Agree { ledger := l, objects := objects } { ledger := l, objects := objects' } :=
      ⟨rfl, rfl⟩
    obtain ⟨hpass, hraised⟩ := visitShards_bucket cfg w l.shards hagree
    generalize visitShards cfg w l.shards { ledger := l, objects := objects } = x at hpass hraised ⊢
    generalize visitShards cfg w l.shards
      { ledger := l, objects := objects' } = y at hpass hraised ⊢
    obtain ⟨q, e⟩ := x
    obtain ⟨q', e'⟩ := y
    obtain rfl : e = e' := hraised
    cases e with
    | some e => exact ⟨hpass.ledger, rfl⟩
    | none =>
      dsimp only at hpass ⊢
      rw [foldActive, foldActive, hpass.ledger, hpass.new]
      exact ⟨rfl, rfl⟩

end ControlPlane.Extraction
