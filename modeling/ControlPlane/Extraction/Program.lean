/-
  WHO WRITES WHEN: the tasks of `apps/extraction/tasks.py`, the cancel route and the operator's re-run
  over one extraction job, as an interleaved program.

  A process is at one of its program points and carries the Python objects it still holds: copies
  of shard rows read earlier, offload ids of the replacements it created.  Between two points it
  makes one query, one save, one enqueueing, or one `transaction.atomic()` block:

  * `submit_extraction`       `submit` → `submitExists` → `planning` → `adopt` or `planFailed`, then
                              `dispatch` for every shard, then `reconcile`,
  * `reconcile_extraction`    `reconcile` → `listShards` → `visit`* (with `saveSync`, and `replan` →
                              `create` → `link` for a refused shard) → `dispatch` → `listActive` →
                              `fold`* (with `saveFold`) → the save of the job,
  * `sweep_extraction_jobs`   `sweep` → `reconcile` when the job is QUEUED or RUNNING,
  * `cancel`                  `cancel` → `cancelList` → `cancelLoop`* (with `cancelSave`) → the save.

  `next` gives the write of a step and the next program point.  The offload rows are moved by the
  environment: their own program is `Orchestration.Offload`, here they may change in any way that
  keeps their `operation_id`.
-/
import ControlPlane.Interleave
import ControlPlane.Extraction.Ledger

namespace ControlPlane.Extraction

open ControlPlane.Interleave

/-! ## Processes -/

/-- Who is dispatching shards, and so what follows. -/
inductive Caller where
  | submit
  | reconcile
  deriving DecidableEq, Repr

/-- What the world answers to a step. -/
inductive Reply where
  | ok
  /-- The call raises one of the error classes its caller catches. -/
  | error (message : String)
  /-- An exception nobody catches (a transaction is rolled back), or the death of the worker. -/
  | crash
  | planned (plan : Plan)
  /-- The broker accepts the task under this id. -/
  | taskId (id : String)
  deriving DecidableEq

/-- A task or request at one of its program points.  `todo` is the rest of the list being iterated,
    `new` the offload jobs of the replacements created so far. -/
inductive Proc where
  | submit
  | submitExists
  | planning
  | planFailed (error : String)
  | adopt (plan : Plan)
  | dispatch (caller : Caller) (todo : List Nat)
  | saveTaskId (caller : Caller) (offload : Nat) (id : String) (todo : List Nat)
  | reconcile
  | listShards
  | visit (todo : List Shard) (new : List Nat)
  | saveSync (s : Shard) (todo : List Shard) (new : List Nat)
  | replan (s : Shard) (todo : List Shard) (new : List Nat)
  | create (created todo : List Shard) (new : List Nat)
  | link (s : Shard) (offload : Nat) (created todo : List Shard) (new : List Nat)
  | refuse (s : Shard) (message : String) (todo : List Shard) (new : List Nat)
  | refuseOffload (offload : Nat) (error : String) (todo : List Shard) (new : List Nat)
  | listActive
  | fold (done todo : List Shard)
  | saveFold (s : Shard) (done todo : List Shard)
  | sweep
  | cancel
  | cancelList
  | cancelLoop (done todo : List Shard)
  | cancelSave (s : Shard) (done todo : List Shard)
  | rerunFailedShards
  | returned
  | crashed
  deriving DecidableEq

/-- The tasks and requests that the broker, the beat schedule and the web server start. -/
def Proc.starts : Proc → Bool
  | .submit | .reconcile | .sweep | .cancel | .rerunFailedShards => true
  | _ => false

/-- A process that has returned or died takes no further step. -/
def Proc.ended : Proc → Bool
  | .returned | .crashed => true
  | _ => false

/-! ## One step of one process -/

/-- `UniqueConstraint(fields=["tenant", "operation_id"])` refuses offload jobs for these shards. -/
def Ledger.conflicts (cfg : Settings) (l : Ledger) (shards : List Shard) : Bool :=
  !decide ((l.offloads ++ shards.map (newOffload cfg)).map
    Orchestration.Job.operationId).Nodup

/-- `ExtractionShard.objects.get(...)`. -/
def Ledger.shard? (l : Ledger) (index : Nat) : Option Shard :=
  l.shards.find? fun t => t.index == index

/-- After the dispatch loop: submission reconciles, reconciliation lists the active shards. -/
def Caller.next : Caller → Proc
  | .submit => .reconcile
  | .reconcile => .listActive

/-- `submit_extraction` and `_dispatch_shard`. -/
def submitStep (cfg : Settings) (l : Ledger) : Proc → Reply → Option (Write × Proc)
  | .submit, .ok =>
      some (.nothing, if l.job.status = .canceled then .returned else .submitExists)
  | .submitExists, .ok => some (.nothing, if l.shards ≠ [] then .reconcile else .planning)
  | .planning, .error message => some (.nothing, .planFailed message)
  | .planning, .planned plan => some (.nothing, .adopt plan)
  | .planFailed error, .ok =>
      some (if l.job.status = .canceled ∨ l.shards ≠ [] then .nothing else .failPlanning error,
        .returned)
  | .adopt plan, .ok =>
      let shards := plannedShards l.offloads.length plan
      if l.job.status = .canceled ∨ l.shards ≠ [] then some (.nothing, .returned)
      else if l.conflicts cfg shards then none
      else some (.adopt plan, .dispatch .submit (shards.filterMap Shard.orchestrationJob))
  | .dispatch caller [], .ok => some (.nothing, caller.next)
  | .dispatch caller (offload :: todo), .taskId id =>
      some (.delayDispatch offload, .saveTaskId caller offload id todo)
  | .saveTaskId caller offload id todo, .ok =>
      some (.saveOffloadTaskId offload id, .dispatch caller todo)
  | _, _ => none

/-- After `_sync_shard`: a shard that failed on the size of its output is replanned. -/
def visited (s : Shard) (todo : List Shard) (new : List Nat) : Proc :=
  if s.status = .failed ∧ Text.contains "output_exceeds_max_bytes" s.error then
    .replan s todo new
  else .visit todo new

/-- `reconcile_extraction` with `_sync_shard` and `replan_shard`, and the sweep. -/
def reconcileStep (cfg : Settings) (l : Ledger) : Proc → Reply → Option (Write × Proc)
  | .reconcile, .ok =>
      some (.nothing, if l.job.status = .canceled then .returned else .listShards)
  | .listShards, .ok => some (.nothing, .visit l.shards [])
  | .visit [] new, .ok => some (.nothing, .dispatch .reconcile new)
  | .visit (s :: todo) new, .ok =>
      if s.status = .superseded then some (.nothing, .visit todo new)
      else match s.orchestrationJob with
        | none => some (.nothing, visited s todo new)
        | some offload => (l.offloads[offload]?).map fun row =>
            -- `_sync_shard` saves only when something changed
            (.nothing, if s.sync row = s then visited s todo new
              else .saveSync (s.sync row) todo new)
  | .saveSync s todo new, .ok => some (.saveShard s, visited s todo new)
  | .replan s todo new, .error message => some (.nothing, .refuse s message todo new)
  | .replan s todo new, .ok =>
      if s.input.length < 2 then
        some (.nothing, .refuse s "a one-row shard cannot be split further" todo new)
      else (l.shard? s.index).map fun locked =>
        if locked.status = .superseded then (.nothing, .visit todo new)
        else (.replan s, .create (l.replacements s) todo new)
  | .create [] todo new, .ok => some (.nothing, .visit todo new)
  | .create (s :: created) todo new, .ok =>
      if l.conflicts cfg [s] then none
      else some (.createOffload s, .link s l.offloads.length created todo new)
  | .link s offload created todo new, .ok =>
      some (.saveShardOffload s.index offload, .create created todo (new ++ [offload]))
  | .refuse s message todo new, .ok =>
      let error := s.error ++ "; replan refused: " ++ message
      some (.saveShardError s.index error, match s.orchestrationJob with
        | none => .visit todo new
        | some offload => .refuseOffload offload error todo new)
  | .refuseOffload offload error todo new, .ok =>
      some (.saveOffloadError offload error, .visit todo new)
  | .listActive, .ok =>
      some (.nothing, .fold [] (l.shards.filter fun t => t.status != .superseded))
  | .fold done (s :: todo), .ok =>
      match s.orchestrationJob with
      | none => some (.nothing, .fold (done ++ [s]) todo)
      | some offload => (l.offloads[offload]?).map fun row =>
          (.nothing, if s.sync row = s then .fold (done ++ [s]) todo
            else .saveFold (s.sync row) done todo)
  | .saveFold s done todo, .ok => some (.saveShard s, .fold (done ++ [s]) todo)
  | .fold done [], .ok =>
      some (.saveJob (foldStatus done) done.length (rowsTotal done), .returned)
  | .sweep, .ok =>
      some (.nothing, if l.job.status = .queued ∨ l.job.status = .running then .reconcile
        else .returned)
  | _, _ => none

/-- The cancel route and the operator's re-run. -/
def cancelStep (l : Ledger) : Proc → Reply → Option (Write × Proc)
  | .cancel, .ok => some (.nothing, if l.job.status.terminal then .returned else .cancelList)
  | .cancelList, .ok => some (.nothing, .cancelLoop [] l.shards)
  | .cancelLoop done (s :: todo), .ok =>
      some (match s.orchestrationJob with
        | none => (.nothing, .cancelLoop (done ++ [s]) todo)
        | some offload =>
            if s.status.final then (.nothing, .cancelLoop (done ++ [s]) todo)
            else (.delayCancel offload, .cancelSave s done todo))
  | .cancelSave s done todo, .ok =>
      some (.saveShardStatus s.index .canceled, .cancelLoop (done ++ [s]) todo)
  | .cancelLoop _ [], .ok => some (.cancelJob, .returned)
  | .rerunFailedShards, .ok => some (.requeueFailed, .returned)
  | _, _ => none

/-- The write of one step and the next program point. -/
def next (cfg : Settings) (l : Ledger) (p : Proc) (r : Reply) : Option (Write × Proc) :=
  (submitStep cfg l p r).or ((reconcileStep cfg l p r).or (cancelStep l p r))

/-- One step of any process: it may die at every point, else it moves as its function says. -/
def act (cfg : Settings) (l : Ledger) (p : Proc) (r : Reply) : Option (Ledger × Proc) :=
  if r = .crash then (if p.ended then none else some (l, .crashed))
  else (next cfg l p r).map fun wp => (l.apply cfg wp.1, wp.2)

/-- An offload row changes: any column but its `operation_id`. -/
def offloadMove (l : Ledger) (m : Nat × Orchestration.Job) : Option Ledger :=
  (l.offloads[m.1]?).bind fun old =>
    if m.2.operationId = old.operationId then
      some { l with offloads := l.offloads.set m.1 m.2 }
    else none

/-- The extraction program over one job. -/
def program (cfg : Settings) : Program Ledger Proc Reply (Nat × Orchestration.Job) where
  start := Proc.starts
  act := act cfg
  env := offloadMove

/-- A job that was just created: QUEUED, no shards, nobody at work. -/
def fresh : Config Ledger Proc := ⟨{}, []⟩

/-! ## Steps and the writes they make -/

/-- A step is a death, or a write. -/
theorem act_cases {cfg : Settings} {l l' : Ledger} {p p' : Proc} {r : Reply}
    (h : act cfg l p r = some (l', p')) : (r = .crash ∧ l' = l ∧ p' = .crashed) ∨
      ∃ w, next cfg l p r = some (w, p') ∧ l' = l.apply cfg w := by
  unfold act at h
  split at h
  · rename_i hr
    split at h
    · cases h
    · cases h
      exact Or.inl ⟨hr, rfl, rfl⟩
  · obtain ⟨⟨w, q⟩, hnext, heq⟩ := Option.map_eq_some_iff.mp h
    cases heq
    exact Or.inr ⟨w, hnext, rfl⟩

theorem next_cases {cfg : Settings} {l : Ledger} {p p' : Proc} {r : Reply} {w : Write}
    (h : next cfg l p r = some (w, p')) : submitStep cfg l p r = some (w, p') ∨
      reconcileStep cfg l p r = some (w, p') ∨ cancelStep l p r = some (w, p') := by
  simp only [next, Option.or_eq_some_iff] at h
  tauto

theorem next_crash (cfg : Settings) (l : Ledger) (p : Proc) : next cfg l p .crash = none := by
  cases p with
  | dispatch caller todo => cases todo <;> rfl
  | visit todo new => cases todo <;> rfl
  | create created todo new => cases created <;> rfl
  | fold done todo => cases todo <;> rfl
  | cancelLoop done todo => cases todo <;> rfl
  | _ => rfl

theorem offloadMove_cases {l l' : Ledger} {m : Nat × Orchestration.Job}
    (h : offloadMove l m = some l') : ∃ old, l.offloads[m.1]? = some old ∧
      m.2.operationId = old.operationId ∧
      l' = { l with offloads := l.offloads.set m.1 m.2 } := by
  obtain ⟨old, hold, h⟩ := Option.bind_eq_some_iff.mp h
  split at h
  · rename_i hid
    cases h
    exact ⟨old, hold, hid, rfl⟩
  · cases h

/-- The process that moves in an event, and the write it makes. -/
def writing (cfg : Settings) (s : Config Ledger Proc) :
    Event Proc Reply (Nat × Orchestration.Job) → Option (Proc × Write)
  | .act i r => (s.procs[i]?).bind fun p => (next cfg s.store p r).map fun wp => (p, wp.1)
  | _ => none

/-! ## A concrete job -/

/-- Settings under which one shard never conflicts with itself. -/
def toySettings : Settings := { inputDigest := fun _ => "", operationId := fun _ _ => "" }

/-- Two rows in one shard. -/
def onePlan : Plan := ⟨2, [[0, 1]], by decide, by decide⟩

/-- The job is submitted and adopted; its shard is still to be dispatched. -/
def adopted : List (Event Proc Reply (Nat × Orchestration.Job)) :=
  [.spawn .submit, .act 0 .ok, .act 0 .ok, .act 0 (.planned onePlan), .act 0 .ok]

end ControlPlane.Extraction
