/-
  TRAINING ON A POD: `run_prime_rl_training` of `theorem_control/rl/tasks.py` with the client of
  `theorem_control/rl/runpod.py`, and `cancel_run` of `theorem_control/rl/api.py`, as an interleaved
  program over ONE training run.

  A process is one delivery of the task, or one cancel request, at one of its program points; between
  two points it makes one read or write of the row, one transaction, or one call of RunPod:

  * `run_prime_rl_training`   `train` → (`terminateCanceled` | `claim`) → `configure` → `create` →
                              `savePodId` → `RunpodPodClient.wait` → `readOutputs` → `_finish`,
  * `RunpodPodClient.wait`    (`canceled` → `get`)* → terminal state, `terminateInWait`, or
                              `terminateLate`,
  * the handler               `caught`, which asks for termination and goes on to `_finish`,
  * `_finish`                 `finish` (the refresh) → `save`,
  * `cancel_run`              `cancelRun` → `delay`.

  Between the deadline of a Celery broker, its redelivery and the `delay` of two routes, the task may
  be delivered at any time and any number of times, so no queue is kept.

  `_claim` and `cancel_run` hold the row lock for the whole read and write, so each is one step;
  `_finish` holds no lock, so its refresh and its save are two.
-/
import ControlPlane.Interleave
import ControlPlane.Rl.Submit

namespace ControlPlane.Rl

open ControlPlane.Interleave

/-! ## The row and the Pods -/

/-- A Pod: it runs, and a DELETE request for it was issued. -/
structure Pod where
  live : Bool := true
  terminationRequested : Bool := false
  deriving DecidableEq, Repr

/-- The columns of the row that the task reads and writes, and every Pod created for the run.
    `podId` is `none` where the column is blank. -/
structure Board where
  status : Status := .queued
  podId : Option Nat := none
  error : String := ""
  pods : List Pod := []
  deriving DecidableEq, Repr

/-- RunPod starts a Pod. -/
def Board.createPod (b : Board) : Board := { b with pods := b.pods ++ [{}] }

/-- A DELETE request; `stopped` tells whether RunPod acts on it. -/
def Board.terminate (b : Board) (pod : Nat) (stopped : Bool) : Board :=
  { b with pods := b.pods.modify pod fun p => ⟨p.live && !stopped, true⟩ }

/-- A Pod reaches EXITED, TERMINATED or FAILED by itself. -/
def Board.podExits (b : Board) (pod : Nat) : Board :=
  { b with pods := b.pods.modify pod fun p => { p with live := false } }

/-! ## Processes and replies -/

/-- What the world answers to a step. -/
inductive Reply where
  /-- The call goes through. -/
  | ok
  /-- The client or the store cannot be configured; no request is sent. -/
  | unconfigured (message : String)
  /-- The call raises an error its caller catches; `effect` tells whether RunPod acted on it. -/
  | failed (effect : Bool) (message : String)
  /-- `desiredStatus` is one of `TERMINAL_STATUSES`. -/
  | exited
  /-- Any other `desiredStatus`, before the deadline. -/
  | running
  /-- Any other `desiredStatus`, at `monotonic() >= deadline`. -/
  | deadline
  /-- An exception nobody catches, or the death of the worker. -/
  | crash
  deriving DecidableEq, Repr

/-- A delivery or a request at one of its program points.  `podId` is the local `run.pod_id`. -/
inductive Proc where
  | train
  | terminateCanceled (pod : Nat)
  | claim
  | configure (podId : Option Nat)
  | create (podId : Option Nat)
  | savePodId (pod : Nat)
  | canceled (pod : Nat)
  | terminateInWait (pod : Nat)
  | get (pod : Nat)
  | terminateLate (pod : Nat)
  | readOutputs (pod : Nat)
  | caught (podId : Option Nat) (message : String)
  | finish (status : Status) (error : String)
  | save (status : Status) (error : String)
  | cancelRun
  | delay
  | returned
  | died
  deriving DecidableEq, Repr

/-- The processes that come from outside. -/
def Proc.starts : Proc → Bool
  | .train | .cancelRun => true
  | _ => false

/-- The delivery has claimed the run and has not returned. -/
def Proc.working : Proc → Bool
  | .configure _ | .create _ | .savePodId _ | .canceled _ | .terminateInWait _ | .get _
  | .terminateLate _ | .readOutputs _ | .caught _ _ | .finish _ _ | .save _ _ => true
  | _ => false

/-- The process is over. -/
def Proc.ended : Proc → Bool
  | .returned | .died => true
  | _ => false

/-! ## Steps -/

/-- Up to and with `_claim`. -/
def claimStep (b : Board) : Proc → Reply → Option (Board × Proc)
  | .train, .ok => some (b,
      match b.status, b.podId with
      | .canceled, some pod => .terminateCanceled pod
      | .canceled, none => .returned
      | _, _ => .claim)
  -- both error classes are caught and dropped
  | .terminateCanceled pod, .ok => some (b.terminate pod true, .returned)
  | .terminateCanceled pod, .failed effect _ => some (b.terminate pod effect, .returned)
  | .terminateCanceled _, .unconfigured _ => some (b, .returned)
  | .claim, .ok => some <|
      match b.status with
      | .canceled | .succeeded => (b, .returned)
      | _ => ({ b with status := .running, error := "" }, .configure b.podId)
  | _, _ => none

/-- From `ArtifactStore.from_settings` to the `save` of the Pod's id. -/
def createStep (b : Board) : Proc → Reply → Option (Board × Proc)
  | .configure podId, .ok => some (b, .create podId)
  -- `client` is still None, so the handler asks nobody
  | .configure _, .unconfigured message => some (b, .finish .failed message)
  | .create _, .ok => some (b.createPod, .savePodId b.pods.length)
  | .create podId, .failed effect message =>
      some (if effect then b.createPod else b, .caught podId message)
  | .savePodId pod, .ok => some ({ b with podId := some pod }, .canceled pod)
  | _, _ => none

/-- The message of `RunpodPodTimeoutError`, without the numbers. -/
def deadlineMessage : String := "RunPod Pod exceeded the deadline"

/-- `RunpodPodClient.wait`, and the outputs of a Pod that has exited. -/
def waitStep (b : Board) : Proc → Reply → Option (Board × Proc)
  | .canceled pod, .ok =>
      some (b, if b.status = .canceled then .terminateInWait pod else .get pod)
  | .terminateInWait pod, .ok => some (b.terminate pod true, .finish .canceled "")
  | .terminateInWait pod, .failed effect message =>
      some (b.terminate pod effect, .caught (some pod) message)
  | .get pod, .exited =>
      if b.pods[pod]?.any Pod.live then none else some (b, .readOutputs pod)
  | .get pod, .running => some (b, .canceled pod)
  | .get pod, .deadline => some (b, .terminateLate pod)
  | .get pod, .failed _ message => some (b, .caught (some pod) message)
  | .terminateLate pod, .ok => some (b.terminate pod true, .caught (some pod) deadlineMessage)
  | .terminateLate pod, .failed effect _ =>
      some (b.terminate pod effect, .caught (some pod) deadlineMessage)
  | .readOutputs _, .ok => some (b, .finish .succeeded "")
  | .readOutputs pod, .failed _ message => some (b, .caught (some pod) message)
  | _, _ => none

/-- The handler and `_finish`. -/
def finishStep (b : Board) : Proc → Reply → Option (Board × Proc)
  | .caught none message, .ok => some (b, .finish .failed message)
  | .caught (some pod) message, .ok => some (b.terminate pod true, .finish .failed message)
  | .caught (some pod) message, .failed effect _ =>
      some (b.terminate pod effect, .finish .failed message)
  | .finish status error, .ok =>
      some (b, .save (if b.status = .canceled then .canceled else status) error)
  | .save status error, .ok => some ({ b with status := status, error := error }, .returned)
  | _, _ => none

/-- `cancel_run`. -/
def cancelStep (b : Board) : Proc → Reply → Option (Board × Proc)
  | .cancelRun, .ok =>
      some (if b.status.terminal then (b, .returned) else ({ b with status := .canceled }, .delay))
  | .delay, .ok => some (b, .returned)
  | _, _ => none

/-- One step of one process. -/
def procStep (b : Board) (p : Proc) (r : Reply) : Option (Board × Proc) :=
  match r with
  | .crash => if p.ended then none else some (b, .died)
  | _ => match p with
    | .train | .terminateCanceled _ | .claim => claimStep b p r
    | .configure _ | .create _ | .savePodId _ => createStep b p r
    | .canceled _ | .terminateInWait _ | .get _ | .terminateLate _ | .readOutputs _ =>
        waitStep b p r
    | .caught _ _ | .finish _ _ | .save _ _ => finishStep b p r
    | .cancelRun | .delay => cancelStep b p r
    | .returned | .died => none

/-- The training run: all deliveries, all cancel requests, and Pods that exit by themselves. -/
def training : Program Board Proc Reply Nat where
  start := Proc.starts
  act := procStep
  env b pod := some (b.podExits pod)

/-- A run that was just submitted. -/
def submitted : Config Board Proc := ⟨{}, []⟩

end ControlPlane.Rl
