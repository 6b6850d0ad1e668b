import RalphWorkflow.Pipeline.FanOut
import RalphWorkflow.Pipeline.WorkUnits

/-! `run_fan_out` of `ralph/pipeline/parallel/parallel_coordinator.py` with the wave scheduler. A `FanOutStep` is what the coordinator or a started
unit does between two points at which the event loop may switch; that the task group learns of a failed worker is a step of its own. -/
namespace RalphWorkflow.Pipeline.Parallel
open Lib Lib.Text Recovery
open Lib Policy Recovery Pipeline.Reducer

structure FanOut where
  workUnits : List WorkUnit
  maxWorkers : Nat

structure WorkerResult where
  unitId : String
  exitCode : Int
  deriving DecidableEq

structure WorkerFailure where
  unitId : String
  exitCode : Int
  error : String
  deriving DecidableEq

/-- What the tasks of a wave share, the exceptions, and whether the group was aborted. -/
structure Coordinator where
  pending : List String
  completed : List String := []
  running : List String := []
  queue : List WorkerResult := []
  events : List Event := [.pipeline .fanOutStarted]
  executing : List String := []
  failures : List WorkerFailure := []
  unexpected : List RaisedException := []
  aborted : Bool := false
  left : Bool := false
  deriving DecidableEq

/-! ## Waves -/

def scheduleNextWave (completed : List String) (allUnits : List WorkUnit) (currentlyRunning : List String) (maxWorkers : Nat) : List WorkUnit :=
  let availableSlots := maxWorkers - currentlyRunning.length
  let ready := allUnits.filter fun unit =>
    !completed.contains unit.unitId && !currentlyRunning.contains unit.unitId &&
      unit.dependencies.all fun dep => completed.contains dep
  (sortedById ready).take availableSlots

def addOnce (x : String) (xs : List String) : List String := if xs.contains x then xs else xs ++ [x]

def launch (c : Coordinator) (unit : WorkUnit) : Coordinator :=
  { c with
    pending := c.pending.filter (· != unit.unitId)
    running := addOnce unit.unitId c.running
    events := c.events ++ [.workerStarted unit.unitId]
    executing := c.executing ++ [unit.unitId] }

def resumeLoop (effect : FanOut) (c : Coordinator) : Coordinator :=
  if c.pending.isEmpty && c.running.isEmpty then { c with left := true }
  else
    let launched := (scheduleNextWave c.completed effect.workUnits c.running effect.maxWorkers).foldl launch c
    -- Nothing runs and units are pending: the loop breaks.
    if launched.running.isEmpty then { launched with left := true } else launched

def readResult (c : Coordinator) (result : WorkerResult) (rest : List WorkerResult) : Coordinator :=
  { c with
    queue := rest
    running := c.running.filter (· != result.unitId)
    completed := addOnce result.unitId c.completed
    events := c.events ++ [.workerCompleted result.unitId result.exitCode] }

def Coordinator.start (effect : FanOut) : Coordinator :=
  resumeLoop effect { pending := effect.workUnits.map WorkUnit.unitId }

/-! ## Steps of the event loop -/

inductive FanOutStep
  /-- A worker puts its result and ends. -/
  | succeed (unitId : String)
  /-- A worker ends with a `WorkerFailureError`. -/
  | fail (unitId : String) (exitCode : Int) (error : String)
  /-- A worker ends with any other exception, before or after it has put its result. -/
  | crash (unitId : String) (put : Bool) (exc : RaisedException)
  /-- A cancelled worker ends. -/
  | cancel (unitId : String)
  /-- The task group learns of a worker that failed. -/
  | abort
  /-- The coordinator reads a result. -/
  | read
  deriving DecidableEq

def Coordinator.ends (c : Coordinator) (unitId : String) : Coordinator :=
  { c with executing := c.executing.filter (· != unitId) }

def Coordinator.put (c : Coordinator) (unitId : String) : Coordinator :=
  { c with queue := c.queue ++ [{ unitId := unitId, exitCode := 0 }] }

def step (effect : FanOut) (c : Coordinator) : FanOutStep → Option Coordinator
  | .succeed unitId => if c.executing.contains unitId then some ((c.ends unitId).put unitId) else none
  | .fail unitId exitCode error =>
    if c.executing.contains unitId then
      some { c.ends unitId with failures := c.failures ++ [⟨unitId, exitCode, error⟩] }
    else none
  | .crash unitId put exc =>
    if c.executing.contains unitId then
      let ended := if put then (c.ends unitId).put unitId else c.ends unitId
      some { ended with unexpected := c.unexpected ++ [exc] }
    else none
  | .cancel unitId => if c.aborted && c.executing.contains unitId then some (c.ends unitId) else none
  | .abort =>
    if c.aborted || c.left || (c.failures.isEmpty && c.unexpected.isEmpty) then none
    else some { c with aborted := true }
  | .read =>
    if c.aborted || c.left then none
    else
      match c.queue with
      | [] => none
      | result :: rest => some (resumeLoop effect (readResult c result rest))

def steps (effect : FanOut) : Coordinator → List FanOutStep → Option Coordinator
  | c, [] => some c
  | c, s :: rest => (step effect c s).bind fun next => steps effect next rest

/-! ## The end of a wave -/

def blockedDependencyError (unit : WorkUnit) (failedUnitIds : List String) : Option String :=
  let blockedBy := sortedText (unit.dependencies.filter fun dep => failedUnitIds.contains dep)
  if blockedBy.isEmpty then none else some ("Blocked by failed dependencies: " ++ String.intercalate ", " blockedBy)

def blockedPass : List WorkUnit → List Event → List String → List WorkUnit × List Event × List String
  | [], events, failed => ([], events, failed)
  | unit :: rest, events, failed =>
    match blockedDependencyError unit failed with
    | none =>
      let (left, events', failed') := blockedPass rest events failed
      (unit :: left, events', failed')
    | some error => blockedPass rest (events ++ [.workerFailed unit.unitId 1 error]) (failed ++ [unit.unitId])

/-- Passes until one makes no progress; every other one leaves fewer units. -/
def blockedPasses : Nat → List WorkUnit → List Event → List String → List Event
  | 0, _, events, _ => events
  | fuel + 1, units, events, failed =>
    let (left, events', failed') := blockedPass units events failed
    if left.length = units.length then events' else blockedPasses fuel left events' failed'

def blockedPendingFailures (workUnits : List WorkUnit) (pendingUnitIds failedUnitIds : List String) : List Event :=
  let pendingUnits := workUnits.filter fun unit => pendingUnitIds.contains unit.unitId
  blockedPasses pendingUnits.length pendingUnits [] failedUnitIds

def failedIds (events : List Event) : List String :=
  events.filterMap fun
    | .workerFailed unitId _ _ => some unitId
    | _ => none

def appendUnseen : List Event → List Event → List Event
  | events, [] => events
  | events, event :: rest =>
    if (failedIds [event]).all fun unitId => (failedIds events).contains unitId then appendUnseen events rest
    else appendUnseen (events ++ [event]) rest

def failureEvent (failure : WorkerFailure) : Event := .workerFailed failure.unitId failure.exitCode failure.error

def cancelledEvent (unitId : String) : Event := .workerFailed unitId 1 "Cancelled because another worker failed"

def appendTerminalFailureEvents (events : List Event) (workUnits : List WorkUnit) (pending running : List String)
    (failures : List WorkerFailure) : List Event :=
  let failed := appendUnseen events (failures.map failureEvent)
  let stillRunning := running.filter fun unitId => !(failures.map WorkerFailure.unitId).contains unitId
  let cancelled := appendUnseen failed (stillRunning.map cancelledEvent)
  appendUnseen cancelled
    (blockedPendingFailures workUnits pending (failures.map WorkerFailure.unitId ++ failedIds cancelled))

/-- What `run_fan_out` returns or raises once every task has ended; the last failure comes first. -/
def outcome (effect : FanOut) (c : Coordinator) : Option (Except (List RaisedException) (List Event)) :=
  if !c.executing.isEmpty || !(c.aborted || c.left) then none
  else if c.failures.isEmpty && c.unexpected.isEmpty then
    some (.ok (c.events ++ [.pipeline .allWorkersComplete]))
  else if c.unexpected.isEmpty then
    some (.ok (appendTerminalFailureEvents c.events effect.workUnits c.pending c.running c.failures.reverse))
  else some (.error c.unexpected.reverse)

/-! ## The whole wave -/

inductive FanOutError
  | plan (message : String)
  | unexpected (exceptions : List RaisedException)
  deriving DecidableEq

/-- With the steps its tasks take, when they bring it to an end. -/
def runFanOut (effect : FanOut) (script : List FanOutStep) : Option (Except FanOutError (List Event)) :=
  if effect.workUnits.isEmpty then some (.ok [.pipeline .fanOutStarted, .pipeline .allWorkersComplete])
  else
    match preflight effect.workUnits with
    | .error (.invalidModel message) => some (.error (.plan message))
    | .error (.rejected message) =>
      some (.ok [.workerFailed "__preflight__" 2 s!"parallel preflight rejected plan: {message}"])
    | .ok _ =>
      match steps effect (Coordinator.start effect) script with
      | none => none
      | some c =>
        (outcome effect c).map fun
          | .ok events => .ok events
          | .error exceptions => .error (.unexpected exceptions)

/-! ## Resuming a fan-out

`_resume_fan_out_state` of `ralph/pipeline/fan_out.py`: the units of the plan that no worker is recorded to have finished
are handed to the coordinator as a plan of their own.
-/

def seededState (state : PipelineState) (workUnits : List WorkUnit) : PipelineState :=
  if state.workUnits.isEmpty then { state with workUnits := workUnits } else state

def resumeFanOutState (state : PipelineState) (policy : PipelinePolicy) (workUnits : List WorkUnit) :
    Except PyError (PipelineState × List WorkUnit) := do
  let resumed ← reduceForward state (.pipeline .workersResumed) policy
  .ok (resumed, workUnits.filter fun unit =>
    (resumed.workerStates.get? unit.unitId).map WorkerState.status != some .succeeded)

/-- The outcome of the coordinator as the phase sees it, without the lines of pydantic. -/
def waveScript : Except FanOutError (List Event) → FanOutScript
  | .ok events => { events := events }
  | .error (.plan message) => { waveError := some { typeName := "ValidationError", text := message } }
  | .error (.unexpected _) =>
    { waveError := some { typeName := "ExceptionGroup", text := "Unexpected fan-out coordinator failure" } }

/-- With the steps of its tasks, when they bring it to an end. -/
def runResumedWave (state : PipelineState) (policy : PipelinePolicy) (effect : FanOut) (verify : Bool)
    (script : List FanOutStep) : Option (PipelineState × Option RaisedException) :=
  match resumeFanOutState (seededState state effect.workUnits) policy effect.workUnits with
  | .error e => some (state, some (raisedException e))
  | .ok (_, resumeUnits) =>
    if resumeUnits.isEmpty then some (runWave state policy effect.workUnits verify {})
    else
      (runFanOut { effect with workUnits := resumeUnits } script).map fun result =>
        runWave state policy effect.workUnits verify (waveScript result)

end RalphWorkflow.Pipeline.Parallel
