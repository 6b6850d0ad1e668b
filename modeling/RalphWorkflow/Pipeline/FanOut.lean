import RalphWorkflow.Pipeline.Reducer

/-! `_run_fan_out_async` of `ralph/pipeline/fan_out.py`, with the integration callback of the runner. Every event is reduced without controller and
timing, and an exception inside the fan-out becomes a phase failure of the state reached so far. -/
namespace RalphWorkflow.Pipeline
open Lib Policy Recovery Pipeline.Reducer

def raisedException : PyError → RaisedException
  | .valueError text => { typeName := "ValueError", text := text }
  | .runtimeError text => { typeName := "RuntimeError", text := text }
  | .keyError key => { typeName := "KeyError", text := Text.pyRepr key }
  | .indexError => { typeName := "IndexError", text := "list index out of range" }

/-- Reduce without a controller and without timing, as every caller outside the normal step does. -/
def reduceForward (state : PipelineState) (event : Event) (policy : PipelinePolicy) : Except PyError PipelineState := do
  let (newState, _) ← (reduce state event policy none none).result
  .ok newState

def integrationConflictFailure (state : PipelineState) (reason : String) : Event :=
  let text := if reason = "" then "the conflict resolver did not produce a resolution" else reason
  .phaseFailure
    { phase := state.phase
      reason := s!"integration conflict requires resolution: {text}"
      recoverable := true }

/-- Exceptions around the wave, its events, and how verification and integration end. -/
structure FanOutScript where
  rejection : Option String := none
  setupError : Option RaisedException := none
  events : List Event := []
  waveError : Option RaisedException := none
  verifyError : Option String := none
  integrationConflict : Option String := none
  lateError : Option RaisedException := none

def withParallelExecutionCleared (state : PipelineState) : PipelineState :=
  { state with workUnits := [], workerStates := ∅ }

def allSucceeded (state : PipelineState) : Bool :=
  !state.workerStates.entries.isEmpty && state.workerStates.entries.all fun (_, worker) => worker.status = .succeeded

def clearedAfterSuccessfulWave (state : PipelineState) : PipelineState :=
  if allSucceeded state then withParallelExecutionCleared state else state

def reduceWave (policy : PipelinePolicy) : PipelineState → List Event → PipelineState × Option RaisedException
  | current, [] => (current, none)
  | current, event :: rest =>
    match reduceForward current event policy with
    | .ok next => reduceWave policy next rest
    | .error e => (current, some (raisedException e))

def runVerifyPhase (state : PipelineState) (policy : PipelinePolicy) (enabled anyWorkerFailed : Bool)
    (verifyError : Option String) : Except PyError (PipelineState × Bool) :=
  if enabled = false ∨ anyWorkerFailed = true then .ok (state, false)
  else do
    let event : Event := match verifyError with
      | some text => .postFanoutVerification false (some 1) (some text)
      | none => .postFanoutVerification true (some 0) none
    let verified ← reduceForward state event policy
    .ok (verified, verifyError.isNone)

def isWorkerFailed : Event → Bool
  | .workerFailed .. => true
  | _ => false

/-- Tracking state is dropped, the workspace verified and, if all went well, integrated. -/
def finishWave (wave : PipelineState) (policy : PipelinePolicy) (workUnits : List WorkUnit) (verify : Bool)
    (script : FanOutScript) : PipelineState × Option RaisedException :=
  let cleared := clearedAfterSuccessfulWave wave
  match runVerifyPhase cleared policy verify (script.events.any isWorkerFailed) script.verifyError with
  | .error e => (cleared, some (raisedException e))
  | .ok (verified, passed) =>
    match script.lateError with
    | some exc => (verified, some exc)
    | none =>
      let successful := allSucceeded wave && wave.workerStates.entries.length == workUnits.length &&
        (!verify || passed)
      match script.integrationConflict with
      | some reason =>
        if successful then
          match reduceForward verified (integrationConflictFailure verified reason) policy with
          | .ok failed => (failed, none)
          | .error e => (verified, some (raisedException e))
        else (verified, none)
      | none => (verified, none)

def runWave (state : PipelineState) (policy : PipelinePolicy) (workUnits : List WorkUnit) (verify : Bool)
    (script : FanOutScript) : PipelineState × Option RaisedException :=
  let seeded := if state.workUnits.isEmpty then { state with workUnits := workUnits } else state
  match reduceForward seeded (.pipeline .workersResumed) policy with
  | .error e => (state, some (raisedException e))
  | .ok resumed =>
    let resumeUnits := workUnits.filter fun unit =>
      (resumed.workerStates.get? unit.unitId).map WorkerState.status != some .succeeded
    if resumeUnits.isEmpty then
      match reduceForward resumed (.pipeline .allWorkersComplete) policy with
      | .ok current => (clearedAfterSuccessfulWave current, none)
      | .error e => (resumed, some (raisedException e))
    else
      match reduceWave policy resumed script.events with
      | (wave, some exc) => (wave, some exc)
      | (wave, none) =>
        match script.waveError with
        | some exc => (wave, some exc)
        | none => finishWave wave policy workUnits verify script

/-- The only exceptions that leave it are those of reducing its own failure. -/
def runFanOutPhase (state : PipelineState) (policy : PipelinePolicy) (workUnits : List WorkUnit) (verify : Bool)
    (script : FanOutScript) : Except PyError PipelineState :=
  match script.rejection with
  | some text =>
    reduceForward state
      (.phaseFailure
        { phase := state.phase
          reason := s!"Parallel plan rejected (same-workspace safety check failed): {text}"
          recoverable := true }) policy
  | none =>
    match script.setupError with
    | some exc => crashed state exc
    | none =>
      match runWave state policy workUnits verify script with
      | (current, some exc) => crashed current exc
      | (current, none) => .ok current
where
  crashed (current : PipelineState) (exc : RaisedException) : Except PyError PipelineState :=
    reduceForward current
      (.phaseFailure
        { phase := current.phase
          reason := s!"Fan-out execution crashed: {exc.typeName}: {exc.text}"
          recoverable := true }) policy

end RalphWorkflow.Pipeline
