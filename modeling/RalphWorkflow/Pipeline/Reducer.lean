import RalphWorkflow.Pipeline.Reducer.Failure
import RalphWorkflow.Pipeline.Reducer.Routing

/-! `reduce` of `ralph/pipeline/reducer.py`: the state and the effects that an event produces under a policy, with or
without a recovery controller and with or without the timing of the current cycle. -/
namespace RalphWorkflow.Pipeline.Reducer
open Lib Lib.Text Policy Recovery

/-! ## Pipeline-level events -/

def handleComplete (state : PipelineState) (policy : PipelinePolicy) : Handled :=
  .ok (Pipeline.advancePhase state policy.terminalPhase policy, [])

def handleFailed (state : PipelineState) (policy : PipelinePolicy) : Handled :=
  enterFailedRecovery state
    (failureReason state
      (s!"Pipeline terminated in phase='{state.phase}' with no explicit error; " ++
        "check upstream last_error propagation")) policy

def handlePhaseAdvance (state : PipelineState) (policy : PipelinePolicy) (routingTiming : Option RoutingTiming) : Handled :=
  resolveOrTerminal state .success policy "phase advance" routingTiming

/-! ## Workers -/

def handleFanOutStarted (state : PipelineState) : PipelineState :=
  if state.workUnits.isEmpty || !state.workerStates.entries.isEmpty then state
  else
    let fresh := Dict.ofList (state.workUnits.map fun unit => (unit.unitId, ({ unitId := unit.unitId } : WorkerState)))
    { state with workerStates := fresh }

def handleWorkersResumed (state : PipelineState) : PipelineState :=
  let resumed := Dict.ofList (state.workerStates.entries.map fun (unitId, worker) =>
    (unitId, if worker.status = .running then { worker with status := .pending } else worker))
  { state with workerStates := resumed }

def updateWorker (state : PipelineState) (unitId : String) (update : WorkerState → WorkerState) : PipelineState :=
  match state.workerStates.get? unitId with
  | none => state
  | some worker => { state with workerStates := state.workerStates.set unitId (update worker) }

def handleWorkerStarted (state : PipelineState) (unitId : String) : PipelineState :=
  updateWorker state unitId fun worker => { worker with status := .running }

def handleWorkerCompleted (state : PipelineState) (unitId : String) (exitCode : Int) : PipelineState :=
  updateWorker state unitId fun worker => { worker with status := .succeeded, exitCode := some exitCode }

def failedWorker (worker : WorkerState) (exitCode : Int) (error : String) : WorkerState :=
  { worker with status := .failed, exitCode := some exitCode, errorMessage := some error }

def handleWorkerFailed (state : PipelineState) (unitId : String) (exitCode : Int) (error : String) : PipelineState :=
  updateWorker state unitId fun worker => failedWorker worker exitCode error

/-- A worker failure: the deadline first, then the controller, then the worker's own record. -/
def dispatchWorkerFailed (state : PipelineState) (unitId : String) (exitCode : Int) (error : String)
    (policy : PipelinePolicy) (recovery : Option RecoveryController) (routingTiming : Option RoutingTiming) :
    Reduced :=
  match redirectExpiredCycleInPlace state policy routingTiming with
  | some expired => { recovery := recovery, result := expired }
  | none =>
    match recovery with
    | none =>
      { recovery := none,
        result := .ok (state.restoreWorkUnits (handleWorkerFailed state unitId exitCode error), []) }
    | some rc =>
      let reason := if error = "" then s!"Worker {unitId} failed: exit code {exitCode}" else error
      let outcome := rc.handle state (.message reason) { phase := state.phase, agent := state.currentAgent }
      { recovery := some outcome.controller,
        result := do
          let (newState, effects) ← outcome.result
          match state.workerStates.get? unitId with
          | none => .error (.keyError unitId)
          | some worker =>
            let workers := newState.workerStates.set unitId (failedWorker worker exitCode error)
            .ok (state.restoreWorkUnits { newState with workerStates := workers }, effects) }

def handleAllWorkersComplete (state : PipelineState) (policy : PipelinePolicy) (routingTiming : Option RoutingTiming) : Handled :=
  let workers := state.workerStates.entries
  let failedUnits := sortedText
    ((workers.filter fun (_, w) => w.status = .failed ∨ w.status = .cancelled).map Prod.fst)
  if workers.isEmpty then .ok (state, [])
  else if !failedUnits.isEmpty then
    enterFailedRecovery state
      ("Parallel fan-out had failed workers: " ++ String.intercalate ", " failedUnits) policy
  else if workers.any fun (_, w) => w.status ≠ .succeeded then .ok (state, [])
  else
    catchValueError
      (do
        let nextPhase ← resolveNextPhase state.phase .success policy
        advancePhase state nextPhase policy routingTiming)
      fun _ => advanceToFailed state
        s!"No 'success' transition defined in phase '{state.phase}' for all-workers-complete" policy

def reducePostFanoutVerification (state : PipelineState) (success : Bool) (exitCode : Option Int)
    (error : Option String) (policy : PipelinePolicy) : Handled :=
  if success then .ok (state, [])
  else do
    let text := match error with
      | some text => if text = "" then exitText else text
      | none => exitText
    let (recovered, _) ← enterFailedRecovery state text policy
    .ok (state.restoreWorkUnits recovered, [])
where
  exitText : String :=
    let code := match exitCode with
      | some code => toString code
      | none => "None"
    s!"workspace verification failed (exit code {code})"

/-! ## The reducer -/

/-- The handler table. `PROMPT_PREPARED` has no handler. -/
def handlePipelineEvent (state : PipelineState) (event : PipelineEvent) (policy : PipelinePolicy)
    (routingTiming : Option RoutingTiming) : Handled :=
  match event with
  | .agentSuccess => handleAgentSuccess state policy routingTiming
  | .agentFailure => (handleAgentFailure state policy routingTiming none).result
  | .agentRetry => handleAgentRetry state policy routingTiming
  | .analysisSuccess => handleAnalysisSuccess state policy routingTiming
  | .analysisLoopback => handleAnalysisLoopback state policy routingTiming
  | .phaseLoopback => handlePhaseLoopback state policy routingTiming
  | .reviewClean => handleReviewClean state policy routingTiming
  | .reviewIssuesFound => handleReviewIssuesFound state policy routingTiming
  | .fixSuccess => handleFixSuccess state policy routingTiming
  | .fixFailure => handleFixFailure state policy routingTiming
  | .commitSuccess => handleCommitSuccess state policy routingTiming
  | .commitResidual => handleCommitResidual state policy routingTiming
  | .commitSkipped => handleCommitSkipped state policy routingTiming
  | .commitFailure => handleCommitFailure state policy
  | .checkpointSaved => .ok ({ state with checkpointSavedCount := state.checkpointSavedCount + 1 }, [])
  | .interrupted => .ok ({ state with interruptedByUser := true }, [.saveCheckpoint])
  | .complete => handleComplete state policy
  | .failed => handleFailed state policy
  | .phaseAdvance => handlePhaseAdvance state policy routingTiming
  | .fanOutStarted => .ok (handleFanOutStarted state, [])
  | .workersResumed => .ok (handleWorkersResumed state, [])
  | .allWorkersComplete => handleAllWorkersComplete state policy routingTiming
  | .contextCleaned | .promptPrepared => .ok (state, [])

def restoring (state : PipelineState) (handled : Handled) : Handled := do
  let (newState, effects) ← handled
  .ok (state.restoreWorkUnits newState, effects)

def reduceAgentFailure (state : PipelineState) (policy : PipelinePolicy) (recovery : Option RecoveryController)
    (routingTiming : Option RoutingTiming) : Reduced :=
  let handled := match recovery with
    | none => handleAgentFailure state policy routingTiming none
    | some rc =>
      (reduceCapturedAgentFailure state policy rc routingTiming).getD
        (handleAgentFailure state policy routingTiming (some rc))
  { handled with result := restoring state handled.result }

def reduce (state : PipelineState) (event : Event) (policy : PipelinePolicy)
    (recovery : Option RecoveryController) (routingTiming : Option RoutingTiming) : Reduced :=
  match event with
  | .postFanoutVerification success exitCode error =>
    { recovery := recovery, result := reducePostFanoutVerification state success exitCode error policy }
  | .phaseFailure event => reducePhaseFailure state event policy recovery routingTiming
  | .analysisDecision phase decision =>
    { recovery := recovery, result := handleAnalysisDecision state phase decision policy routingTiming }
  | .executionResult phase status =>
    { recovery := recovery, result := handleExecutionResult state phase status policy routingTiming }
  | .workerStarted unitId =>
    { recovery := recovery, result := .ok (state.restoreWorkUnits (handleWorkerStarted state unitId), []) }
  | .workerCompleted unitId exitCode =>
    { recovery := recovery,
      result := .ok (state.restoreWorkUnits (handleWorkerCompleted state unitId exitCode), []) }
  | .workerFailed unitId exitCode error =>
    dispatchWorkerFailed state unitId exitCode error policy recovery routingTiming
  | .pipeline .agentFailure => reduceAgentFailure state policy recovery routingTiming
  | .pipeline event =>
    { recovery := recovery, result := restoring state (handlePipelineEvent state event policy routingTiming) }

end RalphWorkflow.Pipeline.Reducer
