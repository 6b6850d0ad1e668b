import RalphWorkflow.Pipeline.EffectRouter
import RalphWorkflow.Pipeline.FanOut

/-! `_run_pipeline_step` of `ralph/pipeline/runner.py`: an effect is chosen, handled inline, fanned out or executed, and the event it produced is
reduced. An exception anywhere in the step is routed through recovery. The world answers through a `StepScript`. -/
namespace RalphWorkflow.Pipeline
open Lib Policy Recovery Pipeline.Reducer

/-! ## Recovery of a step -/

def resetPhaseChainForRecovery (state : PipelineState) (targetPhase : String) : PipelineState :=
  match state.chainForPhase targetPhase with
  | none => state
  | some chain => state.withPhaseChain targetPhase { agents := chain.agents, currentIndex := 0, retries := 0 }

theorem resetPhaseChainForRecovery_active (s : PipelineState) (phase : String) :
    (resetPhaseChainForRecovery s phase).cycleTimeboxActive = s.cycleTimeboxActive := by
  unfold resetPhaseChainForRecovery
  split <;> rfl

/-- A phase found no plan: back to the entry phase, or to the failure phase at the cap. -/
def recoverMissingPlanHandoff (state : PipelineState) (policy : PipelinePolicy) (text : String) : PipelineState :=
  let boundExceeded := policy.recovery.cycleCap ≤ state.recoveryEpoch
  let targetPhase := if boundExceeded then policy.recovery.failedRoute else policy.entryPhase
  let advanced :=
    concludeCycleOnRouteOutOfCycle (advancePhase state targetPhase policy) targetPhase policy
  let reset := if boundExceeded then advanced else resetPhaseChainForRecovery advanced targetPhase
  { reset with lastError := some text, recoveryEpoch := state.recoveryEpoch + 1 }

theorem recoverMissingPlanHandoff_phase (s : PipelineState) (policy : PipelinePolicy) (text : String) :
    (recoverMissingPlanHandoff s policy text).phase =
      if policy.recovery.cycleCap ≤ s.recoveryEpoch then policy.recovery.failedRoute else policy.entryPhase := by
  have hconcluded : ∀ (t : PipelineState) (phase : String), (concludeCycleOnRouteOutOfCycle t phase policy).phase = t.phase := by
    intro t phase
    unfold concludeCycleOnRouteOutOfCycle
    split
    · rfl
    · split <;> rfl
  have hreset : ∀ (t : PipelineState) (phase : String), (resetPhaseChainForRecovery t phase).phase = t.phase := by
    intro t phase
    unfold resetPhaseChainForRecovery
    split <;> rfl
  unfold recoverMissingPlanHandoff
  dsimp only
  split
  · rw [hconcluded]
    rfl
  · rw [hreset, hconcluded]
    rfl

/-- Route a crashed step through recovery; the deadline is asked first. -/
def reduceRuntimeRecovery (state : PipelineState) (policy : PipelinePolicy) (exc : RaisedException)
    (recovery : Option RecoveryController) (routingTiming : Option RoutingTiming) : Reduced :=
  match redirectExpiredCycleInPlace state policy routingTiming with
  | some expired => { recovery := recovery, result := expired }
  | none =>
    match recovery with
    | some rc =>
      let outcome := rc.handle state (.exception exc) { phase := state.phase, agent := state.currentAgent }
      { recovery := some outcome.controller, result := restoring state outcome.result }
    | none =>
      reduce state
        (.phaseFailure
          { phase := state.phase
            reason := s!"Pipeline step crashed: {exc.typeName}: {exc.text}"
            recoverable := true }) policy none routingTiming

/-! ## Inline effects -/

/-- Building the prompt of a phase: it may find no plan, or raise anything else. -/
inductive Materialization
  | done
  | missingPlan (text : String)
  | raised (exc : RaisedException)
  deriving DecidableEq

/-- Where a prepare-prompt effect goes on. Only the hop out of the failure phase asks the deadline. -/
def preparedTarget (state : PipelineState) (effectPhase : String) (policy : PipelinePolicy)
    (routingTiming : Option RoutingTiming) : String × PipelineState :=
  if state.phase = policy.recovery.failedRoute then
    let timing := routingTiming.getD { totalElapsedSeconds := state.cycleTimeboxConsumedSeconds }
    let timeboxed := applyCycleTimebox state effectPhase policy (some timing)
    let target := timeboxed.targetPhase
    let reset := resetPhaseChainForRecovery timeboxed.state target
    (target, if phaseHasRole policy target .commit then { reset with commit := {} } else reset)
  else (effectPhase, state)

def preparePromptHop (state : PipelineState) (effectPhase : String) (drain : Option String)
    (policy : PipelinePolicy) (routingTiming : Option RoutingTiming) : PipelineState :=
  let (target, prepared) := preparedTarget state effectPhase policy routingTiming
  let requestedDrain := if target = effectPhase then drain else none
  let entered := { prepared with
    phase := target
    currentDrain := firstNonEmpty requestedDrain (resolvePhaseDrain target policy) }
  if target = prepared.phase then entered
  else { entered with lastAgentSessionId := none, agentRetryIntent := clearedAgentRetryIntent }

theorem preparePromptHop_seat (s : PipelineState) (phase : String) (drain : Option String) (policy : PipelinePolicy)
    (timing : Option RoutingTiming) :
    (preparePromptHop s phase drain policy timing).phase = (preparedTarget s phase policy timing).1 ∧
      (preparePromptHop s phase drain policy timing).cycleTimeboxActive =
        (preparedTarget s phase policy timing).2.cycleTimeboxActive := by
  unfold preparePromptHop
  dsimp only
  split <;> exact ⟨rfl, rfl⟩

def exitFailureHop (state : PipelineState) (reason : String) (policy : PipelinePolicy) : PipelineState :=
  { advancePhase state policy.recovery.failedRoute policy with
    lastError := some reason
    recoveryEpoch := state.recoveryEpoch + 1 }

inductive InlineResult
  | state (state : PipelineState)
  | exit (code : Nat)

def handleInlineEffect (effect : Effect) (state : PipelineState) (policy : PipelinePolicy)
    (routingTiming : Option RoutingTiming) (materialization : Materialization) :
    Except RaisedException (Option InlineResult) :=
  match effect with
  | .saveCheckpoint =>
    match reduceForward state (.pipeline .checkpointSaved) policy with
    | .ok saved => .ok (some (.state saved))
    | .error e => .error (raisedException e)
  | .preparePrompt phase drain _ skipMaterialization =>
    if skipMaterialization then .ok (some (.state (preparePromptHop state phase drain policy routingTiming)))
    else match materialization with
      | .done => .ok (some (.state (preparePromptHop state phase drain policy routingTiming)))
      | .missingPlan text => .ok (some (.state (recoverMissingPlanHandoff state policy text)))
      | .raised exc => .error exc
  | .exitSuccess => .ok (some (.exit 0))
  | .exitFailure reason _ => .ok (some (.state (exitFailureHop state reason policy)))
  | _ => .ok none

/-- An unresolved integration replaces the hop by a failure, and a successful exit by a failing one. -/
def integrateInlineEffect (state : PipelineState) (inlineResult : InlineResult) (policy : PipelinePolicy)
    (integrationConflict : Option String) : Except PyError InlineResult :=
  match integrationConflict, inlineResult with
  | none, result => .ok result
  | some _, .exit _ => .ok (.exit 1)
  | some reason, .state _ => do
    let failed ← reduceForward state (integrationConflictFailure state reason) policy
    .ok (.state failed)

/-! ## Cycle time -/

/-- The loop always samples, so timing is missing only when the policy has no timebox. -/
def sampleCycleTiming (state : PipelineState) (policy : PipelinePolicy) (lastSample : Option ℚ) (now : ℚ) : Option RoutingTiming × ℚ :=
  if policy.cycleTimebox.isSome then
    let delta := match lastSample with
      | some last => if state.cycleTimeboxActive then max 0 (now - last) else 0
      | none => 0
    (some { totalElapsedSeconds := state.cycleTimeboxConsumedSeconds + delta }, delta)
  else (none, 0)

def foldCycleElapsed (before after : PipelineState) (deltaSeconds : ℚ) (timingEnabled : Bool) : PipelineState :=
  if timingEnabled && before.cycleTimeboxActive && decide (0 < deltaSeconds) then
    { after with cycleTimeboxConsumedSeconds := after.cycleTimeboxConsumedSeconds + deltaSeconds }
  else after

/-! ## Executing an effect -/

structure SessionCapture where
  sessionId : Option String := none
  retryIntent : AgentRetryIntent := {}

def applySessionCapture (state : PipelineState) (capture : SessionCapture) : PipelineState :=
  let intent := capture.retryIntent
  if intent.action.isSome || intent.skipSameAgentRetries then
    let sessionId :=
      if intent.action = some .resume ∨ intent.action = some .newSessionWithId then intent.sessionId else none
    { state with lastAgentSessionId := sessionId, agentRetryIntent := intent }
  else match capture.sessionId with
    | some sessionId =>
      if sessionId = "" then cleared state
      else { state with lastAgentSessionId := some sessionId, agentRetryIntent := clearedAgentRetryIntent }
    | none => cleared state
where
  cleared (state : PipelineState) : PipelineState :=
    if state.agentRetryIntent.action.isSome then { state with agentRetryIntent := clearedAgentRetryIntent } else state

/-- One step of the world, with the places where it can raise; `graded` is the grade of a successful run. -/
structure StepScript where
  env : RouterEnv := {}
  now : ℚ := 0
  reduceNow : ℚ := 0
  elapsed : ℚ := 0
  dispatchError : Option RaisedException := none
  materialization : Materialization := .done
  executionError : Option RaisedException := none
  gradingError : Option RaisedException := none
  event : Event := .pipeline .agentSuccess
  graded : Event := .pipeline .agentSuccess
  capture : SessionCapture := {}
  fanOut : FanOutScript := {}
  integrationConflict : Option String := none
  integrationError : Option RaisedException := none
  recordError : Option RaisedException := none

def executedEvent (effect : Effect) (script : StepScript) : Event :=
  match effect with
  | .earlySkipCommit => .pipeline .commitSkipped
  | .exhaustedAnalysisPhaseAdvance _ => .pipeline .phaseAdvance
  | _ => script.event

def finalizeAgentInvocation (effect : Effect) (event : Event) (state : PipelineState) (recovery : Option RecoveryController) (script : StepScript) :
    PipelineState × Event × Option RecoveryController :=
  match effect with
  | .invokeAgent agentName phase _ =>
    let captured := applySessionCapture state script.capture
    if event = .pipeline .agentSuccess then
      (captured, script.graded, recovery.map fun rc => rc.resetBackoff phase (some agentName))
    else (captured, event, recovery)
  | _ => (state, event, recovery)

/-! ## The step -/

inductive StepResult
  | next (state : PipelineState)
  | exit (code : Nat)
  | raised (error : PyError)

structure RunnerState where
  state : PipelineState
  recovery : Option RecoveryController := none
  lastSample : Option ℚ := none

/-- With the effect dispatched and what recovery returned, which the program does not keep. -/
structure Stepped where
  result : StepResult
  recovery : Option RecoveryController
  lastSample : Option ℚ
  effect : Option Effect
  recovered : List Effect

structure StepFrame extends RunnerState where
  routingTiming : Option RoutingTiming
  timing : PhaseTimingRecord
  effect : Option Effect := none
  recovered : List Effect := []

namespace StepFrame

def finish (frame : StepFrame) (result : StepResult) : Stepped :=
  { result := result, recovery := frame.recovery, lastSample := frame.lastSample, effect := frame.effect,
    recovered := frame.recovered }

def next (frame : StepFrame) (state : PipelineState) : Stepped := frame.finish (.next (state.withPhaseTiming frame.timing))

/-- The `except BaseException` branch: an exit that recovery asks for ends the run here. -/
def crash (frame : StepFrame) (policy : PipelinePolicy) (exc : RaisedException) : Stepped :=
  let reduced := reduceRuntimeRecovery frame.state policy exc frame.recovery frame.routingTiming
  let frame := { frame with recovery := reduced.recovery }
  match reduced.result with
  | .error e => frame.finish (.raised e)
  | .ok (newState, effects) =>
    let frame := { frame with recovered := frame.recovered ++ effects }
    if effects.any Effect.isExitFailure then frame.finish (.exit 1) else frame.next newState

end StepFrame

/-- Reduce the event of an executed effect. The effects of the reduction are dropped here. -/
def reduceStep (frame : StepFrame) (event : Event) (policy : PipelinePolicy) (script : StepScript) : Stepped :=
  let (routingTiming, delta) := sampleCycleTiming frame.state policy frame.lastSample script.reduceNow
  let reduced := reduce frame.state event policy frame.recovery routingTiming
  let frame := { frame with recovery := reduced.recovery }
  match reduced.result with
  | .error e => frame.crash policy (raisedException e)
  | .ok (newState, effects) =>
    let folded := foldCycleElapsed frame.state newState delta policy.cycleTimebox.isSome
    let frame := { frame with
      lastSample := if policy.cycleTimebox.isSome then some script.reduceNow else frame.lastSample
      recovered := effects }
    match script.recordError with
    | some exc => frame.crash policy exc
    | none => frame.next folded

def executeStep (frame : StepFrame) (effect : Effect) (policy : PipelinePolicy) (script : StepScript) : Stepped :=
  match script.executionError with
  | some exc => frame.crash policy exc
  | none =>
    let (captured, event, recovery) :=
      finalizeAgentInvocation effect (executedEvent effect script) frame.state frame.recovery script
    let frame := { frame with recovery := recovery }
    match script.gradingError with
    | some exc => frame.crash policy exc
    | none =>
      let frame := { frame with state := captured }
      match script.integrationError with
      | some exc => frame.crash policy exc
      | none =>
        match script.integrationConflict with
        | some reason => reduceStep frame (integrationConflictFailure captured reason) policy script
        | none => reduceStep frame event policy script

def dispatchStep (frame : StepFrame) (effect : Effect) (policy : PipelinePolicy) (script : StepScript) : Stepped :=
  match handleInlineEffect effect frame.state policy frame.routingTiming script.materialization with
  | .error exc => frame.crash policy exc
  | .ok (some inlineResult) =>
    match script.executionError with
    | some exc => frame.crash policy exc
    | none =>
      match integrateInlineEffect frame.state inlineResult policy script.integrationConflict with
      | .error e => frame.crash policy (raisedException e)
      | .ok (.state newState) => frame.next newState
      | .ok (.exit code) => frame.finish (.exit code)
  | .ok none =>
    match effect with
    | .fanOut workUnits _ verify _ =>
      match runFanOutPhase frame.state policy workUnits verify script.fanOut with
      | .ok newState => frame.next newState
      | .error e => frame.crash policy (raisedException e)
    | .invokeAgent .. =>
      match script.materialization with
      | .done => executeStep frame effect policy script
      | .missingPlan text => frame.next (recoverMissingPlanHandoff frame.state policy text)
      | .raised exc => frame.crash policy exc
    | _ => executeStep frame effect policy script

def startFrame (bundle : PolicyBundle) (before : RunnerState) (script : StepScript) : StepFrame :=
  { before with
    routingTiming := (sampleCycleTiming before.state bundle.pipeline before.lastSample script.now).1
    timing := { phase := before.state.phase, elapsed := script.elapsed } }

def runPipelineStep (bundle : PolicyBundle) (before : RunnerState) (script : StepScript) : Stepped :=
  let frame := startFrame bundle before script
  match script.dispatchError with
  | some exc => frame.crash bundle.pipeline exc
  | none =>
    match determineEffectFromPolicy before.state bundle script.env with
    | .error e => frame.crash bundle.pipeline (raisedException e)
    | .ok effect => dispatchStep { frame with effect := some effect } effect bundle.pipeline script

end RalphWorkflow.Pipeline
