import RalphWorkflow.Pipeline.Reducer.Advance
import RalphWorkflow.Recovery.Controller

/-! Agent failures and phase failures, with a recovery controller or with the forward-only retry logic of the reducer itself. The one call in the
source that forgets to pass the policy on is modelled as the `RuntimeError` it raises. -/
namespace RalphWorkflow.Pipeline.Reducer
open Lib Lib.Text Policy Recovery

/-! ## Agent failures -/

/-- What reducing an event leaves behind: the controller, and what was returned or raised. -/
structure Reduced where
  recovery : Option RecoveryController
  result : Handled

def retryOrFallOver (state : PipelineState) (chain : AgentChainState) : Option PipelineState :=
  if chain.retries < 3 then
    some { state.withPhaseChain state.phase chain.withRetryIncrement with
           metrics := state.metrics.withRetryIncrement }
  else if chain.currentIndex + 1 < chain.agents.length then
    some { state.withPhaseChain state.phase chain.withAdvance with
           metrics := state.metrics.withFallbackIncrement
           lastAgentSessionId := none
           agentRetryIntent := clearedAgentRetryIntent }
  else none

def retryOrFallOverTo (state : PipelineState) (chain : AgentChainState) (index : Nat) : PipelineState :=
  if index = chain.currentIndex then
    { state.withPhaseChain state.phase chain.withRetryIncrement with
      metrics := state.metrics.withRetryIncrement
      isWaitingState := false }
  else
    { state.withPhaseChain state.phase { agents := chain.agents, currentIndex := index, retries := 0 } with
      metrics := state.metrics.withFallbackIncrement
      lastAgentSessionId := none
      agentRetryIntent := clearedAgentRetryIntent
      isWaitingState := false }

def allAgentsUnavailableWaitState (state : PipelineState) (chain : AgentChainState) (rc : RecoveryController) :
    Option PipelineState × RecoveryController :=
  let (available, rc) := rc.agentsNowAvailable state.phase chain.agents
  if available.isEmpty then
    let (waitMs, rc) := rc.earliestAvailableWaitMs state.phase chain.agents
    (some { state with
      lastError := some "all agents unavailable; waiting for cooldown expiry"
      lastRetryDelayMs := waitMs
      isWaitingState := true }, rc)
  else (none, rc)

def selectionAttempt (state : PipelineState) (chain : AgentChainState) (selection : Option Nat)
    (rc : RecoveryController) : Option PipelineState × RecoveryController :=
  match selection with
  | some index => (some (retryOrFallOverTo state chain index), rc)
  | none => allAgentsUnavailableWaitState state chain rc

def controlledAttempt (state : PipelineState) (chain : AgentChainState) (spent : Bool) (rc : RecoveryController) :
    Option PipelineState × RecoveryController :=
  let rc := match chain.currentAgent with
    | some agent => if spent then rc.noteRetryExhaustion state.phase agent else rc
    | none => rc
  let (selection, rc) := rc.preferredAgentIndex state.phase chain.agents (some chain.currentIndex) spent
  selectionAttempt state chain selection rc

def handleSkipSameAgentRetries (state : PipelineState) (chain : AgentChainState) (policy : PipelinePolicy)
    (recovery : Option RecoveryController) : Reduced :=
  let forward : Handled :=
    if chain.currentIndex + 1 < chain.agents.length then
      .ok ({ state.withPhaseChain state.phase chain.withAdvance with
             metrics := state.metrics.withFallbackIncrement
             lastAgentSessionId := none
             agentRetryIntent := clearedAgentRetryIntent }, [])
    else
      enterFailedRecovery state
        (failureReason state
          (s!"Agent chain exhausted in phase='{state.phase}' after " ++
            "context-exhausted agent requested fallback")) policy
  match recovery with
  | none => { recovery := none, result := forward }
  | some rc =>
    -- the source indexes the chain here without a bounds check
    match chain.currentAgent with
    | none => { recovery := some rc, result := .error .indexError }
    | some _ =>
      match controlledAttempt state chain true rc with
      | (some attempted, rc) => { recovery := some rc, result := .ok (attempted, []) }
      | (none, rc) => { recovery := some rc, result := forward }

/-- The chain is exhausted: the phase's workflow fallback, else the failure route. -/
def agentChainExhausted (state : PipelineState) (chain : AgentChainState) (policy : PipelinePolicy)
    (routingTiming : Option RoutingTiming) : Handled :=
  match (policy.phases.get? state.phase).bind PhaseDefinition.workflowFallback with
  | some fallback => takeWorkflowFallback state fallback state.lastError policy routingTiming
  | none =>
    enterFailedRecovery state
      (failureReason state
        (s!"Agent chain exhausted in phase='{state.phase}' after " ++
          s!"{chain.retries} retries across {chain.agents.length} agents")) policy

def handleAgentFailure (state : PipelineState) (policy : PipelinePolicy) (routingTiming : Option RoutingTiming)
    (recovery : Option RecoveryController) : Reduced :=
  match state.chainForPhase state.phase with
  | none =>
    { recovery := recovery,
      result := enterFailedRecovery state
        (failureReason state s!"No tracked agent chain for {state.phase}") policy }
  | some chain =>
    match redirectExpiredCycleInPlace state policy routingTiming with
    | some expired => { recovery := recovery, result := expired }
    | none =>
      if state.agentRetryIntent.skipSameAgentRetries then
        handleSkipSameAgentRetries state chain policy recovery
      else match recovery with
        | none =>
          match retryOrFallOver state chain with
          | some attempted => { recovery := none, result := .ok (attempted, []) }
          | none => { recovery := none, result := agentChainExhausted state chain policy routingTiming }
        | some rc =>
          match controlledAttempt state chain (decide (3 ≤ chain.retries)) rc with
          | (some attempted, rc) => { recovery := some rc, result := .ok (attempted, []) }
          | (none, rc) =>
            { recovery := some rc, result := agentChainExhausted state chain policy routingTiming }

def handleAgentRetry (state : PipelineState) (policy : PipelinePolicy) (routingTiming : Option RoutingTiming) : Handled :=
  match redirectExpiredCycleInPlace state policy routingTiming with
  | some expired => expired
  | none =>
    match state.chainForPhase state.phase with
    -- the source calls `_enter_failed_recovery` without the policy here
    | none => .error (.runtimeError
        ("Routing requires loaded policy; no fallback to legacy phase constants. " ++
          "Ensure pipeline_policy is passed to reduce()."))
    | some chain =>
      .ok ({ state.withPhaseChain state.phase chain.withRetryIncrement with
             metrics := state.metrics.withContinuationIncrement }, [])

/-! ## Phase failures -/

def reasonOrNote (event : PhaseFailureEvent) : String :=
  if event.reason = "" then s!"(no reason reported for phase={event.phase})" else event.reason

def failureCategoryPrefix : FailureCategory → String
  | .environmental => "Environmental fault"
  | .agent => "Agent fault"
  | .userConfig => "Configuration fault"
  | .artifactValidation => "Artifact validation fault"
  | .ambiguous => "Ambiguous fault (flagged for review)"

def classifiedFailureForEvent (event : PhaseFailureEvent) : Option ClassifiedFailure :=
  event.failureCategory.map fun category =>
    { category := category
      reason := s!"{failureCategoryPrefix category}: {reasonOrNote event}"
      countsAgainstBudget := false }

def phaseFailureIntent (state : PipelineState) (event : PhaseFailureEvent) (failureMessage : String) : AgentRetryIntent :=
  if event.skipSameAgentRetries then { failureReason := failureMessage, skipSameAgentRetries := true }
  else match state.lastAgentSessionId with
    | some sessionId =>
      if h : event.retryInSession = true ∧ sessionId ≠ "" then
        resumeAgentRetryIntent sessionId h.2 failureMessage
      else clearedAgentRetryIntent
    | none => clearedAgentRetryIntent

def handlePhaseFailure (state : PipelineState) (event : PhaseFailureEvent) (policy : PipelinePolicy)
    (routingTiming : Option RoutingTiming) : Handled :=
  let failureMessage :=
    if isBlank event.reason then s!"(no reason reported for phase={event.phase})"
    else s!"{event.phase}: {event.reason}"
  if event.recoverable then
    (handleAgentFailure
      { state with
        lastError := some failureMessage
        agentRetryIntent := phaseFailureIntent state event failureMessage } policy routingTiming none).result
  else match (policy.phases.get? event.phase).bind PhaseDefinition.workflowFallback with
    | some fallback => takeWorkflowFallback state fallback (some failureMessage) policy routingTiming
    | none => enterFailedRecovery state failureMessage policy

/-- A controller that routed out of the phase charges the execution cycle it ended. -/
def chargeIfLeft (state newState : PipelineState) (policy : PipelinePolicy) : Except PyError PipelineState :=
  if newState.phase = state.phase then .ok newState else applyExecutionCycleOutcome state newState policy

def recoverThroughController (state : PipelineState) (rawFailure : RawFailure) (context : FailureContext)
    (policy : PipelinePolicy) (rc : RecoveryController) : Reduced :=
  let outcome := rc.handle state rawFailure context
  { recovery := some outcome.controller,
    result := do
      let (newState, effects) ← outcome.result
      let charged ← chargeIfLeft state newState policy
      .ok (state.restoreWorkUnits charged, effects) }

def reducePhaseFailure (state : PipelineState) (event : PhaseFailureEvent) (policy : PipelinePolicy)
    (recovery : Option RecoveryController) (routingTiming : Option RoutingTiming) : Reduced :=
  match recovery with
  | none => { recovery := none, result := handlePhaseFailure state event policy routingTiming }
  | some rc =>
    match redirectExpiredCycleInPlace state policy routingTiming with
    | some expired => { recovery := some rc, result := expired }
    | none =>
      recoverThroughController state (.message (reasonOrNote event))
        { phase := event.phase
          agent := state.currentAgent
          retryInSession := event.retryInSession
          classifiedFailure := classifiedFailureForEvent event } policy rc

def brokenAgentContext : BrokenAgentReason → String
  | .noOutput => "no meaningful LLM output"
  | .promptEcho => "only prompt-echo output"
  | .noLlmActivity => "no meaningful LLM activity"

def agentInvocationText (agentName : String) (returncode : Int) (stderr : String) : String :=
  let suffix := if isBlank stderr then "" else s!": {strip stderr}"
  s!"Agent '{agentName}' failed with code {returncode}{suffix}"

def capturedFailure (intent : AgentRetryIntent) (agentName : String) : Option RaisedException :=
  if intent.failureReason = "BrokenAgentExitError" then
    intent.brokenAgentReason.map fun reason =>
      let stderr :=
        if intent.brokenAgentStderr = "" then
          s!"agent appears broken: {brokenAgentContext reason}; check credentials or provider availability"
        else intent.brokenAgentStderr
      { typeName := "BrokenAgentExitError"
        text := agentInvocationText agentName (intent.brokenAgentReturncode.getD 0) stderr
        reason := some reason.name }
  else if intent.failureReason = "PiContextExhaustedExitError" then
    some { typeName := "PiContextExhaustedExitError"
           text := agentInvocationText agentName 0
             "pi agent context length exhausted (stopReason=length; advance to the next agent)" }
  else none

/-- Delegate a typed broken-agent failure to the controller; `none` when there is no such failure. -/
def reduceCapturedAgentFailure (state : PipelineState) (policy : PipelinePolicy) (rc : RecoveryController)
    (routingTiming : Option RoutingTiming) : Option Reduced :=
  match state.agentRetryIntent.failedAgentName with
  | none => none
  | some agentName =>
    match redirectExpiredCycleInPlace state policy routingTiming with
    | some expired => some { recovery := some rc, result := expired }
    | none =>
      (capturedFailure state.agentRetryIntent agentName).map fun exc =>
        recoverThroughController state (.exception exc)
          { phase := state.phase, agent := state.currentAgent } policy rc

end RalphWorkflow.Pipeline.Reducer
