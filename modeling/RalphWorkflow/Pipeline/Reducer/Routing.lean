import RalphWorkflow.Pipeline.Reducer.Advance

/-! The handlers that route a phase's own result: analysis exits and decisions, execution results, reviews, fixes,
commit outcomes and the invocation gate behind a commit. -/
namespace RalphWorkflow.Pipeline.Reducer
open Lib Lib.Text Policy Recovery

/-! ## Results and reviews -/

def handleAnalysisSuccess (state : PipelineState) (policy : PipelinePolicy) (routingTiming : Option RoutingTiming) : Handled :=
  let stamped := stampForwardOutcome state state.phase policy
  catchValueError
    (do
      let nextPhase ← resolveNextPhase state.phase .success policy
      let (newState, effects) ← advancePhase stamped nextPhase policy routingTiming
      let progressState := applyAnalysisSuccess stamped newState policy
      let completedRoute := (policy.phases.get? state.phase).bind fun phaseDef => phaseDef.decisions.get? "completed"
      .ok (applyBudgetCounterIncrement state progressState
        (completedRoute.bind PhaseDecisionRoute.incrementsCounter), effects))
    fun text => advanceToFailed state s!"Routing error after analysis success in '{state.phase}': {text}" policy

def handleAgentSuccess (state : PipelineState) (policy : PipelinePolicy) (routingTiming : Option RoutingTiming) : Handled :=
  let state := if 0 < state.lastRetryDelayMs then { state with lastRetryDelayMs := 0 } else state
  match policy.phases.get? state.phase with
  | none => advanceToFailed state s!"Unknown phase: {state.phase}" policy
  | some phaseDef =>
    if phaseDef.role = some .commit ∧ state.commit.agentInvoked = false then
      .ok ({ state with commit := { state.commit with agentInvoked := true } }, [])
    else if phaseDef.role = some .analysis then handleAnalysisSuccess state policy routingTiming
    else resolveOrTerminal state .success policy "agent success" routingTiming

def handleExecutionResult (state : PipelineState) (phase status : String) (policy : PipelinePolicy)
    (routingTiming : Option RoutingTiming) : Handled :=
  if phase ≠ state.phase then
    advanceToFailed state
      s!"Execution result phase '{phase}' does not match active phase '{state.phase}'" policy
  else match policy.phases.get? phase with
    | none => advanceToFailed state s!"Execution result references non-execution phase '{phase}'" policy
    | some phaseDef =>
      if phaseDef.role = some .execution then
        resolveOrTerminal
          { state with
            postCommitPhaseOverride := phaseDef.resultStatusPostCommit.get? status
            lastExecutionResultStatus := some status } .success policy "execution result" routingTiming
      else advanceToFailed state s!"Execution result references non-execution phase '{phase}'" policy

def handleCappedPhaseLoopback (state : PipelineState) (policy : PipelinePolicy) (loopPolicy : PhaseLoopPolicy)
    (reviewOutcome : Option String) (routingTiming : Option RoutingTiming) : Handled := do
  let iterationField := loopPolicy.iterationStateField
  let maxIterations ← resolveAnalysisCap iterationField policy
  let progressState := applyAnalysisLoopback state state iterationField maxIterations reviewOutcome
    (!analysisLoopbackIsAlreadyCharged state.phase state policy)
  match resolveNextPhase state.phase .loopback policy with
  | .error (.valueError text) =>
    advanceToFailed progressState s!"Routing error for phase loopback in '{state.phase}': {text}" policy
  | .error e => .error e
  | .ok loopbackTarget => advancePhase progressState loopbackTarget policy routingTiming

def handleAnalysisLoopback (state : PipelineState) (policy : PipelinePolicy) (routingTiming : Option RoutingTiming) : Handled :=
  match policy.phases.get? state.phase with
  | none => advanceToFailed state s!"Unknown phase for analysis loopback: {state.phase}" policy
  | some phaseDef =>
    match phaseDef.loopPolicy with
    | some loopPolicy =>
      if phaseDef.role = some .analysis then
        handleCappedPhaseLoopback state policy loopPolicy loopPolicy.loopbackReviewOutcome routingTiming
      else resolveOrTerminal state .loopback policy "analysis loopback" routingTiming
    | none => resolveOrTerminal state .loopback policy "analysis loopback" routingTiming

def handlePhaseLoopback (state : PipelineState) (policy : PipelinePolicy) (routingTiming : Option RoutingTiming) : Handled :=
  match policy.phases.get? state.phase with
  | none => advanceToFailed state s!"Unknown phase for loopback: {state.phase}" policy
  | some phaseDef =>
    match phaseDef.loopPolicy with
    | some loopPolicy => handleCappedPhaseLoopback state policy loopPolicy none routingTiming
    | none => resolveOrTerminal state .loopback policy "phase loopback" routingTiming

/-- Loop accounting of a decision: a forward exit resets the counter, a loopback charges it. -/
def countDecision (state : PipelineState) (phase : String) (phaseDef : PhaseDefinition) (route : PhaseDecisionRoute)
    (policy : PipelinePolicy) : Except PyError PipelineState :=
  match phaseDef.loopPolicy with
  | none => .ok state
  | some loopPolicy =>
    if route.resetLoop then .ok (state.withLoopIteration loopPolicy.iterationStateField 0)
    else do
      let maxIterations ← resolveAnalysisCap loopPolicy.iterationStateField policy
      .ok (applyAnalysisLoopback state state loopPolicy.iterationStateField maxIterations
        loopPolicy.loopbackReviewOutcome (!analysisLoopbackIsAlreadyCharged phase state policy))

def recordDecision (state counted : PipelineState) (route : PhaseDecisionRoute) : PipelineState :=
  let charged := applyBudgetCounterIncrement state counted route.incrementsCounter
  match route.cycleOutcome with
  | some outcome => { charged with pendingCycleOutcome := some outcome }
  | none => charged

/-- Route through `decisions[decision].target` of the phase that the event names. -/
def handleAnalysisDecision (state : PipelineState) (phase decision : String) (policy : PipelinePolicy)
    (routingTiming : Option RoutingTiming) : Handled :=
  match policy.phases.get? phase with
  | none => advanceToFailed state s!"Unknown phase for analysis decision: {phase}" policy
  | some phaseDef =>
    match phaseDef.decisions.get? decision with
    | none =>
      advanceToFailed state
        (s!"Phase '{phase}' has no policy route for decision '{decision}'. " ++
          s!"Add it to phases.{phase}.decisions or update the artifact decision_vocabulary.") policy
    | some route => do
      let counted ← countDecision state phase phaseDef route policy
      let progressState := recordDecision state counted route
      if route.target = policy.recovery.failedRoute ∨ policy.hasPhase route.target = false then
        enterFailedRecovery progressState
          (failureReason state
            (s!"Analysis decision '{decision}' in phase '{phase}' " ++
              s!"routes to terminal failure target '{route.target}'")) policy
      else do
        let (newState, effects) ← advancePhase progressState route.target policy routingTiming
        .ok (state.restoreWorkUnits newState, effects)

def clearReview (handled : Handled) (outcome : Option String) : Handled := do
  let (newState, effects) ← handled
  .ok ({ newState with reviewOutcome := outcome }, effects)

def handleReviewClean (state : PipelineState) (policy : PipelinePolicy) (routingTiming : Option RoutingTiming) : Handled :=
  let bypass := (policy.phases.get? state.phase).bind fun phaseDef =>
    phaseDef.cleanOutcome.bind fun outcome => phaseDef.bypassRoutes.get? outcome
  match bypass with
  | some nextPhase => clearReview (advancePhase state nextPhase policy routingTiming) none
  | none => clearReview (resolveOrTerminal state .success policy "review clean" routingTiming) none

def handleReviewIssuesFound (state : PipelineState) (policy : PipelinePolicy) (routingTiming : Option RoutingTiming) : Handled :=
  match policy.phases.get? state.phase with
  | none => advanceToFailed state s!"Unknown phase for review issues found: {state.phase}" policy
  | some phaseDef =>
    match phaseDef.issuesOutcome with
    | none =>
      advanceToFailed state
        (s!"Phase '{state.phase}' has role='review' but issues_outcome is not declared. " ++
          "Add issues_outcome to the phase in pipeline.toml. See docs/sphinx/concepts.md.") policy
    | some outcome =>
      clearReview (resolveOrTerminal state .loopback policy "review issues found" routingTiming) (some outcome)

def handleFixSuccess (state : PipelineState) (policy : PipelinePolicy) (routingTiming : Option RoutingTiming) : Handled :=
  resolveOrTerminal state .success policy "fix success" routingTiming

def handleFixFailure (state : PipelineState) (policy : PipelinePolicy) (routingTiming : Option RoutingTiming) : Handled :=
  catchValueError
    (do
      let nextPhase ← resolveNextPhase state.phase .failure policy
      if nextPhase = policy.recovery.failedRoute ∨ policy.hasPhase nextPhase = false then
        enterFailedRecovery state (failureReason state "Fix phase failed") policy
      else advancePhase state nextPhase policy routingTiming)
    fun text => advanceToFailed state s!"Routing error after fix failure in '{state.phase}': {text}" policy

/-! ## Commits and the invocation gate -/

/-- A gate admits a status that is always invoked, or once the upstream phase has run long enough. -/
def gateAdmits (state : PipelineState) (gate : PhaseInvocationGate) : Bool :=
  (match state.lastExecutionResultStatus with
    | some status => gate.alwaysInvokeStatuses.contains status
    | none => false) ||
    decide (gate.minimumElapsedSeconds ≤ cumulativeExecutionSeconds state gate.upstreamExecutionPhase)

def applyInvocationGate (state : PipelineState) (nextPhase : String) (policy : PipelinePolicy) : String × PipelineState × Option String :=
  match policy.phases.get? nextPhase with
  | none => (nextPhase, state, none)
  | some phaseDef =>
    match phaseDef.invocationGate with
    | none => (nextPhase, state, none)
    | some gate =>
      if gateAdmits state gate then (nextPhase, state, some gate.upstreamExecutionPhase)
      else (phaseDef.transitions.onSuccess, stampForwardOutcome state nextPhase policy, none)

/-- Route a post-commit target through its gate, then advance; a pass is charged once it has landed. -/
def advanceThroughInvocationGate (state : PipelineState) (nextPhase : String) (policy : PipelinePolicy)
    (routingTiming : Option RoutingTiming) : Handled := do
  let (gatedPhase, gatedState, admitted) := applyInvocationGate state nextPhase policy
  let (newState, effects) ←
    advancePhase { gatedState with lastExecutionResultStatus := none } gatedPhase policy routingTiming
  match admitted with
  | some executionPhase =>
    if newState.phase = gatedPhase then do
      let charged ← chargeAnalysisCycleForGate newState executionPhase policy
      .ok (charged, effects)
    else .ok (newState, effects)
  | none => .ok (newState, effects)

/-- The state a commit leaves for routing: without its override, and at a cycle's end without its verdict. -/
def closeCommit (state progressState : PipelineState) (policy : PipelinePolicy) : PipelineState :=
  let consumed := consumePostCommitPhaseOverride progressState
  if commitClosesACycle state.phase policy then { consumed with pendingCycleOutcome := none } else consumed

def handleCommitOutcome (skipped : Bool) (label : String) (state : PipelineState) (policy : PipelinePolicy)
    (routingTiming : Option RoutingTiming) : Handled :=
  catchValueError
    (do
      let progressState := applyCommitOutcome state state skipped policy
      let nextPhase ← resolvePostCommitPhase progressState policy
      advanceThroughInvocationGate (closeCommit state progressState policy) nextPhase policy routingTiming)
    fun text => advanceToFailed state s!"Routing error after {label} in '{state.phase}': {text}" policy

def handleCommitSuccess : PipelineState → PipelinePolicy → Option RoutingTiming → Handled :=
  handleCommitOutcome false "commit success"

def handleCommitSkipped : PipelineState → PipelinePolicy → Option RoutingTiming → Handled :=
  handleCommitOutcome true "commit skipped"

def handleCommitResidual (state : PipelineState) (policy : PipelinePolicy) (routingTiming : Option RoutingTiming) : Handled :=
  advancePhase state state.phase policy routingTiming

def handleCommitFailure (state : PipelineState) (policy : PipelinePolicy) : Handled :=
  enterFailedRecovery state s!"{state.phase}: Commit failed" policy

end RalphWorkflow.Pipeline.Reducer
