import RalphWorkflow.Lib.Except
import RalphWorkflow.Lib.Text
import RalphWorkflow.Policy.Model
import RalphWorkflow.Recovery.Failure

/-! `PipelineState` is the checkpoint payload of `ralph/pipeline/state.py`; events and effects are those of `ralph/pipeline/events` and
`ralph/pipeline/effects`. A `copy_with` is a structure update here, but for `work_units` and `fallover_history`. -/
namespace RalphWorkflow.Pipeline
open Lib Lib.Text Policy Recovery

/-! ## Parts of the state -/

structure AgentChainState where
  agents : List String := []
  currentIndex : Nat := 0
  retries : Nat := 0
  deriving DecidableEq

namespace AgentChainState

def withRetryIncrement (chain : AgentChainState) : AgentChainState := { chain with retries := chain.retries + 1 }

def withAdvance (chain : AgentChainState) : AgentChainState :=
  { chain with currentIndex := chain.currentIndex + 1, retries := 0 }

def currentAgent (chain : AgentChainState) : Option String := chain.agents[chain.currentIndex]?

end AgentChainState

structure CommitState where
  messagePrepared : Bool := false
  diffPrepared : Bool := false
  agentInvoked : Bool := false
  deriving DecidableEq

structure RunMetrics where
  totalAgentCalls : Nat := 0
  totalContinuations : Nat := 0
  totalFallbacks : Nat := 0
  totalRetries : Nat := 0
  deriving DecidableEq

namespace RunMetrics

def withRetryIncrement (m : RunMetrics) : RunMetrics := { m with totalRetries := m.totalRetries + 1 }

def withFallbackIncrement (m : RunMetrics) : RunMetrics := { m with totalFallbacks := m.totalFallbacks + 1 }

def withContinuationIncrement (m : RunMetrics) : RunMetrics :=
  { m with totalContinuations := m.totalContinuations + 1 }

end RunMetrics

inductive AgentRetryAction
  | fresh | resume | newSessionWithId
  deriving DecidableEq

inductive BrokenAgentReason
  | noOutput | promptEcho | noLlmActivity
  deriving DecidableEq

def BrokenAgentReason.name : BrokenAgentReason → String
  | .noOutput => "no_output"
  | .promptEcho => "prompt_echo"
  | .noLlmActivity => "no_llm_activity"

/-- The session action of the next attempt; an action that reuses a session has its id. -/
theorem unpaired : ((none : Option AgentRetryAction) = none → (none : Option String) = none) ∧
    ((none : Option AgentRetryAction) = some .resume ∨ (none : Option AgentRetryAction) = some .newSessionWithId →
      ∃ s, (none : Option String) = some s ∧ s ≠ "") := by
  simp

structure AgentRetryIntent where
  action : Option AgentRetryAction := none
  sessionId : Option String := none
  failureReason : String := ""
  skipSameAgentRetries : Bool := false
  failedAgentName : Option String := none
  brokenAgentReason : Option BrokenAgentReason := none
  brokenAgentReturncode : Option Int := none
  brokenAgentStderr : String := ""
  paired : (action = none → sessionId = none) ∧
    (action = some .resume ∨ action = some .newSessionWithId → ∃ s, sessionId = some s ∧ s ≠ "") := by first | exact unpaired | simp

def clearedAgentRetryIntent : AgentRetryIntent := {}

/-- The id is known to be non-empty where it is called. -/
def resumeAgentRetryIntent (sessionId : String) (h : sessionId ≠ "") (failureReason : String) : AgentRetryIntent where
  action := some .resume
  sessionId := some sessionId
  failureReason := failureReason
  paired := by simp [h]

structure FalloverRecord where
  phase : String
  fromAgent : String
  toAgent : String
  deriving DecidableEq

structure WorkUnit where
  unitId : String
  allowedDirectories : List String := []
  dependencies : List String := []
  deriving DecidableEq

inductive WorkerStatus
  | pending | running | succeeded | failed | cancelled
  deriving DecidableEq

structure WorkerState where
  unitId : String
  status : WorkerStatus := .pending
  exitCode : Option Int := none
  errorMessage : Option String := none
  deriving DecidableEq

structure PhaseTimingRecord where
  phase : String
  elapsed : ℚ
  deriving DecidableEq

/-! ## The state -/

structure PipelineState where
  phase : String
  previousPhase : Option String := none
  reviewOutcome : Option String := none
  phaseChains : Dict String AgentChainState := ∅
  loopIterations : Dict String Int := ∅
  budgetCaps : Dict String Int := ∅
  outerProgress : Dict String Int := ∅
  commit : CommitState := {}
  metrics : RunMetrics := {}
  checkpointSavedCount : Nat := 0
  recoveryEpoch : Nat := 0
  interruptedByUser : Bool := false
  lastError : Option String := none
  policyEntryPhase : String := "__unset__"
  currentDrain : Option String := none
  postCommitPhaseOverride : Option String := none
  pendingCycleOutcome : Option CycleOutcome := none
  executionCycleCharged : Bool := false
  lastExecutionResultStatus : Option String := none
  cycleTimingStartIndex : Nat := 0
  cycleTimeboxActive : Bool := false
  cycleTimeboxConsumedSeconds : ℚ := 0
  cycleTimeboxRedirectReason : Option String := none
  cycleTimeboxRedirects : Nat := 0
  workUnits : List WorkUnit := []
  workerStates : Dict String WorkerState := ∅
  phaseTimings : List PhaseTimingRecord := []
  recoveryCycleCount : Nat := 0
  falloverHistory : List FalloverRecord := []
  lastFailureCategory : Option String := none
  lastConnectivityState : String := "unknown"
  recoveryCycleCap : Int := 200
  lastRetryDelayMs : Int := 0
  lastAgentSessionId : Option String := none
  agentRetryIntent : AgentRetryIntent := {}
  lastUnavailabilityReason : Option String := none
  isWaitingState : Bool := false

namespace PipelineState

def chainForPhase (state : PipelineState) (phase : String) : Option AgentChainState := state.phaseChains.get? phase

def currentAgent (state : PipelineState) : Option String := (state.chainForPhase state.phase).bind (·.currentAgent)

def withPhaseChain (state : PipelineState) (phase : String) (chain : AgentChainState) : PipelineState :=
  { state with phaseChains := state.phaseChains.set phase chain }

def getLoopIteration (state : PipelineState) (field : String) : Int := state.loopIterations.getD field 0

def withLoopIteration (state : PipelineState) (field : String) (value : Int) : PipelineState :=
  { state with loopIterations := state.loopIterations.set field value }

def getOuterProgress (state : PipelineState) (counter : String) : Int := state.outerProgress.getD counter 0

def withOuterProgress (state : PipelineState) (counter : String) (value : Int) : PipelineState :=
  { state with outerProgress := state.outerProgress.set counter value }

def getBudgetRemaining (state : PipelineState) (counter : String) : Int :=
  max 0 (state.budgetCaps.getD counter 0 - state.outerProgress.getD counter 0)

/-- The history keeps its last `recovery_cycle_cap` records; a cap below one counts as 200. -/
def normalizeFalloverHistory (history : List FalloverRecord) (cap : Int) : List FalloverRecord :=
  let kept := (if 1 ≤ cap then cap else 200).toNat
  history.drop (history.length - kept)

def withFalloverRecord (state : PipelineState) (record : FalloverRecord) : PipelineState :=
  { state with falloverHistory := normalizeFalloverHistory (state.falloverHistory ++ [record]) state.recoveryCycleCap }

def withPhaseTiming (state : PipelineState) (record : PhaseTimingRecord) : PipelineState :=
  { state with phaseTimings := state.phaseTimings ++ [record] }

/-- A transition never drops the units of a wave. -/
def restoreWorkUnits (state newState : PipelineState) : PipelineState :=
  if state.workUnits ≠ [] ∧ newState.workUnits = [] then { newState with workUnits := state.workUnits } else newState

end PipelineState

/-! ## Events -/

inductive PipelineEvent
  | agentSuccess | agentFailure | agentRetry | analysisSuccess | analysisLoopback | phaseLoopback
  | reviewClean | reviewIssuesFound | fixSuccess | fixFailure
  | commitSuccess | commitResidual | commitSkipped | commitFailure
  | checkpointSaved | contextCleaned | interrupted | complete | failed | promptPrepared | phaseAdvance
  | fanOutStarted | workersResumed | allWorkersComplete
  deriving DecidableEq

structure PhaseFailureEvent where
  phase : String
  reason : String
  recoverable : Bool
  retryInSession : Bool := false
  failureCategory : Option FailureCategory := none
  skipSameAgentRetries : Bool := false
  deriving DecidableEq

inductive Event
  | pipeline (event : PipelineEvent)
  | phaseFailure (event : PhaseFailureEvent)
  | executionResult (phase status : String)
  | analysisDecision (phase decision : String)
  | workerStarted (unitId : String)
  | workerCompleted (unitId : String) (exitCode : Int)
  | workerFailed (unitId : String) (exitCode : Int) (error : String)
  | postFanoutVerification (success : Bool) (exitCode : Option Int) (error : Option String)
  deriving DecidableEq

/-! ## Effects -/

def forbiddenSentinels : List String := ["Unknown failure", "unknown failure", "None", "null"]

/-- What `ExitFailureEffect.__post_init__` demands of a reason. -/
def descriptiveReason (reason : String) : Bool :=
  !isBlank reason && forbiddenSentinels.all fun sentinel => !containsText sentinel reason

inductive Effect
  | invokeAgent (agentName phase : String) (drain : Option String)
  | preparePrompt (phase : String) (drain previousPhase : Option String) (skipMaterialization : Bool)
  | commit
  | earlySkipCommit
  | exhaustedAnalysisPhaseAdvance (phase : String)
  | fanOut (workUnits : List WorkUnit) (maxWorkers : Nat) (runPostFanoutVerification : Bool) (phase : String)
  | saveCheckpoint
  | exitSuccess
  | exitFailure (reason : String) (descriptive : descriptiveReason reason = true)

def exitFailureEffect (reason : String) : Except PyError Effect :=
  if h : descriptiveReason reason = true then .ok (.exitFailure reason h)
  else if isBlank reason then
    .error (.valueError ("ExitFailureEffect.reason must be descriptive and cannot be empty or whitespace; " ++
      s!"got: {pyRepr reason} (whitespace stripped: '')"))
  else
    let matched := (forbiddenSentinels.find? fun sentinel => containsText sentinel reason).getD ""
    .error (.valueError ("ExitFailureEffect.reason must be descriptive and cannot contain " ++
      s!"a forbidden sentinel; matched sentinel: {pyRepr matched} in reason: {pyRepr reason}"))

def Effect.dispatchesWork : Effect → Bool
  | .invokeAgent .. | .commit | .fanOut .. => true
  | _ => false

def Effect.isExitFailure : Effect → Bool
  | .exitFailure .. => true
  | _ => false

end RalphWorkflow.Pipeline
