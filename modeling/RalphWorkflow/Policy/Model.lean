import Mathlib.Data.Rat.Defs
import Mathlib.Algebra.Order.Ring.Unbundled.Rat
import RalphWorkflow.Lib.Dict

/-! The compiled form of `pipeline.toml` (`ralph/policy/models`), the fields that routing, timing or recovery code reads. What pydantic enforces on
a single field is a field of the structure here; checks across fields are in `RalphWorkflow.Policy.Validators`. -/
namespace RalphWorkflow.Policy
open Lib

inductive PhaseRole
  | execution | analysis | review | commit | verification | terminal | fanoutJoin | commitCleanup
  deriving DecidableEq

inductive CycleOutcome
  | completed | failed
  deriving DecidableEq

inductive BudgetLabel
  | remaining | exhausted | noReview
  deriving DecidableEq

inductive TerminalOutcome
  | success | failure
  deriving DecidableEq

inductive DispatchMode
  | ralphFanOut | agentSubagents
  deriving DecidableEq

def CycleOutcome.name : CycleOutcome → String
  | .completed => "completed"
  | .failed => "failed"

def BudgetLabel.name : BudgetLabel → String
  | .remaining => "remaining"
  | .exhausted => "exhausted"
  | .noReview => "no_review"

def PhaseRole.name : PhaseRole → String
  | .execution => "execution"
  | .analysis => "analysis"
  | .review => "review"
  | .commit => "commit"
  | .verification => "verification"
  | .terminal => "terminal"
  | .fanoutJoin => "fanout_join"
  | .commitCleanup => "commit_cleanup"

/-! ## Phases -/

structure PhaseTransition where
  onSuccess : String
  onFailure : Option String := none
  onLoopback : Option String := none
  deriving DecidableEq

structure PhaseLoopPolicy where
  iterationStateField : String
  loopbackReviewOutcome : Option String := none
  deriving DecidableEq

structure PhaseDecisionRoute where
  target : String
  resetLoop : Bool := false
  cycleOutcome : Option CycleOutcome := none
  incrementsCounter : Option String := none
  deriving DecidableEq

structure PhaseCommitPolicy where
  skippedAdvancesProgress : Bool := true
  incrementsCounter : Option String := none
  routeCounter : Option String := none
  loopResets : List String := []
  deriving DecidableEq

structure PhaseInvocationGate where
  upstreamExecutionPhase : String
  minimumElapsedSeconds : ℚ
  alwaysInvokeStatuses : List String := []
  deriving DecidableEq

structure PhaseParallelization where
  dispatchMode : DispatchMode := .ralphFanOut
  maxParallelWorkers : Nat := 8
  postFanoutVerification : Bool := false
  deriving DecidableEq

structure PhaseVerificationPolicy where
  onFailureRoute : Option String := none
  deriving DecidableEq

structure PhaseWorkflowFallback where
  target : String
  deriving DecidableEq

structure PhaseDefinition where
  drain : String
  transitions : PhaseTransition
  role : Option PhaseRole := none
  skipInvocation : Bool := false
  loopPolicy : Option PhaseLoopPolicy := none
  decisions : Dict String PhaseDecisionRoute := ∅
  commitPolicy : Option PhaseCommitPolicy := none
  verification : Option PhaseVerificationPolicy := none
  terminalOutcome : Option TerminalOutcome := none
  bypassRoutes : Dict String String := ∅
  resultStatusPostCommit : Dict String String := ∅
  cleanOutcome : Option String := none
  issuesOutcome : Option String := none
  parallelization : Option PhaseParallelization := none
  workflowFallback : Option PhaseWorkflowFallback := none
  invocationGate : Option PhaseInvocationGate := none

/-! ## Pipeline-wide sections -/

structure PostCommitRouteWhen where
  phase : String
  budgetState : BudgetLabel
  cycleOutcome : Option CycleOutcome := none
  deriving DecidableEq

structure PostCommitRoute where
  when : PostCommitRouteWhen
  target : String
  deriving DecidableEq

structure LoopCounterConfig where
  defaultMax : Nat := 3
  deriving DecidableEq

structure BudgetCounterConfig where
  tracksBudget : Bool := true
  defaultMax : Nat
  deriving DecidableEq

structure LifecyclePhasePolicy where
  incrementsCounter : Option String := none
  loopResets : List String := []
  deriving DecidableEq

structure CycleTimeboxPolicy where
  durationSeconds : ℚ
  duration_pos : 0 < durationSeconds
  startSource : String
  startEntry : String
  guardedEntry : String
  endEntry : String
  finalizationTarget : String
  finalizationCycleOutcome : CycleOutcome := .completed

/-- Route names that `RecoveryPolicy` refuses. -/
def legacyFailedRoutes : List String := ["phase_failed", "exit_failure", "failed"]

theorem one_le_cycleCap : 1 ≤ 200 := by decide

theorem failedTerminal_current : "failed_terminal" ∉ legacyFailedRoutes := by decide

structure RecoveryPolicy where
  cycleCap : Nat := 200
  cycleCap_pos : 1 ≤ cycleCap := by first | exact one_le_cycleCap | decide
  failedRoute : String := "failed_terminal"
  failedRoute_current : failedRoute ∉ legacyFailedRoutes := by first | exact failedTerminal_current | decide
  terminalFailurePhase : Option String := none

structure PipelinePolicy where
  phases : Dict String PhaseDefinition := ∅
  entryPhase : String := "planning"
  terminalPhase : String := "complete"
  loopCounters : Dict String LoopCounterConfig := ∅
  budgetCounters : Dict String BudgetCounterConfig := ∅
  postCommitRoutes : List PostCommitRoute := []
  lifecyclePhases : Dict String LifecyclePhasePolicy := ∅
  recovery : RecoveryPolicy := {}
  cycleTimebox : Option CycleTimeboxPolicy := none

/-! ## Agents -/

structure AgentChainConfig where
  agents : List String
  maxRetries : Nat := 3
  retryDelayMs : Nat := 1000
  deriving DecidableEq

structure AgentDrainConfig where
  chain : String
  deriving DecidableEq

structure AgentsPolicy where
  agentChains : Dict String AgentChainConfig := ∅
  agentDrains : Dict String AgentDrainConfig := ∅

structure PolicyBundle where
  pipeline : PipelinePolicy
  agents : AgentsPolicy := {}

/-! ## Lookups every routing function shares -/

namespace PipelinePolicy

variable (policy : PipelinePolicy)

def hasPhase (phase : String) : Bool := policy.phases.contains phase

/-- The success terminal, the failure route, and every phase of terminal role. -/
def terminalStates : List String :=
  policy.terminalPhase :: policy.recovery.failedRoute ::
    (policy.phases.entries.filter fun e => e.2.role = some .terminal).map Prod.fst

def known (target : String) : Bool := target ∈ policy.terminalStates || policy.hasPhase target

theorem hasPhase_iff (phase : String) : policy.hasPhase phase = true ↔ ∃ phaseDef, policy.phases.get? phase = some phaseDef :=
  Dict.contains_iff policy.phases phase

theorem hasPhase_of_get? {phase : String} {phaseDef : PhaseDefinition}
    (h : policy.phases.get? phase = some phaseDef) : policy.hasPhase phase = true :=
  (hasPhase_iff policy phase).mpr ⟨phaseDef, h⟩

end PipelinePolicy

end RalphWorkflow.Policy
