import RalphWorkflow.Lib.Dict

/-! What a failure carries when it reaches the recovery controller (`ralph/recovery`): its category, its
attribution, and the raw exception or message it was classified from. -/
namespace RalphWorkflow.Recovery

inductive FailureCategory
  | environmental | agent | userConfig | artifactValidation | ambiguous
  deriving DecidableEq

def FailureCategory.name : FailureCategory → String
  | .environmental => "environmental"
  | .agent => "agent"
  | .userConfig => "user_config"
  | .artifactValidation => "artifact_validation"
  | .ambiguous => "ambiguous"

inductive UnavailabilityReason
  | outOfCredits | brokenAgent | noOutputAtStart | noOutputAfterActivity | suspiciousTimeoutNoOutput
  | staleChildQuiet | strictlyStuck
  deriving DecidableEq

def UnavailabilityReason.name : UnavailabilityReason → String
  | .outOfCredits => "out_of_credits"
  | .brokenAgent => "broken_agent"
  | .noOutputAtStart => "no_output_at_start"
  | .noOutputAfterActivity => "no_output_after_activity"
  | .suspiciousTimeoutNoOutput => "suspicious_timeout_no_output"
  | .staleChildQuiet => "stale_child_quiet"
  | .strictlyStuck => "strictly_stuck"

/-- Its class, its text, and its `reason` attribute when that is a string. -/
structure RaisedException where
  typeName : String
  text : String
  reason : Option String := none
  deriving DecidableEq

inductive RawFailure
  | exception (exc : RaisedException)
  | message (text : String)
  deriving DecidableEq

structure ClassifiedFailure where
  category : FailureCategory
  reason : String
  countsAgainstBudget : Bool
  originalException : Option RaisedException := none
  resetSession : Bool := false
  isUnavailable : Bool := false
  watchdogReason : Option String := none
  unavailabilityReason : Option UnavailabilityReason := none
  resumableSessionId : Option String := none
  deriving DecidableEq

structure FailureContext where
  phase : String
  agent : Option String := none
  retryInSession : Bool := false
  classifiedFailure : Option ClassifiedFailure := none
  deriving DecidableEq

/-! ## Exception chains

`_find_typed_watchdog_cause` and `_categorize` of the failure classifier. An exception is a node of a finite graph with at most two links out
of it; the texts that the classifier scans are given by what the scans say.
-/

structure ExceptionGraph (n : Nat) where
  cause : Fin n → Option (Fin n)
  context : Fin n → Option (Fin n)
  /-- an `IdleWatchdogKilledError` -/
  watchdogKilled : Fin n → Bool
  typeName : Fin n → String
  /-- `_is_environmental_exc`: a connection error, a timeout or one of the network errnos -/
  environmental : Fin n → Bool

namespace ExceptionGraph

variable {n : Nat} (g : ExceptionGraph n)

def follow (exc : Fin n) : Option (Fin n) :=
  match g.cause exc with
  | some cause => some cause
  | none => g.context exc

/-- The `while` loop; `none` when it has not ended after so many rounds. -/
def walk : Nat → List (Fin n) → Option (Fin n) → Option (Option (Fin n))
  | 0, _, _ => none
  | _ + 1, _, none => some none
  | rounds + 1, visited, some current =>
    if current ∈ visited then some none
    else if g.watchdogKilled current then some (some current)
    else walk rounds (current :: visited) (g.follow current)

/-- Each round but the last visits another exception. -/
def findTypedWatchdogCause (exc : Fin n) : Option (Option (Fin n)) :=
  if g.watchdogKilled exc then some (some exc) else g.walk (n + 1) [exc] (g.follow exc)

end ExceptionGraph

/-- Category, whether it counts against the budget, whether the session is to be reset. -/
abbrev Categorization := FailureCategory × Bool × Bool

structure TextScans where
  /-- `_classify_agent_invocation_error` -/
  agentInvocation : Option Categorization
  /-- `_classify_message_only_failure` -/
  messageOnly : Option Categorization

def userConfigTypeNames : List String :=
  ["DrainNotBoundError", "CheckpointPolicyMismatchError", "PolicyValidationError", "UnknownAgentError", "McpConfigError"]

def artifactValidationTypeNames : List String :=
  ["PlanArtifactValidationError", "DevelopmentResultValidationError", "TypedArtifactValidationError", "SmokeTestResultValidationError",
    "ProductSpecValidationError", "WorkUnitsValidationError"]

namespace ExceptionGraph

variable {n : Nat} (g : ExceptionGraph n)

def categorizeExc (exc : Fin n) (scans : TextScans) : Option Categorization :=
  let typeName := g.typeName exc
  if (g.findTypedWatchdogCause exc).join.isSome then some (.agent, true, false)
  else if typeName ∈ userConfigTypeNames then some (.userConfig, false, false)
  else if typeName ∈ artifactValidationTypeNames then some (.artifactValidation, false, false)
  else if g.environmental exc then some (.environmental, false, false)
  else if typeName ∈ ["AgentInactivityTimeoutError", "BrokenAgentExitError"] then
    some (.agent, true, typeName == "BrokenAgentExitError")
  else if typeName ∈ ["OpenCodeResumableExitError", "AgyIncompleteExitError"] then some (.agent, true, false)
  else if typeName = "AgentInvocationError" then scans.agentInvocation
  else none

def categorize (exc : Fin n) (scans : TextScans) : Categorization :=
  match g.categorizeExc exc scans with
  | some verdict => verdict
  | none => scans.messageOnly.getD (.ambiguous, false, false)

end ExceptionGraph

end RalphWorkflow.Recovery
