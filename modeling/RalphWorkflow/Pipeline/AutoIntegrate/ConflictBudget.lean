/-! `auto_integrate_conflict_budget.py` and the two functions of `auto_integrate_budget_seam.py` that account for seams which
end before the budget is applied. -/
namespace RalphWorkflow.Pipeline.AutoIntegrate

/-! ## The integration state

`RebaseState` of `ralph/pipeline/rebase_state.py`, as far as the seams read it, with the records of `auto_integrate_outcome.py` and the filter of
`auto_integrate_resolution_state.py` that keeps the evidence. -/

inductive IntegrationAction
  | rebased | merged | fastForwarded | skipped | conflict | recovered
  deriving DecidableEq

inductive Refresh
  | disabled | noOrigin | noRemote | unreachable | noRemoteBranch | noLocalBranch | alreadyCurrent | diverged | refreshed
  | originAhead | localAhead | localFleet | suppressed
  deriving DecidableEq

inductive RemoteSync
  | created | pushed | pushRejected | pullFailed | pulled | reconciled | noRemote | noRemoteBranch | localAhead
  | alreadyCurrent | unreachable | authFailed | rejectedByHook | timeout | refreshSuppressed | localFleet
  deriving DecidableEq

inductive PushStatus
  | pushed | created | missingRemote | nonFastForward | timeout | authFailed | hookRejected | unreachable
  deriving DecidableEq

structure RebaseState where
  lastAction : Option IntegrationAction := none
  lastReason : Option String := none
  lastTarget : Option String := none
  fastForwarded : Bool := false
  lastRefresh : Option Refresh := none
  freshnessSafe : Bool := true
  lastRemoteSync : Option RemoteSync := none
  lastPushStatus : Option PushStatus := none
  consecutiveConflicts : Int := 0
  lastConflictFeatureSha : Option String := none
  lastConflictTargetSha : Option String := none
  lastConflictPaths : List String := []
  lastConflictStageOids : List String := []
  lastConflictScope : String := ""
  recoveryRecordRetained : Bool := false
  resolutionExhausted : Bool := false
  resolutionExhaustionReason : Option String := none
  unresolvedIntegrationCarried : Bool := false
  legacyCheckpointBlocked : Bool := false
  deriving DecidableEq

/-! ## Records -/

def recordSkip (reason : String) (target : Option String) : RebaseState :=
  { lastAction := some .skipped, lastReason := some reason, lastTarget := target }

def recordOutcome (action : IntegrationAction) (reason : Option String) (target : String) (exhausted : Bool) : RebaseState :=
  { lastAction := some action, lastReason := reason, lastTarget := some target, resolutionExhausted := exhausted,
    resolutionExhaustionReason := if exhausted then reason else none }

def recordRefresh (record : RebaseState) (refresh : Option Refresh) : RebaseState :=
  match refresh with
  | none => record
  | some refresh => { record with lastRefresh := some refresh }

def refreshOutcomeIsHealthy (refresh : Option Refresh) : Bool :=
  match refresh with
  | some .alreadyCurrent | some .disabled | some .localFleet | some .noRemoteBranch | some .originAhead
  | some .refreshed => true
  | _ => false

def recordWhenStale (record : RebaseState) (refresh : Option Refresh) : Option RebaseState :=
  if refreshOutcomeIsHealthy refresh then none else some (recordRefresh record refresh)

/-! ## Unresolved integrations -/

def RebaseState.integrationUnresolved (state : RebaseState) : Bool :=
  state.lastAction = some .conflict || state.recoveryRecordRetained || state.legacyCheckpointBlocked ||
    state.unresolvedIntegrationCarried

inductive ResolutionVerdict
  | exhausted (reason : String)
  | recoverable (reason : String)
  deriving DecidableEq

def persistedIntegrationResolutionVerdict (state : RebaseState) : Option ResolutionVerdict :=
  if state.resolutionExhausted then
    some (.exhausted
      (match state.resolutionExhaustionReason with
        | some reason => if reason = "" then "conflict resolver exhausted" else reason
        | none => "conflict resolver exhausted"))
  else if state.integrationUnresolved then some (.recoverable "persisted integration state is unresolved")
  else none

def retainsUnresolvedResolutionState (state : RebaseState) : Bool := (persistedIntegrationResolutionVerdict state).isSome

def carryEvidence (outcome prior : RebaseState) : RebaseState :=
  let exhausted :=
    if prior.resolutionExhausted && !outcome.resolutionExhausted then
      { outcome with resolutionExhausted := true, resolutionExhaustionReason := prior.resolutionExhaustionReason }
    else outcome
  if prior.integrationUnresolved && !outcome.integrationUnresolved then
    { exhausted with unresolvedIntegrationCarried := true }
  else exhausted

def preserveUnresolvedResolutionState (outcome : Option RebaseState) (prior : RebaseState) : Option RebaseState :=
  match outcome with
  | none => if retainsUnresolvedResolutionState prior then some prior else none
  | some outcome =>
    if outcome.fastForwarded || !retainsUnresolvedResolutionState prior then some outcome
    else some (carryEvidence outcome prior)

def maxConsecutiveResolverAttempts : Int := 2

structure ConflictIdentity where
  featureSha : Option String := none
  targetSha : Option String := none
  conflictedPaths : List String := []
  stageOids : List String := []
  scope : String := "feature"
  deriving DecidableEq

def ConflictIdentity.matchesState (identity : ConflictIdentity) (state : RebaseState) : Bool :=
  if identity.scope ≠ "" ∧ state.lastConflictScope ≠ "" ∧ identity.scope ≠ state.lastConflictScope then false
  else if identity.conflictedPaths ≠ [] ∧ state.lastConflictPaths ≠ [] ∧ identity.conflictedPaths ≠ state.lastConflictPaths then false
  else if identity.stageOids ≠ [] ∧ state.lastConflictStageOids ≠ [] ∧ identity.stageOids ≠ state.lastConflictStageOids then false
  else if state.lastConflictFeatureSha = none ∨ state.lastConflictTargetSha = none ∨ identity.featureSha = none ∨
      identity.targetSha = none then true
  else state.lastConflictFeatureSha = identity.featureSha && state.lastConflictTargetSha = identity.targetSha

def unknownIdentity : ConflictIdentity := {}

def priorConflictCount (state : RebaseState) (target : String) (identity : ConflictIdentity) : Int :=
  if state.lastTarget ≠ some target then 0
  else if identity.matchesState state then max 0 state.consecutiveConflicts
  else 0

def resolverAllowed (state : RebaseState) (target : String) (identity : ConflictIdentity) : Bool :=
  priorConflictCount state target identity < maxConsecutiveResolverAttempts

def RebaseState.withConflicts (record : RebaseState) (count : Int) (identity : ConflictIdentity) : RebaseState :=
  { record with
    consecutiveConflicts := count
    lastConflictFeatureSha := identity.featureSha
    lastConflictTargetSha := identity.targetSha
    lastConflictPaths := identity.conflictedPaths
    lastConflictStageOids := identity.stageOids
    lastConflictScope := identity.scope }

def RebaseState.recordedIdentity (state : RebaseState) : ConflictIdentity :=
  { featureSha := state.lastConflictFeatureSha
    targetSha := state.lastConflictTargetSha
    conflictedPaths := state.lastConflictPaths
    stageOids := state.lastConflictStageOids
    scope := state.lastConflictScope }

def applyConflictBudget (record prior : RebaseState) (target : String) (resolverSuppressed : Bool) (identity : ConflictIdentity) : RebaseState :=
  let carried := priorConflictCount prior target identity
  if record.fastForwarded then record.withConflicts 0 { scope := "" }
  else if record.lastAction ≠ some .conflict then record.withConflicts carried prior.recordedIdentity
  else
    let charged := record.withConflicts (carried + 1) identity
    if resolverSuppressed then
      { charged with
        lastReason := some (s!"conflict resolution budget exhausted for '{target}' after {carried} unresolved attempts; " ++
          "agent resolution suppressed until an integration lands") }
    else charged

/-- A skip neither consumes nor forgives the budget. -/
def carryBudgetThroughSkip (skip prior : RebaseState) : RebaseState :=
  match skip.lastTarget with
  | none => skip
  | some target => applyConflictBudget skip prior target false unknownIdentity

/-- An attempt that died with an exception is charged when a resolver was handed down. -/
def chargeFailedAttempt (skip prior : RebaseState) (target : String) (identity : ConflictIdentity) (resolverOffered : Bool) : RebaseState :=
  let carried := priorConflictCount prior target identity
  skip.withConflicts (if resolverOffered then carried + 1 else carried)
    { identity with scope := skip.lastConflictScope }

end RalphWorkflow.Pipeline.AutoIntegrate
