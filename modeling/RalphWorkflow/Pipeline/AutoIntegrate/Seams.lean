import RalphWorkflow.Pipeline.AutoIntegrate.ConflictBudget
import RalphWorkflow.Pipeline.AutoIntegrate.FastForward

/-! `auto_integrate_after_commit` and `auto_integrate_on_phase_transition` of `ralph/pipeline/auto_integrate.py`, with the gates of
`auto_integrate_boundary.py` and the pull side of `auto_integrate_remote_sync.py`. What git, the remote and the resolvers answer is given. -/
namespace RalphWorkflow.Pipeline.AutoIntegrate

inductive Raised
  | terminalStateViolation
  | exception (text : String)
  deriving DecidableEq

structure IntegrationConfig where
  enabled : Bool := true
  remoteSync : Bool := false
  /-- `configured_target`. -/
  target : String := ""
  deriving DecidableEq

/-! ## The remote -/

structure Reconciliation where
  reconciled : Bool
  cleanlyAborted : Bool := true
  reason : String := ""
  deriving DecidableEq

def recordRemoteState (target : String) (sync : RemoteSync) (refresh : Refresh) (reason : Option String) (safe : Bool) : RebaseState :=
  { lastAction := some .skipped, lastReason := reason, lastTarget := some target, lastRemoteSync := some sync,
    lastRefresh := some refresh, freshnessSafe := safe }

def dispatchPullOutcome (target : String) (refresh : Refresh) (forwardError : Option String)
    (reconciliation : Reconciliation) : Option RebaseState :=
  match refresh with
  | .localFleet => some (recordRemoteState target .localFleet refresh none true)
  | .unreachable => some (recordRemoteState target .pullFailed refresh (some "origin unreachable") true)
  | .noRemote => some (recordRemoteState target .noRemote refresh none true)
  | .noRemoteBranch => some (recordRemoteState target .noRemoteBranch refresh none true)
  | .noLocalBranch => none
  | .originAhead =>
    match forwardError with
    | some text => some (recordRemoteState target .pullFailed refresh (some text) false)
    | none => some (recordRemoteState target .pulled refresh none true)
  | .localAhead => some (recordRemoteState target .localAhead refresh none true)
  | .diverged =>
    if reconciliation.reconciled then some (recordRemoteState target .reconciled refresh none true)
    else
      some (recordRemoteState target .pullFailed refresh (some reconciliation.reason) reconciliation.cleanlyAborted)
  | _ => some (recordRemoteState target .alreadyCurrent refresh none true)

inductive Pull
  | throttled
  | fetched (refresh : Refresh) (forwardError : Option String) (reconciliation : Reconciliation)
  deriving DecidableEq

/-- The observed identity, whether the attempt was booked, and what fetch and reconciliation did. -/
structure PullAnswer where
  identity : Option ConflictIdentity := none
  booked : Bool := true
  pull : Except Raised Pull := .ok .throttled
  deriving DecidableEq

def PullAnswer.remoteIdentity (answer : PullAnswer) : ConflictIdentity :=
  match answer.identity with
  | some identity => { identity with scope := "remote" }
  | none => { scope := "remote" }

def remoteResolverOffered (target : String) (resolver : Bool) (prior : RebaseState) (answer : PullAnswer) : Bool :=
  resolver && resolverAllowed prior target answer.remoteIdentity && answer.booked

def pullAndReconcileTarget (config : IntegrationConfig) (target : String) (resolver : Bool) (prior : RebaseState)
    (answer : PullAnswer) : Except Raised (Option RebaseState) :=
  if config.remoteSync = false then .ok none
  else do
    let pull ← answer.pull
    let state := match pull with
      | .throttled =>
        recordRemoteState target .refreshSuppressed .suppressed
          (some "remote freshness probe suppressed by configured interval") true
      | .fetched refresh forwardError reconciliation =>
        (dispatchPullOutcome target refresh forwardError reconciliation).getD prior
    let suppressed := resolver && !remoteResolverOffered target resolver prior answer
    .ok (some (applyConflictBudget state prior target suppressed answer.remoteIdentity))

def remoteSyncStatus : PushStatus → RemoteSync
  | .pushed => .pushed
  | .created => .created
  | .missingRemote => .noRemote
  | .nonFastForward => .pushRejected
  | .timeout => .timeout
  | .authFailed => .authFailed
  | .hookRejected => .rejectedByHook
  | .unreachable => .unreachable

/-- A publication: the push and, after a rejected one, the status the bounded reconciliation ended with. -/
structure Publication where
  status : PushStatus
  detail : String := ""
  reconciled : Option PushStatus := none
  deriving DecidableEq

def PushStatus.success : PushStatus → Bool
  | .pushed | .created => true
  | _ => false

def publish (record : RebaseState) (publication : Publication) : RebaseState :=
  let pushed := { record with
    lastPushStatus := some publication.status
    lastRemoteSync := some (remoteSyncStatus publication.status)
    lastReason := if publication.status.success then none else some publication.detail }
  if publication.status = .nonFastForward then
    { pushed with
      lastPushStatus := publication.reconciled
      lastRemoteSync := some ((publication.reconciled.map remoteSyncStatus).getD .pullFailed) }
  else pushed

def retryPendingRemotePublish (config : IntegrationConfig) (record : RebaseState) (publication : Publication) : Option RebaseState :=
  if config.remoteSync = false || record.lastPushStatus = none || record.lastPushStatus = some .pushed ||
      record.lastPushStatus = some .created then none
  else some (publish record publication)

/-! ## One attempt -/

/-- How `_integrate_once` ended; `completed` with what kept it from landing. -/
inductive Integration
  | shortCircuit (action : IntegrationAction) (reason : Option String) (exhausted : Bool)
  | headReadFailed
  | completed (action : IntegrationAction) (reason : Option String) (refused : Option String)
      (publication : Option Publication)
  deriving DecidableEq

def isRetryableFastForwardFailure (reason : String) : Bool :=
  [targetNotAncestor, targetCasMismatch, targetQueryFailed, targetWorktreeQueryFailed, targetCheckedOutRefused].contains
    reason

/-- The record of `_integrate_once`, and whether the landing is worth another attempt. -/
def integrationRecord (target : String) (refresh : Option Refresh) : Integration → RebaseState × Bool
  | .shortCircuit action reason exhausted => (recordRefresh (recordOutcome action reason target exhausted) refresh, false)
  | .headReadFailed => (recordRefresh (recordSkip "post-integration HEAD read failed" (some target)) refresh, false)
  | .completed action reason refused publication =>
    let record := { recordOutcome action reason target false with lastRefresh := refresh }
    match refused with
    | some text => ({ record with lastReason := some text }, isRetryableFastForwardFailure text)
    | none =>
      let landed := { record with fastForwarded := true, lastReason := none }
      ((publication.map (publish landed)).getD landed, false)

structure AttemptAnswer where
  pull : PullAnswer := {}
  refresh : Except Raised Refresh := .ok .localFleet
  identity : Except Raised ConflictIdentity
  integration : Except Raised Integration
  deriving DecidableEq

def freshenAttemptTarget (config : IntegrationConfig) (target : String) (attempt : Nat) (initialRefresh : Option Refresh)
    (resolver : Bool) (prior : RebaseState) (answer : AttemptAnswer) :
    Except Raised (Option RebaseState × Option Refresh) :=
  if config.remoteSync = false then
    if attempt = 0 then .ok (none, initialRefresh)
    else do
      let refresh ← answer.refresh
      .ok (none, some refresh)
  else do
    let pulled ← pullAndReconcileTarget config target resolver prior answer.pull
    match pulled with
    | none => .ok (none, none)
    | some record =>
      if record.lastRemoteSync = some .noRemote then do
        let refresh ← answer.refresh
        .ok (some record, some refresh)
      else .ok (some record, record.lastRefresh)

inductive LoopEnd
  /-- The pull left the target unsafe to integrate onto. -/
  | unsafeRemote (record : RebaseState)
  | raised (exc : Raised) (identity : ConflictIdentity) (refresh : Option Refresh)
  | finished (record : RebaseState) (remote : Option RebaseState) (identity : ConflictIdentity) (attemptsExhausted : Bool)

def maxIntegrationAttempts : Nat := 3

def attemptLoop (config : IntegrationConfig) (target : String) (stopResolver : Bool) (prior : RebaseState)
    (answers : Nat → AttemptAnswer) : Nat → Nat → Option Refresh → ConflictIdentity → LoopEnd
  | 0, _, refresh, identity => .raised (.exception "no attempt left") identity refresh
  | left + 1, attempt, refresh, identity =>
    let answer := answers attempt
    match freshenAttemptTarget config target attempt refresh stopResolver prior answer with
    | .error exc => .raised exc identity refresh
    | .ok (remote, refresh') =>
      match remote.filter fun record => !record.freshnessSafe with
      | some record => .unsafeRemote record
      | none =>
        match answer.identity with
        | .error exc => .raised exc identity refresh'
        | .ok identity' =>
          match answer.integration with
          | .error exc => .raised exc identity' refresh'
          | .ok integration =>
            let (record, retry) := integrationRecord target refresh' integration
            if retry = false then .finished record remote identity' false
            else if left = 0 then .finished record remote identity' true
            else attemptLoop config target stopResolver prior answers left (attempt + 1) refresh' identity'

/-! ## The commit seam -/

/-- The checked-out branch, the target, the refresh, and the reason of the skip table. -/
structure Context where
  currentBranch : Option String
  target : Option String
  refresh : Option Refresh
  skipReason : Except Raised (Option String)
  deriving DecidableEq

structure CommitAnswer where
  context : Except Raised Context
  identity : Except Raised ConflictIdentity
  attempts : Nat → AttemptAnswer
  conflictResolver : Bool := true
  rebaseStopResolver : Bool := true

inductive EarlyEnd
  | disabled
  | skip (record : RebaseState)
  | goesOn (target : String) (refresh : Option Refresh)

def checkEarlySkips (config : IntegrationConfig) (context : Except Raised Context) : Except Raised EarlyEnd :=
  if config.enabled = false then .ok .disabled
  else do
    let context ← context
    match context.currentBranch, context.target with
    | none, target => .ok (.skip (recordRefresh (recordSkip "detached HEAD" target) context.refresh))
    | some _, none =>
      let reason := if config.target = "" then "no integration target configured"
        else s!"local integration target branch does not exist: {config.target}"
      .ok (.skip (recordSkip reason (if config.target = "" then none else some config.target)))
    | some _, some target => do
      match ← context.skipReason with
      | some reason => .ok (.skip (recordRefresh (recordSkip reason (some target)) context.refresh))
      | none => .ok (.goesOn target context.refresh)

def recordAttemptBudgetSpent (record : RebaseState) : RebaseState :=
  let base := match record.lastReason with
    | some reason => if reason = "" then "fast-forward did not land" else reason
    | none => "fast-forward did not land"
  { record with lastReason := some s!"{base}; exhausted {maxIntegrationAttempts} integration attempts" }

def withRemoteOutcome (record : RebaseState) (remote : Option RebaseState) : RebaseState :=
  match remote with
  | none => record
  | some remote =>
    { record with
      lastRemoteSync := remote.lastRemoteSync
      lastRefresh := remote.lastRefresh <|> record.lastRefresh
      lastReason := match record.lastReason with
        | some reason => if reason = "" then remote.lastReason else some reason
        | none => remote.lastReason
      freshnessSafe := remote.freshnessSafe }

def resolverOffered (answer : CommitAnswer) (state : RebaseState) (target : String) (identity : ConflictIdentity) : Bool :=
  answer.conflictResolver && resolverAllowed state target identity

/-- The end of `_auto_integrate_after_commit_inner`, from the first attempt on. -/
def integrateTarget (config : IntegrationConfig) (answer : CommitAnswer) (state : RebaseState) (target : String)
    (refresh : Option Refresh) (identity : ConflictIdentity) : Except Raised (Option RebaseState) :=
  let allowed := resolverAllowed state target identity
  let suppressed := answer.conflictResolver && !allowed
  match attemptLoop config target (answer.rebaseStopResolver && allowed) state answer.attempts maxIntegrationAttempts 0 refresh identity with
  | .unsafeRemote record => .ok (some record)
  | .raised .terminalStateViolation _ _ => .error .terminalStateViolation
  | .raised (.exception text) observed refresh =>
    .ok (some (chargeFailedAttempt (recordRefresh (recordSkip s!"unexpected failure: {text}" (some target)) refresh)
      state target observed (resolverOffered answer state target identity)))
  | .finished record remote observed attemptsExhausted =>
    let record := withRemoteOutcome record remote
    let record := if attemptsExhausted then recordAttemptBudgetSpent record else record
    .ok (some (applyConflictBudget record state target suppressed observed))

def autoIntegrateAfterCommitInner (config : IntegrationConfig) (answer : CommitAnswer) (state : RebaseState) :
    Except Raised (Option RebaseState) := do
  match ← checkEarlySkips config answer.context with
  | .disabled => .ok none
  | .skip record => .ok (some (carryBudgetThroughSkip record state))
  | .goesOn target refresh => do
    let identity ← answer.identity
    integrateTarget config answer state target refresh identity

def autoIntegrateAfterCommit (config : IntegrationConfig) (answer : CommitAnswer) (state : RebaseState) : Except Raised (Option RebaseState) :=
  match autoIntegrateAfterCommitInner config answer state with
  | .ok outcome => .ok (preserveUnresolvedResolutionState outcome state)
  | .error .terminalStateViolation => .error .terminalStateViolation
  -- The handler's record does not go through the filter.
  | .error (.exception text) => .ok (some (recordSkip s!"unexpected failure: {text}" none))

/-! ## The phase-boundary seam -/

/-- The answers up to the commit seam; `recordedTarget` is what a failed check finds as target. -/
structure BoundaryAnswer where
  repository : Bool := true
  target : Except Raised (Option String)
  clean : Except Raised Bool := .ok true
  dirtyRefresh : Except Raised Refresh := .ok .suppressed
  targetAhead : Except Raised Bool := .ok false
  pull : PullAnswer := {}
  refresh : Except Raised Refresh := .ok .localFleet
  tipsEqual : Except Raised Bool := .ok false
  publication : Publication := { status := .pushed }
  recordedTarget : String := ""
  commit : CommitAnswer

def deferDirtyBoundary (answer : BoundaryAnswer) (target : String) : Except Raised (Option RebaseState) := do
  let refresh ← answer.dirtyRefresh
  let diverged ← answer.targetAhead
  .ok (if diverged then
      some (recordRefresh
        (recordSkip "worktree not clean; uncommitted tracked changes deferred catch-up integration" (some target))
        (some refresh))
    else none)

/-- `none` when the commit seam is to go on. -/
def boundaryFreshnessOutcome (config : IntegrationConfig) (answer : BoundaryAnswer) (target : String) (state : RebaseState) :
    Except Raised (Option RebaseState) := do
  let remote ← pullAndReconcileTarget config target answer.commit.rebaseStopResolver state answer.pull
  match remote.filter fun record => !record.freshnessSafe with
  | some record => .ok (some record)
  | none => do
    let refresh ← if config.remoteSync then .ok none else answer.refresh.map some
    let tipsEqual ← answer.tipsEqual
    if tipsEqual = false then .ok none
    else
      match retryPendingRemotePublish config state answer.publication with
      | some pending => .ok (some pending)
      | none =>
        if state.lastRemoteSync = some .pushRejected then .ok none
        else
          match remote with
          | some record =>
            .ok (some { record with lastReason := some "no commits beyond target", lastAction := some .skipped })
          | none => .ok (recordWhenStale (recordSkip "no commits beyond target" (some target)) refresh)

def phaseBoundaryOutcome (config : IntegrationConfig) (answer : BoundaryAnswer) (state : RebaseState) :
    Except Raised (Bool × Option RebaseState) := do
  match ← answer.target with
  | none =>
    let reason := if config.target = "" then "no integration target configured"
      else s!"local integration target branch does not exist: {config.target}"
    .ok (true, some (recordSkip reason (some config.target)))
  | some target => do
    let clean ← answer.clean
    if clean = false then do
      let deferred ← deferDirtyBoundary answer target
      .ok (true, deferred)
    else do
      let outcome ← boundaryFreshnessOutcome config answer target state
      .ok (outcome.isSome, outcome)

def autoIntegrateOnPhaseTransitionInner (config : IntegrationConfig) (answer : BoundaryAnswer) (state : RebaseState) :
    Except Raised (Option RebaseState) :=
  if config.enabled = false || answer.repository = false then .ok none
  else
    match phaseBoundaryOutcome config answer state with
    | .error .terminalStateViolation =>
      .ok (some (recordSkip "phase-transition pre-check failed: " (some answer.recordedTarget)))
    | .error (.exception text) =>
      .ok (some (recordSkip s!"phase-transition pre-check failed: {text}" (some answer.recordedTarget)))
    | .ok (true, outcome) => .ok outcome
    | .ok (false, _) => autoIntegrateAfterCommit config answer.commit state

def autoIntegrateOnPhaseTransition (config : IntegrationConfig) (answer : BoundaryAnswer) (state : RebaseState) :
    Except Raised (Option RebaseState) := do
  let outcome ← autoIntegrateOnPhaseTransitionInner config answer state
  .ok (preserveUnresolvedResolutionState outcome state)

/-! ## The seams of a run -/

inductive Seam
  | commit (answer : CommitAnswer)
  | boundary (answer : BoundaryAnswer)

def Seam.outcome (config : IntegrationConfig) (state : RebaseState) : Seam → Except Raised (Option RebaseState)
  | .commit answer => autoIntegrateAfterCommit config answer state
  | .boundary answer => autoIntegrateOnPhaseTransition config answer state

/-- The state the run holds after a seam: a seam that returns nothing, or raises, leaves it. -/
def Seam.next (config : IntegrationConfig) (state : RebaseState) (seam : Seam) : RebaseState :=
  match seam.outcome config state with
  | .ok (some outcome) => outcome
  | _ => state

def Seam.lands (config : IntegrationConfig) (state : RebaseState) (seam : Seam) : Bool :=
  match seam.outcome config state with
  | .ok (some outcome) => outcome.fastForwarded
  | _ => false

end RalphWorkflow.Pipeline.AutoIntegrate
