import RalphWorkflow.Lib.Effect
import RalphWorkflow.Pipeline.AutoIntegrate.Seams

/-! `_integrate_once` with the handler around it in `ralph/pipeline/auto_integrate.py`, `auto_integrate_rebase_merge.py` and the record of
`auto_integrate_record.py`. Git and the resolvers may answer anything, raise, and leave any operation in progress; a query for it tells the truth or
fails. -/
namespace RalphWorkflow.Pipeline.AutoIntegrate
open Lib.Effect List

/-! ## The record -/

inductive IntegrationPhase
  | integrating | integrated
  deriving DecidableEq

inductive IntegrationOperation
  | featureIntegrate | targetReconcile
  deriving DecidableEq

structure IntegrationRecord where
  phase : IntegrationPhase
  target : String
  preFeatureSha : String
  preTargetSha : Option String
  integratedFeatureSha : Option String := none
  resolvingRebase : Bool := false
  operationKind : IntegrationOperation := .featureIntegrate
  owningWorktree : Option String := none
  deriving DecidableEq

/-! ## Calls -/

structure InFlight where
  rebase : Bool := false
  merge : Bool := false
  deriving DecidableEq

def InFlight.idle (ops : InFlight) : Bool := !ops.rebase && !ops.merge

/-- The violation that is let through, an `Exception`, or what no `except Exception` catches. -/
inductive AttemptExc
  | terminalStateViolation
  | exception (text : String)
  | interrupt
  deriving DecidableEq

inductive RebaseOutcome
  | success
  | noOp (reason : String)
  | conflicts
  | failed (kind : String)
  deriving DecidableEq

inductive MergeOutcome
  | success | noop | conflict | resolutionFailed
  deriving DecidableEq

structure MergeResult where
  outcome : MergeOutcome
  reason : Option String := none
  deriving DecidableEq

inductive Site
  | abort | fallback | guard
  deriving DecidableEq

inductive Check
  | fallback | ended | landed
  deriving DecidableEq

inductive AttemptCall
  | preFeatureSha | preTargetSha | writeRecord | createBackupRef | rangeRouting | rebaseOnto | setResolving | resolveRebase
  | landedStops
  | rebaseInProgress (site : Site)
  | abortRebase | mergeState
  | endpointMerge (resolver : Bool)
  | gitDir (check : Check)
  | markers (check : Check)
  | headMatches (check : Check)
  | deleteBackupRef (check : Check)
  | postFeatureSha | fastForward | pushTarget | refreshFromRemote | reconcileTarget | pushToRemote
  deriving DecidableEq

/-- The in-progress queries say whether they could be answered, `markers` what another operation left. -/
@[reducible] def AttemptCall.Answer : AttemptCall → Type
  | .preFeatureSha | .postFeatureSha => String
  | .preTargetSha | .rangeRouting => Option String
  | .writeRecord | .createBackupRef | .setResolving | .rebaseInProgress _ | .abortRebase | .deleteBackupRef _ => Unit
  | .rebaseOnto => RebaseOutcome
  | .resolveRebase => Bool × Option String
  | .landedStops | .mergeState | .gitDir _ | .markers _ | .headMatches _ => Bool
  | .endpointMerge _ => Option MergeResult
  | .fastForward => Option String
  | .pushTarget => Option (PushStatus × String)
  | .refreshFromRemote => Refresh
  | .reconcileTarget => Reconciliation
  | .pushToRemote => PushStatus

def AttemptCall.moves : AttemptCall → Bool
  | .rebaseOnto | .resolveRebase | .abortRebase | .endpointMerge _ => true
  | _ => false

inductive Failure
  | exception (text : String)
  | interrupt
  deriving DecidableEq

def Failure.raised : Failure → AttemptExc
  | .exception text => .exception text
  | .interrupt => .interrupt

/-- How a call ends, with the operations in progress and what a reconciliation leaves of the record. -/
structure Reply (α : Type) where
  result : Except Failure α
  inFlight : InFlight := {}
  record : Option IntegrationRecord := none

/-- A call that was made, how it ended, and the operations in progress after it. -/
structure Event where
  call : AttemptCall
  result : Except Failure call.Answer
  inFlight : InFlight

abbrev Behaviour := List Event → (call : AttemptCall) → Reply call.Answer

/-- The worktree, the record on disk, the operations at every clearing of it, and the calls, newest first. -/
structure World where
  inFlight : InFlight
  record : Option IntegrationRecord
  clears : List InFlight := []
  log : List Event := []

instance : Preorder World where
  le s t := s.clears <:+ t.clears ∧ s.log <:+ t.log
  le_refl s := ⟨suffix_refl _, suffix_refl _⟩
  le_trans _ _ _ h h' := ⟨h.1.trans h'.1, h.2.trans h'.2⟩

abbrev Attempt := Growing AttemptExc World

def World.after (w : World) (call : AttemptCall) (reply : Reply call.Answer) : World :=
  let inFlight := if call.moves then reply.inFlight else w.inFlight
  { inFlight
    record := if call = .reconcileTarget then reply.record else w.record
    clears := if call = .reconcileTarget ∧ reply.record = none then w.inFlight :: w.clears else w.clears
    log := { call, result := reply.result, inFlight } :: w.log }

theorem World.le_after (w : World) (call : AttemptCall) (reply : Reply call.Answer) : w ≤ w.after call reply := by
  refine ⟨?_, suffix_cons _ _⟩
  unfold World.after
  dsimp only
  split
  · exact suffix_cons _ _
  · exact suffix_refl _

variable (behaviour : Behaviour)

def perform (call : AttemptCall) : Attempt call.Answer where
  run := fun w =>
    let reply := behaviour w.log call
    match reply.result with
    | .ok answer => .ok answer (w.after call reply)
    | .error failure => .error failure.raised (w.after call reply)
  grows := by
    intro w
    dsimp only
    split
    · exact w.le_after call _
    · exact w.le_after call _

def operationsInFlight : Attempt InFlight := ⟨fun w => .ok w.inFlight w, fun w => le_refl w⟩

def recordOnDisk : Attempt (Option IntegrationRecord) := ⟨fun w => .ok w.record w, fun w => le_refl w⟩

def putRecord (record : IntegrationRecord) : Attempt Unit :=
  ⟨fun w => .ok () { w with record := some record }, fun _ => ⟨suffix_refl _, suffix_refl _⟩⟩

def World.cleared (w : World) : World :=
  match w.record with
  | none => w
  | some _ => { w with record := none, clears := w.inFlight :: w.clears }

def clearRecord : Attempt Unit where
  run := fun w => .ok () w.cleared
  grows := by
    intro w
    show w ≤ w.cleared
    unfold World.cleared
    split
    · exact le_refl w
    · exact ⟨suffix_cons _ _, suffix_refl _⟩

/-- `try: x except Exception: return default`. -/
def contained {α : Type} (default : α) (x : Attempt α) : Attempt α :=
  tryCatch x fun exc => if exc = .interrupt then throw exc else pure default

def writeRecord (record : IntegrationRecord) : Attempt Unit := do
  perform behaviour .writeRecord
  putRecord record

def setResolvingRebase (resolving : Bool) : Attempt Bool := do
  match ← recordOnDisk with
  | none => pure true
  | some current =>
    if current.resolvingRebase = resolving then pure true
    else do
      let written ← tryCatch (do
        perform behaviour .setResolving
        pure true) fun _ => pure false
      if written then do
        putRecord { current with resolvingRebase := resolving }
        pure true
      else pure false

def rebaseInProgress (site : Site) : Attempt Bool := do
  perform behaviour (.rebaseInProgress site)
  let ops ← operationsInFlight
  pure ops.rebase

/-- `merge_state(root) == MERGE_STATE_NONE`; an unreadable git directory is not that. -/
def mergeStateIsNone : Attempt Bool := do
  let readable ← perform behaviour .mergeState
  let ops ← operationsInFlight
  pure (readable && !ops.merge)

/-! ## The outcome of a rebase or merge -/

def classifyConflictOutcome : Option MergeResult → Option (IntegrationAction × Option String)
  | none => none
  | some { outcome := .resolutionFailed, reason } =>
    match reason with
    | some detail =>
      if detail = "" then some (.conflict, some "conflict resolution failed; merge aborted")
      else some (.conflict, some s!"conflict resolution did not complete ({detail}); merge aborted")
    | none => some (.conflict, some "conflict resolution failed; merge aborted")
  | some { outcome := .conflict, .. } => some (.conflict, some "rebase and endpoint merge both conflicted")
  | some { outcome := .success, .. } | some { outcome := .noop, .. } => some (.merged, none)

def classifyMergeOnlyOutcome : Option MergeResult → IntegrationAction × Option String
  | none => (.conflict, some "endpoint merge attempt raised")
  | some { outcome := .resolutionFailed, .. } => (.conflict, some "conflict resolution failed; merge aborted")
  | some { outcome := .conflict, .. } => (.conflict, some "endpoint merge conflicted (conflict)")
  | some { outcome := .success, .. } | some { outcome := .noop, .. } => (.merged, none)

def classifyRebaseOutcome (outcome : RebaseOutcome) (merge : Option (Option MergeResult)) : IntegrationAction × Option String :=
  let conflicted := merge.bind classifyConflictOutcome
  match outcome with
  | .conflicts => conflicted.getD (.conflict, some "rebase conflicts")
  | .noOp reason =>
    match merge with
    | some result => classifyMergeOnlyOutcome result
    | none => (.rebased, some reason)
  | .failed kind =>
    if conflicted = some (.conflict, some "rebase and endpoint merge both conflicted") then
      (.conflict, some "rebase failed and endpoint merge conflicted")
    else conflicted.getD (.skipped, some s!"rebase failed: {kind}")
  | .success => if merge.join.isSome then (.merged, none) else (.rebased, none)

/-- A record to return directly, or a completed rebase or merge. -/
inductive RunResult
  | shortCircuit (action : IntegrationAction) (reason : Option String) (exhausted : Bool)
  | completed (action : IntegrationAction) (reason : Option String)
  deriving DecidableEq

/-! ## Terminal states -/

/-- The markers that `post_attempt_verify` looks for, unless the resolver owns them. -/
def verifyMarkers (check : Check) (owns : Bool) : Attempt Unit :=
  if owns then pure ()
  else do
    let others ← perform behaviour (.markers check)
    let ops ← operationsInFlight
    if others || !ops.idle then throw .terminalStateViolation else pure ()

def verifyHead (check : Check) (expectedHead : Bool) : Attempt Unit :=
  if expectedHead then do
    let same ← contained false (perform behaviour (.headMatches check))
    if same then pure () else throw .terminalStateViolation
  else pure ()

def postAttemptVerify (check : Check) (expectedHead owns : Bool) : Attempt Unit := do
  let readable ← contained false (perform behaviour (.gitDir check))
  if readable then do
    verifyMarkers behaviour check owns
    verifyHead behaviour check expectedHead
  else pure ()

def verifyAndCleanupBackup (check : Check) (expectedHead owns : Bool) : Attempt Unit := do
  postAttemptVerify behaviour check expectedHead owns
  contained () (perform behaviour (.deleteBackupRef check))

def verifyTerminalState (owns : Bool) : Attempt Unit :=
  tryCatch (postAttemptVerify behaviour .fallback false owns) fun exc =>
    if exc = .terminalStateViolation then pure () else throw exc

def clearRecordIfNoInflightOp : Attempt Unit := do
  let clean ← contained false (do
    let none ← mergeStateIsNone behaviour
    if none then do
      let paused ← rebaseInProgress behaviour .guard
      pure !paused
    else pure false)
  if clean then clearRecord else pure ()

/-! ## Rebase or merge -/

def endpointMergeResult (outcome : RebaseOutcome) (resolver : Bool) : Attempt RunResult := do
  match ← perform behaviour (.endpointMerge resolver) with
  | none => do
    clearRecordIfNoInflightOp behaviour
    pure (.shortCircuit .conflict (some "rebase conflict followed by merge attempt exception") false)
  | some merge => do
    let (action, reason) := classifyRebaseOutcome outcome (some (some merge))
    if merge.outcome = .conflict || merge.outcome = .resolutionFailed then do
      clearRecordIfNoInflightOp behaviour
      pure (.shortCircuit action reason false)
    else pure (.completed action reason)

def abortRebaseAfterConflict : Attempt Unit :=
  contained () (do
    let paused ← rebaseInProgress behaviour .abort
    if paused then perform behaviour .abortRebase else pure ())

def fallbackToEndpointMerge (outcome : RebaseOutcome) (resolver : Bool) : Attempt RunResult := do
  let keepLanded ← perform behaviour .landedStops
  (if keepLanded then pure () else abortRebaseAfterConflict behaviour)
  let paused ← rebaseInProgress behaviour .fallback
  verifyTerminalState behaviour resolver
  if paused then
    pure (.shortCircuit .conflict (some (if keepLanded then "rebase paused with landed stops; resume remaining stops"
      else "rebase in-progress after abort")) false)
  else endpointMergeResult behaviour outcome resolver

def settled {α : Type} (x : Attempt α) : Attempt (Except AttemptExc α) :=
  tryCatch (do
    let a ← x
    pure (.ok a)) fun exc => pure (.error exc)

def resolveConflictedRebase : Attempt (Option RunResult) := do
  let flagged ← setResolvingRebase behaviour true
  if flagged = false then pure none
  else do
    let ended ← settled (perform behaviour .resolveRebase)
    let _ ← setResolvingRebase behaviour false
    match ended with
    | .error exc => throw exc
    | .ok (true, _) =>
      let (action, reason) := classifyRebaseOutcome .success none
      pure (some (.completed action reason))
    | .ok (false, some reason) => pure (some (.shortCircuit .conflict (some reason) true))
    | .ok (false, none) => pure none

structure Setup where
  target : String
  /-- A conflict resolver was handed down. -/
  resolver : Bool
  stopResolver : Bool
  deriving DecidableEq

def runRebaseOrMerge (setup : Setup) (preferMerge : Bool) : Attempt RunResult :=
  if preferMerge then
    endpointMergeResult behaviour (.noOp "rebase skipped on retry to preserve the integration merge commit") setup.resolver
  else do
    match ← perform behaviour .rangeRouting with
    | some reason => endpointMergeResult behaviour (.noOp reason) setup.resolver
    | none => do
      let outcome ← perform behaviour .rebaseOnto
      match outcome with
      | .conflicts =>
        if setup.stopResolver then do
          match ← resolveConflictedRebase behaviour with
          | some result => pure result
          | none => fallbackToEndpointMerge behaviour outcome false
        else fallbackToEndpointMerge behaviour outcome setup.resolver
      | .failed _ => fallbackToEndpointMerge behaviour outcome setup.resolver
      | .success | .noOp _ =>
        let (action, reason) := classifyRebaseOutcome outcome none
        pure (.completed action reason)

/-! ## The attempt -/

def readPostIntegrationHeadSha : Attempt (Option String) :=
  tryCatch (do
    let sha ← perform behaviour .postFeatureSha
    pure (some sha)) fun exc =>
      if exc = .interrupt then throw exc
      else do
        clearRecord
        pure none

def integrateOnce (setup : Setup) (preferMerge : Bool) (publication : Attempt (Option Publication)) : Attempt Integration := do
  let preFeatureSha ← perform behaviour .preFeatureSha
  let preTargetSha ← perform behaviour .preTargetSha
  writeRecord behaviour { phase := .integrating, target := setup.target, preFeatureSha, preTargetSha }
  perform behaviour .createBackupRef
  match ← runRebaseOrMerge behaviour setup preferMerge with
  | .shortCircuit action reason exhausted => do
    verifyAndCleanupBackup behaviour .ended true setup.resolver
    pure (.shortCircuit action reason exhausted)
  | .completed action reason => do
    match ← readPostIntegrationHeadSha behaviour with
    | none => do
      verifyAndCleanupBackup behaviour .ended true setup.resolver
      pure .headReadFailed
    | some featureSha => do
      writeRecord behaviour { phase := .integrated, target := setup.target, preFeatureSha, preTargetSha, integratedFeatureSha := some featureSha }
      let refused ← perform behaviour .fastForward
      verifyAndCleanupBackup behaviour .landed false setup.resolver
      clearRecord
      match refused with
      | some text => pure (.completed action reason (some text) none)
      | none => do
        let published ← publication
        pure (.completed action reason none published)

/-! ## Publication -/

structure PushCycle where
  success : Bool
  pushed : Bool
  status : Option PushStatus

def attemptReconcileAndPush (reintegrate : Attempt Bool) : Attempt PushCycle := do
  let push : Attempt PushCycle := do
    let landed ← reintegrate
    if landed = false then pure { success := false, pushed := false, status := none }
    else do
      let status ← perform behaviour .pushToRemote
      pure { success := status.success, pushed := status ≠ .missingRemote, status := some status }
  match ← perform behaviour .refreshFromRemote with
  | .noRemote => pure { success := false, pushed := false, status := some .missingRemote }
  | .unreachable => pure { success := false, pushed := true, status := some .unreachable }
  | .diverged => do
    let reconciliation ← perform behaviour .reconcileTarget
    if reconciliation.reconciled then push
    else
      pure { success := false, pushed := false, status := if reconciliation.cleanlyAborted then some .nonFastForward else none }
  | _ => push

def reconcileAfterRejectedPush (reintegrate : Attempt Bool) : Nat → Option PushStatus → Attempt (Option PushStatus)
  | 0, status => pure status
  | left + 1, _ => do
    let cycle ← attemptReconcileAndPush behaviour reintegrate
    if cycle.success || !cycle.pushed then pure cycle.status
    else reconcileAfterRejectedPush reintegrate left cycle.status

def landedIntegration : Integration → Bool
  | .completed _ _ none _ => true
  | _ => false

def maxRemoteSyncAttempts : Nat := 3

def publishLanding (setup : Setup) : Attempt (Option Publication) := do
  match ← perform behaviour .pushTarget with
  | none => pure none
  | some (status, detail) =>
    if status = .nonFastForward then do
      let reintegrate : Attempt Bool := do
        let integration ← integrateOnce behaviour setup false (pure none)
        pure (landedIntegration integration)
      let reconciled ← reconcileAfterRejectedPush behaviour reintegrate maxRemoteSyncAttempts (some status)
      pure (some { status, detail, reconciled })
    else pure (some { status, detail })

inductive AttemptEnd
  | ended (integration : Integration)
  | failed (text : String)
  deriving DecidableEq

/-- `_integrate_once` under the handlers of `_auto_integrate_after_commit_inner`. -/
def integrationAttempt (setup : Setup) (preferMerge : Bool) : Attempt AttemptEnd :=
  tryCatch (do
    let integration ← integrateOnce behaviour setup preferMerge (publishLanding behaviour setup)
    pure (.ended integration)) fun exc =>
      match exc with
      | .exception text => do
        clearRecord
        pure (.failed text)
      | exc => throw exc

end RalphWorkflow.Pipeline.AutoIntegrate
