import RalphWorkflow.Git.Worktrees
import RalphWorkflow.Lib.Text
import RalphWorkflow.Pipeline.AutoIntegrate.Attempt

/-! `recover_incomplete_integration` of `ralph/pipeline/auto_integrate_recovery.py` with `_auto_integrate_recovery_integrating.py`, and the attempts
it cleans up after, cut at their commands, between which the process may be killed. A query tells the truth, fails or raises; a command that raises
may have done its work before. -/
namespace RalphWorkflow.Pipeline.AutoIntegrate.CrashRecovery
open Lib Git

structure Workspace where
  root : String
  /-- A run configuration was handed down. -/
  configured : Bool := true
  reclaimTargetWorktree : Bool := true

def operationRoot (ws : Workspace) (record : IntegrationRecord) : String :=
  match record.operationKind, record.owningWorktree with
  | .targetReconcile, some worktree => worktree
  | _, _ => ws.root

/-! ## Recovery -/

/-- How `fast_forward_target` ended. -/
inductive Verdict
  | landed
  | refused (reason : String)
  | raised (text : String)
  deriving DecidableEq

inductive Recovery
  | readRecord
  /-- `_reclaim_unowned_stale_rebase`: is there something to reclaim, and may it be. -/
  | blockingMarkers
  | stateDirIntact | removeStateDir | abortUnowned | unownedMerge
  | rebaseInProgress (record : IntegrationRecord)
  | abortRebase (record : IntegrationRecord)
  | mergeState (record : IntegrationRecord) (abortFailed : Bool)
  | abortMerge (record : IntegrationRecord) (abortFailed : Bool)
  | mergeStateAfterAbort (record : IntegrationRecord) (abortFailed : Bool)
  | targetSha (record : IntegrationRecord) (abortFailed : Bool)
  | resetHard (record : IntegrationRecord) (abortFailed : Bool)
  | rebaseGone (record : IntegrationRecord)
  | mergeGone (record : IntegrationRecord)
  | headMatches (record : IntegrationRecord)
  | refreshTarget (record : IntegrationRecord) (featureSha : String)
  | targetLanded (record : IntegrationRecord) (featureSha : String) (refresh : Option Refresh)
  | targetIsAncestor (record : IntegrationRecord) (featureSha : String) (refresh : Option Refresh)
  | landing (record : IntegrationRecord) (featureSha : String) (refresh : Option Refresh) (call : Call Commit)
  | verifyMarkers (record : IntegrationRecord) (refresh : Option Refresh) (verdict : Verdict)
  | verifyHead (record : IntegrationRecord) (refresh : Option Refresh) (verdict : Verdict)
  | clearRecord (outcome : RebaseState)
  | returned (outcome : Option RebaseState)
  deriving DecidableEq

def recordRetained (reason target : String) : RebaseState :=
  { recordSkip reason (some target) with recoveryRecordRetained := true }

def notRestored (record : IntegrationRecord) : Recovery :=
  .returned (some (recordRetained "recovery: feature branch not restored, record retained for retry" record.target))

def recovered (record : IntegrationRecord) (reason : Option String) (fastForwarded : Bool) : RebaseState :=
  { lastAction := some .recovered, lastReason := reason, lastTarget := some record.target, fastForwarded }

def restored (record : IntegrationRecord) : RebaseState :=
  recovered record
    (some (if record.operationKind = .targetReconcile ∧ record.owningWorktree.isSome then
        "restored target worktree after interrupted reconciliation"
      else "restored feature branch after interrupted rebase")) false

def continueFastForward (ws : Workspace) (record : IntegrationRecord) : Recovery :=
  match record.integratedFeatureSha with
  | none => .clearRecord (recordSkip "recovery: malformed integrated record" (some record.target))
  | some featureSha =>
    if ws.configured then .refreshTarget record featureSha else .targetLanded record featureSha none

def reconcile (ws : Workspace) (record : IntegrationRecord) (abortFailed : Bool) : Recovery :=
  match record.phase with
  | .integrating =>
    if record.operationKind = .targetReconcile ∧ record.owningWorktree.isSome then .targetSha record abortFailed
    else .resetHard record abortFailed
  | .integrated =>
    if abortFailed then
      .returned (some (recordRetained "recovery: owned merge not proven aborted, record retained for retry" record.target))
    else continueFastForward ws record

def afterRefresh (record : IntegrationRecord) (featureSha : String) (refresh : Refresh) : Recovery :=
  if refreshOutcomeIsHealthy (some refresh) then .targetLanded record featureSha (some refresh)
  else
    .returned (some (recordRefresh
      (recordRetained "recovery: target pointer could not be refreshed, record retained for retry" record.target) refresh))

def violated (record : IntegrationRecord) (refresh : Option Refresh) : Recovery :=
  .returned (some (recordRefresh
    (recordRetained "recovery: terminal-state invariant violated; record retained for retry" record.target) refresh))

def settle (record : IntegrationRecord) (refresh : Option Refresh) : Verdict → Recovery
  | .landed => .clearRecord (recordRefresh (recovered record none true) refresh)
  | .raised text =>
    .returned (some (recordRefresh
      (recordRetained s!"recovery: fast-forward raised: {text}; record retained for retry" record.target) refresh))
  | .refused reason =>
    if Text.containsText "advanced concurrently" reason then
      .clearRecord (recordRefresh (recordSkip s!"recovery: {reason}" (some record.target)) refresh)
    else
      .returned (some (recordRefresh
        (recordRetained s!"recovery: {reason}; record retained for retry" record.target) refresh))

def landed (record : IntegrationRecord) (featureSha : String) (refresh : Option Refresh) (text : String) :
    Call Commit → Recovery
  | .returned true _ => .verifyMarkers record refresh .landed
  | .returned false reason => .verifyMarkers record refresh (.refused reason)
  | .raised => .verifyMarkers record refresh (.raised text)
  | call => .landing record featureSha refresh call

namespace Recovery

section Commands

variable [Preorder Commit] [DecidableLE Commit] (ws : Workspace) (repo : Repository) (disk : Option IntegrationRecord)

def effect : Recovery → Repository × Option IntegrationRecord
  | .removeStateDir => (repo.forgetRebase ws.root, disk)
  | .abortUnowned => (repo.abortRebase ws.root, disk)
  | .unownedMerge => (repo.abortMerge ws.root, disk)
  | .abortRebase record => (repo.abortRebase (operationRoot ws record), disk)
  | .abortMerge record _ => (repo.abortMerge (operationRoot ws record), disk)
  | .resetHard record _ => (repo.resetHard (operationRoot ws record) ⟨record.preFeatureSha⟩, disk)
  | .clearRecord _ => (repo, none)
  | _ => (repo, disk)

def raised (text : String) : Recovery → Recovery
  | .stateDirIntact | .removeStateDir | .abortUnowned | .unownedMerge =>
    .returned (some (recordSkip s!"recovery: stale unowned rebase state could not be reclaimed: {text}" none))
  | .rebaseInProgress record | .abortRebase record => .mergeState record true
  | .mergeState record _ | .abortMerge record _ | .mergeStateAfterAbort record _ => reconcile ws record true
  | .targetSha record _ =>
    .returned (some (recordRetained s!"recovery: could not read target: {text}, record retained for retry" record.target))
  | .resetHard record _ | .headMatches record => notRestored record
  | .refreshTarget record featureSha => afterRefresh record featureSha .unreachable
  | .verifyHead record refresh _ => violated record refresh
  | _ => .returned (some (recordSkip s!"recovery failed: {text}" none))

def afterTargetSha (record : IntegrationRecord) (abortFailed : Bool) (targetSha : Option String) : Recovery :=
  if targetSha = record.preTargetSha then .resetHard record abortFailed
  else
    .returned (some (recordRetained "recovery: target moved during reconciliation, record retained for retry" record.target))

def afterAncestry (record : IntegrationRecord) (featureSha : String) (refresh : Option Refresh) (ancestor : Bool) : Recovery :=
  if ancestor then .landing record featureSha refresh .gateObserve
  else
    .clearRecord (recordRefresh (recordSkip "recovery: target advanced concurrently" (some record.target)) refresh)

def afterReset (record : IntegrationRecord) (abortFailed : Bool) : Recovery :=
  if abortFailed then notRestored record else .rebaseGone record

def worked : Recovery → Recovery
  | .readRecord =>
    match disk with
    | none => .blockingMarkers
    | some record => .rebaseInProgress record
  | .blockingMarkers => if (repo.checkouts ws.root).idle then .returned none else .stateDirIntact
  | .stateDirIntact => if (repo.checkouts ws.root).rebase.isSome then .abortUnowned else .unownedMerge
  | .removeStateDir | .abortUnowned => .unownedMerge
  | .unownedMerge =>
    .returned (some { lastAction := some .recovered,
                      lastReason := some "reclaimed stale unowned rebase/merge state (no ownership record, clean worktree)" })
  | .rebaseInProgress record =>
    if (repo.checkouts (operationRoot ws record)).rebase.isSome then .abortRebase record else .mergeState record false
  | .abortRebase record => .mergeState record false
  | .mergeState record abortFailed =>
    if (repo.checkouts (operationRoot ws record)).merge then .abortMerge record abortFailed
    else reconcile ws record abortFailed
  | .abortMerge record abortFailed =>
    if (repo.checkouts (operationRoot ws record)).merge then reconcile ws record abortFailed
    else .mergeStateAfterAbort record abortFailed
  | .mergeStateAfterAbort record abortFailed =>
    reconcile ws record (abortFailed || (repo.checkouts (operationRoot ws record)).merge)
  | .targetSha record abortFailed => afterTargetSha record abortFailed ((repo.tips record.target).map Commit.sha)
  | .resetHard record abortFailed => afterReset record abortFailed
  | .rebaseGone record =>
    if (repo.checkouts (operationRoot ws record)).rebase.isSome then notRestored record else .mergeGone record
  | .mergeGone record =>
    if (repo.checkouts (operationRoot ws record)).merge then notRestored record else .headMatches record
  | .headMatches record =>
    if repo.headCommit (operationRoot ws record) = some ⟨record.preFeatureSha⟩ then .clearRecord (restored record)
    else notRestored record
  | .refreshTarget record featureSha =>
    afterRefresh record featureSha (if (repo.tips record.target).isSome then .localFleet else .disabled)
  | .targetLanded record featureSha refresh =>
    if repo.tips record.target = some ⟨featureSha⟩ then
      .clearRecord (recordRefresh (recovered record (some "already fast-forwarded") true) refresh)
    else .targetIsAncestor record featureSha refresh
  | .targetIsAncestor record featureSha refresh =>
    afterAncestry record featureSha refresh
      (match repo.tips record.target with
        | none => false
        | some tip => decide (tip ≤ ⟨featureSha⟩))
  | .verifyMarkers record refresh verdict =>
    if (repo.checkouts ws.root).idle then
      match verdict with
      | .refused _ => .verifyHead record refresh verdict
      | _ => settle record refresh verdict
    else violated record refresh
  | .verifyHead record refresh verdict =>
    if repo.headCommit ws.root = some ⟨record.preFeatureSha⟩ then settle record refresh verdict
    else violated record refresh
  | .clearRecord outcome => .returned (some outcome)
  | pc => pc

def failed (text : String) : Recovery → Recovery
  | .readRecord => .blockingMarkers
  | .blockingMarkers => .returned none
  | .stateDirIntact => .removeStateDir
  | .mergeState record abortFailed => .abortMerge record abortFailed
  | .abortMerge record abortFailed => .mergeStateAfterAbort record abortFailed
  | .targetSha record abortFailed => afterTargetSha record abortFailed none
  | .resetHard record abortFailed => afterReset record abortFailed
  | .mergeGone record => notRestored record
  | .refreshTarget record featureSha => afterRefresh record featureSha .disabled
  | .targetLanded record featureSha refresh => .targetIsAncestor record featureSha refresh
  | .targetIsAncestor record featureSha refresh => afterAncestry record featureSha refresh false
  | .verifyMarkers record refresh verdict => settle record refresh verdict
  | pc => pc.raised ws text

def next (answer : Answer) (text : String) (pc : Recovery) : Option (Repository × Option IntegrationRecord × Recovery) :=
  match pc, answer with
  | .returned _, _ => none
  | .landing record featureSha refresh call, _ =>
    (call.next ws.reclaimTargetWorktree ⟨featureSha⟩ (repo.tips record.target) answer).map fun (ref, call) =>
      (repo.setTip record.target ref, disk, landed record featureSha refresh text call)
  | _, .works => some ((pc.effect ws repo disk).1, (pc.effect ws repo disk).2, pc.worked ws repo disk)
  | _, .fails => some (repo, disk, pc.failed ws text)
  | _, .raises true => some ((pc.effect ws repo disk).1, (pc.effect ws repo disk).2, pc.raised ws text)
  | _, .raises false => some (repo, disk, pc.raised ws text)
  | _, _ => none

end Commands

end Recovery

/-! ## Attempts -/

/-- Between the two writes of the record an attempt may change the worktree in any order. -/
inductive AttemptPoint
  | recording (record : IntegrationRecord)
  | working (record : IntegrationRecord)
  | flipping (record : IntegrationRecord)
  | landing (record : IntegrationRecord) (featureSha : String) (call : Call Commit)
  /-- The record is about to be cleared. -/
  | ending
  deriving DecidableEq

inductive Work
  | change (change : Repository.Change)
  | setResolving (resolving : Bool)
  /-- The rebase or merge is complete, and the new `HEAD` is read. -/
  | complete
  | giveUp
  deriving DecidableEq

/-! ## The system -/

inductive Process
  | none
  | attempt (point : AttemptPoint)
  | recovery (pc : Recovery)
  deriving DecidableEq

/-- The repository, the record and the process at work, with the last attempt's branch and worktree. -/
structure State where
  repo : Repository
  record : Option IntegrationRecord := none
  process : Process := .none
  branch : String := ""
  worktree : String

inductive Action
  /-- An attempt is started in a worktree with its branch checked out. -/
  | integrate (target : String)
  | reconcile (worktree target : String)
  | work (work : Work)
  | command (answer : Answer) (text : String)
  /-- The process is killed, or done. -/
  | stop
  | recover
  | checkout (worktree name : String)
  /-- Someone else moves another branch. -/
  | moveBranch (name : String) (commit : Commit)
  deriving DecidableEq

namespace State

def begin (s : State) (ws : Workspace) (worktree branch : String) (record : Commit → IntegrationRecord) : Option State :=
  if s.process = .none ∧ s.record = none ∧ (s.repo.checkouts ws.root).idle = true ∧
      (s.repo.checkouts worktree).idle = true ∧ (s.repo.checkouts worktree).head = .branch branch then
    (s.repo.tips branch).map fun tip =>
      { s with process := .attempt (.recording (record tip)), branch, worktree }
  else none

def integrate (s : State) (ws : Workspace) (target : String) : Option State :=
  match (s.repo.checkouts ws.root).head with
  | .detached _ => none
  | .branch branch =>
    if branch = target then none
    else
      s.begin ws ws.root branch fun tip =>
        { phase := .integrating, target, preFeatureSha := tip.sha, preTargetSha := (s.repo.tips target).map Commit.sha }

def reconcile (s : State) (ws : Workspace) (worktree target : String) : Option State :=
  s.begin ws worktree target fun tip =>
    { phase := .integrating, target, preFeatureSha := tip.sha, preTargetSha := some tip.sha,
      operationKind := .targetReconcile, owningWorktree := some worktree }

/-- What `working` allows. Only the integration of a feature goes on to a landing. -/
def work (s : State) (record : IntegrationRecord) : Work → Option State
  | .change change => (s.repo.apply s.worktree change).map fun repo => { s with repo }
  | .setResolving resolving =>
    s.record.map fun current => { s with record := some { current with resolvingRebase := resolving } }
  | .complete =>
    if record.operationKind = .featureIntegrate ∧ (s.repo.checkouts s.worktree).idle = true then
      (s.repo.headCommit s.worktree).map fun tip =>
        { s with process := .attempt (.flipping
                   { record with phase := .integrated, integratedFeatureSha := some tip.sha }) }
    else none
  | .giveUp => some { s with process := .attempt .ending }

section Commands

variable [Preorder Commit] [DecidableLE Commit] (ws : Workspace)

def afterLanding (record : IntegrationRecord) (featureSha : String) : Call Commit → AttemptPoint
  | .returned .. | .raised => .ending
  | call => .landing record featureSha call

def attemptCommand (s : State) (answer : Answer) : AttemptPoint → Option State
  | .recording record =>
    match answer with
    | .works => some { s with record := some record, process := .attempt (.working record) }
    | .raises true => some { s with record := some record, process := .attempt .ending }
    | .raises false => some { s with process := .attempt .ending }
    | _ => none
  | .working _ => none
  | .flipping record =>
    match answer with
    | .works =>
      some { s with record := some record
                    process := .attempt (match record.integratedFeatureSha with
                      | none => .ending
                      | some featureSha => .landing record featureSha .gateObserve) }
    | .raises true => some { s with record := some record, process := .attempt .ending }
    | .raises false => some { s with process := .attempt .ending }
    | _ => none
  | .landing record featureSha call =>
    (call.next ws.reclaimTargetWorktree ⟨featureSha⟩ (s.repo.tips record.target) answer).map fun (ref, call) =>
      { s with repo := s.repo.setTip record.target ref, process := .attempt (afterLanding record featureSha call) }
  | .ending =>
    match answer with
    | .works | .raises true => some { s with record := none, process := .none }
    | .fails | .raises false => some { s with process := .none }
    | _ => none

def command (s : State) (answer : Answer) (text : String) : Option State :=
  match s.process with
  | .none => none
  | .attempt point => s.attemptCommand ws answer point
  | .recovery pc =>
    (pc.next ws s.repo s.record answer text).map fun (repo, record, pc) =>
      { s with repo, record, process := .recovery pc }

def step (s : State) : Action → Option State
  | .integrate target => s.integrate ws target
  | .reconcile worktree target => s.reconcile ws worktree target
  | .work work =>
    match s.process with
    | .attempt (.working record) => s.work record work
    | _ => none
  | .command answer text => s.command ws answer text
  | .stop => some { s with process := .none }
  | .recover => if s.process = .none then some { s with process := .recovery .readRecord } else none
  | .checkout worktree name =>
    if s.process = .none then (s.repo.checkout worktree name).map fun repo => { s with repo } else none
  | .moveBranch name commit =>
    if name ≠ s.branch then some { s with repo := s.repo.setTip name (some commit) } else none

end Commands

end State

end RalphWorkflow.Pipeline.AutoIntegrate.CrashRecovery
