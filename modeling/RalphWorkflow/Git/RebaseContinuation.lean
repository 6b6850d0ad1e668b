import RalphWorkflow.Lib.Effect
import RalphWorkflow.Lib.Text

/-! `continue_rebase_at` and `verify_rebase_completed_at` of `ralph/git/rebase/rebase_continuation.py`. Each call of git, the files and the
resolvers may answer anything or raise, and is kept in a log, newest entry first. -/
namespace RalphWorkflow.Git
open Lib

/-- A finished git command; `failure` is the text of its `CalledProcessError`. -/
structure GitResult where
  returncode : Int := 0
  stdout : String := ""
  stderr : String := ""
  failure : String := ""
  deriving DecidableEq

/-- The exceptions that handlers tell apart. The first four are `RebaseContinuationError`s. -/
inductive Exc
  | noRebaseInProgress
  | conflictRemaining
  | emptyReplay
  | rebaseContinuation (text : String)
  | rebaseVerification (text : String)
  | other (text : String)
  deriving DecidableEq

def Exc.isRebaseContinuation : Exc → Bool
  | .noRebaseInProgress | .conflictRemaining | .emptyReplay | .rebaseContinuation _ => true
  | _ => false

structure RebaseStop where
  sha : String
  subject : String
  conflictedFiles : List String
  stopIndex : Nat
  stopCap : Int
  replayIndex : Option Int := none
  replayTotal : Option Int := none
  deriving DecidableEq

structure RebaseResolutionProgress where
  landedShas : List String := []
  remainingPaths : List String := []
  featureSha : Option String := none
  targetSha : Option String := none
  stageOids : List (List String) := []
  deriving DecidableEq

def RebaseResolutionProgress.describesRebase (progress : RebaseResolutionProgress) (featureSha targetSha : Option String) : Bool :=
  featureSha.isSome && targetSha.isSome && progress.featureSha = featureSha && progress.targetSha = targetSha

inductive Query
  | rebaseInProgress | indexConflicts | rebaseContinue | rebaseSkip | headDetached
  | commitKnown (revision : String)
  | isAncestor (revision : String)
  | revParseRebaseHead | rebaseHeadSubject | conflictedFiles | replayedSubjects
  | statePath (relative : String)
  | stateText (path : String)
  | stateInt (relative : String)
  | loadProgress | clearProgress
  | saveProgress (progress : RebaseResolutionProgress)
  | worktreeDirtyPaths
  | revertUnrequestedPaths (paths : List String)
  | tryDeterministicResolution (stop : RebaseStop)
  | resolver (target : String) (stop : RebaseStop)
  | stagePaths (paths : List String)
  | pathsWithConflictMarkers (paths : List String)
  | stagedConflictMarkerPaths | stagedPaths | unmergedPaths
  | removeOrtResidue (paths : List String)
  deriving DecidableEq

/-- A file that cannot be read, and dirty paths that cannot be listed, answer `none`. -/
@[reducible] def Query.Answer : Query → Type
  | .rebaseInProgress | .indexConflicts | .headDetached | .commitKnown _ => Bool
  | .rebaseContinue | .rebaseSkip | .isAncestor _ => GitResult
  | .revParseRebaseHead | .rebaseHeadSubject | .replayedSubjects | .statePath _ => GitResult
  | .conflictedFiles => List String
  | .stateText _ => Option String
  | .stateInt _ => Option Int
  | .loadProgress => Option RebaseResolutionProgress
  | .clearProgress | .saveProgress _ => Unit
  | .worktreeDirtyPaths => Option (List String)
  | .revertUnrequestedPaths _ | .tryDeterministicResolution _ | .resolver _ _ => Bool
  | .stagePaths _ | .removeOrtResidue _ => Bool
  | .pathsWithConflictMarkers _ | .stagedConflictMarkerPaths | .stagedPaths | .unmergedPaths => List String

inductive Act
  | pass
  | asked (query : Query) (answer : Except Exc query.Answer)

abbrev Answers := List Act → (query : Query) → Except Exc query.Answer

abbrev Loop := EStateM Exc (List Act)

def ask (answers : Answers) (query : Query) : Loop query.Answer := fun log =>
  match answers log query with
  | .ok answer => .ok answer (.asked query (.ok answer) :: log)
  | .error exc => .error exc (.asked query (.error exc) :: log)

def beginPass : Loop Unit := fun log => .ok () (.pass :: log)

variable (answers : Answers)

def isEmptyRebaseStop (result : GitResult) : Bool :=
  let payload := (result.stderr.toList ++ '\n' :: result.stdout.toList).map Char.toLower
  Text.containsChars "nothing to commit".toList payload || Text.containsChars "is empty".toList payload

def firstText (texts : List String) (last : String) : String := (texts.find? (· ≠ "")).getD last

def continuationFailure (result : GitResult) (last : String) : Exc :=
  .rebaseContinuation s!"Failed to continue rebase: {firstText [Text.strip result.stderr, Text.strip result.stdout] last}"

def maxEmptySkipAttempts : Nat := 20

def skipEmptied : Nat → Loop Unit
  | 0 => throw (.rebaseContinuation "Failed to continue rebase: empty commit skip limit exceeded")
  | left + 1 => do
    let skipped ← ask answers .rebaseSkip
    let inProgress ← ask answers .rebaseInProgress
    if inProgress = false then pure ()
    else if skipped.returncode ≠ 0 && !isEmptyRebaseStop skipped then
      throw (continuationFailure skipped "git rebase --skip failed")
    else do
      let result ← ask answers .rebaseContinue
      if result.returncode = 0 then pure ()
      else if isEmptyRebaseStop result = false then throw (continuationFailure result result.failure)
      else do
        let inProgress ← ask answers .rebaseInProgress
        if inProgress = false then pure () else skipEmptied left

def continueRebaseAt (skipEmpty : Bool) : Loop Unit := do
  let inProgress ← ask answers .rebaseInProgress
  if inProgress = false then throw .noRebaseInProgress
  else do
    let conflicts ← ask answers .indexConflicts
    if conflicts then throw .conflictRemaining
    else do
      let result ← ask answers .rebaseContinue
      if result.returncode = 0 then pure ()
      else do
        -- A stop that does not read as an empty one is not asked about again.
        let paused ← (if isEmptyRebaseStop result then ask answers .rebaseInProgress else pure false)
        if paused = false then throw (continuationFailure result result.failure)
        else if skipEmpty = false then throw .emptyReplay
        else skipEmptied answers maxEmptySkipAttempts

def verifyRebaseCompletedAt (upstream : String) : Loop Bool := do
  let inProgress ← ask answers .rebaseInProgress
  if inProgress then pure false
  else do
    let conflicts ← tryCatch (ask answers .indexConflicts) fun exc =>
      if exc.isRebaseContinuation then throw (.rebaseVerification "Unable to inspect index for conflicts") else throw exc
    if conflicts then pure false
    else do
      let detached ← ask answers .headDetached
      if detached then throw (.rebaseVerification "Repository HEAD is detached")
      else do
        let known ← ask answers (.commitKnown upstream)
        if known = false then throw (.rebaseVerification "Upstream branch is invalid")
        else do
          let result ← ask answers (.isAncestor upstream)
          if result.returncode = 0 then pure true
          else if result.returncode = 1 then pure false
          else
            throw (.rebaseVerification
              s!"git merge-base failed: {firstText [Text.strip result.stderr] (Text.strip result.stdout)}")

end RalphWorkflow.Git
