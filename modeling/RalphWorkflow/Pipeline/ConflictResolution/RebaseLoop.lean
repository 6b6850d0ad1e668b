import Mathlib.Data.List.Dedup
import RalphWorkflow.Git.RebaseContinuation

/-! `resolve_rebase_in_progress` of `ralph/pipeline/conflict_resolution/rebase_loop.py`, with `route_after_stop` of `graph.py` and
the sidecar functions of `progress.py`. The `while` loop runs on fuel and answers `none` when it runs out. -/
namespace RalphWorkflow.Pipeline.ConflictResolution
open Lib Git

variable (answers : Answers)

/-! ## The state of the rebase -/

def readRebaseStateSha : List String → Loop (Option String)
  | [] => pure none
  | relative :: rest => do
    let result ← ask answers (.statePath relative)
    if result.returncode ≠ 0 then pure none
    else do
      match ← ask answers (.stateText (Text.strip result.stdout)) with
      | none => readRebaseStateSha rest
      | some text => if Text.strip text = "" then readRebaseStateSha rest else pure (some (Text.strip text))

def rebaseBaseSha : Loop (Option String) := readRebaseStateSha answers ["rebase-merge/onto", "rebase-apply/onto"]

def rebaseOrigHeadSha : Loop (Option String) :=
  readRebaseStateSha answers ["rebase-merge/orig-head", "rebase-apply/orig-head"]

def currentRebaseIdentity : Loop (Option String × Option String) := do
  let origHead ← rebaseOrigHeadSha answers
  let onto ← rebaseBaseSha answers
  pure (origHead, onto)

def readReplayProgress : List (String × String) → Loop (Option (Int × Int))
  | [] => pure none
  | (currentFile, totalFile) :: rest => do
    let current ← ask answers (.stateInt currentFile)
    let total ← ask answers (.stateInt totalFile)
    match current, total with
    | some current, some total =>
      if total ≥ 1 ∧ 1 ≤ current ∧ current ≤ total then pure (some (current, total)) else readReplayProgress rest
    | _, _ => readReplayProgress rest

def rebaseProgressFiles : List (String × String) :=
  [("rebase-merge/msgnum", "rebase-merge/end"), ("rebase-apply/next", "rebase-apply/last")]

def revParseRebaseHead : Loop String := do
  let result ← ask answers .revParseRebaseHead
  pure (if result.returncode ≠ 0 then "" else Text.strip result.stdout)

def rebaseHeadSubject : Loop String := do
  let result ← ask answers .rebaseHeadSubject
  pure (if result.returncode ≠ 0 then "(subject unavailable)"
    else firstText [Text.strip result.stdout] "(subject unavailable)")

/-! ## The sidecar -/

def loadProgressForRebase (featureSha targetSha : Option String) : Loop (Option RebaseResolutionProgress) := do
  match ← ask answers .loadProgress with
  | none => pure none
  | some progress =>
    if progress.describesRebase featureSha targetSha then pure (some progress)
    else do
      ask answers .clearProgress
      pure none

def isAtTheFirstReplay : Loop Bool := do
  let position ← readReplayProgress answers rebaseProgressFiles
  pure (position.any fun position => position.1 = 1)

def landedShasAtEntry : Loop (List String) := do
  let (featureSha, targetSha) ← currentRebaseIdentity answers
  match ← loadProgressForRebase answers featureSha targetSha with
  | none => pure []
  | some progress => do
    let restarted ← (if progress.landedShas = [] then pure false else isAtTheFirstReplay answers)
    if restarted then do
      ask answers .clearProgress
      pure []
    else pure progress.landedShas

def recordLandedStop (stop : RebaseStop) : Loop Unit := do
  match ← currentRebaseIdentity answers with
  | (some featureSha, some targetSha) => do
    let progress ← loadProgressForRebase answers (some featureSha) (some targetSha)
    let progress := progress.getD {}
    ask answers (.saveProgress { progress with
      landedShas := if stop.sha ∈ progress.landedShas then progress.landedShas else progress.landedShas ++ [stop.sha]
      remainingPaths := stop.conflictedFiles
      featureSha := some featureSha
      targetSha := some targetSha })
  | _ => ask answers .clearProgress

/-! ## One stop -/

def both (x y : Loop Bool) : Loop Bool := do
  if ← x then y else pure false

def readStop (stopIndex : Nat) (stopCap : Int) : Loop (Option RebaseStop) := do
  let sha ← revParseRebaseHead answers
  if sha = "" then pure none
  else do
    let conflicted ← ask answers .conflictedFiles
    if conflicted = [] then pure none
    else do
      let progress ← readReplayProgress answers rebaseProgressFiles
      let subject ← rebaseHeadSubject answers
      pure (some { sha, subject, conflictedFiles := conflicted, stopIndex, stopCap, replayIndex := progress.map Prod.fst,
                   replayTotal := progress.map Prod.snd })

def isRalphWorkspacePath (path : String) : Bool :=
  let chars := (Text.strip path).toList
  let normalised := if "./".toList.isPrefixOf chars then chars.drop 2 else chars
  normalised = ".agent".toList || ".agent/".toList.isPrefixOf normalised

def touchedNothingUnexpected (stop : RebaseStop) (before : List String) : Loop Bool := do
  match ← ask answers .worktreeDirtyPaths with
  | none => pure false
  | some after =>
    let unexpected := Text.sortedText ((after.filter fun path =>
      !before.contains path && !stop.conflictedFiles.contains path && !isRalphWorkspacePath path).dedup)
    if unexpected = [] then pure true else ask answers (.revertUnrequestedPaths unexpected)

/-- The paths are staged, no marker survives in them or in the index, and nothing is unmerged. -/
def stageAndProve (stop : RebaseStop) : Loop Bool := do
  let staged ← ask answers (.stagePaths stop.conflictedFiles)
  if staged = false then pure false
  else do
    let inPaths ← ask answers (.pathsWithConflictMarkers stop.conflictedFiles)
    let inIndex ← ask answers .stagedConflictMarkerPaths
    if inPaths ++ inIndex ≠ [] then pure false
    else do
      let remaining ← ask answers .unmergedPaths
      pure (remaining = [])

def advancedToANewStop (stop : RebaseStop) : Loop Bool := do
  let inProgress ← ask answers .rebaseInProgress
  if inProgress = false then pure false
  else do
    let current ← revParseRebaseHead answers
    pure (current ≠ "" && current ≠ stop.sha)

def isLineBreak (c : Char) : Bool :=
  let n := c.toNat
  (10 ≤ n && n ≤ 13) || (28 ≤ n && n ≤ 30) || n == 0x85 || n == 0x2028 || n == 0x2029

def subjectLines (text : String) : List String :=
  (text.toList.splitOnP isLineBreak).map fun line => Text.strip (String.ofList line)

def replayProducedNothing (stop : RebaseStop) : Loop Bool := do
  let result ← ask answers .replayedSubjects
  if result.returncode ≠ 0 || stop.subject = "" || Text.strip result.stdout = "" then pure false
  else pure (!(subjectLines result.stdout).contains stop.subject)

def handleContinuation (stop : RebaseStop) : Exc → Loop Bool
  | .emptyReplay => pure false
  | .noRebaseInProgress => do
    recordLandedStop answers stop
    pure true
  | .conflictRemaining | .rebaseContinuation _ => do
    let advanced ← advancedToANewStop answers stop
    if advanced then do
      recordLandedStop answers stop
      pure true
    else pure false
  | exc => throw exc

def attemptContinue (skipEmpty : Bool) : Loop (Option Exc) :=
  tryCatch (do
    continueRebaseAt answers skipEmpty
    pure none) fun exc => pure (some exc)

def continuePast (stop : RebaseStop) : Loop Bool := do
  match ← attemptContinue answers false with
  | some exc => handleContinuation answers stop exc
  | none => do
    let nothing ← replayProducedNothing answers stop
    if nothing then pure false
    else do
      recordLandedStop answers stop
      pure true

def stopIsGenuinelyStaged : Loop Bool := do
  let inProgress ← ask answers .rebaseInProgress
  if inProgress = false then pure false
  else do
    let head ← revParseRebaseHead answers
    if head = "" then pure false
    else do
      let unmerged ← ask answers .unmergedPaths
      if (unmerged.filter (· ≠ "<unmerged-path-query-failed>")) ≠ [] then pure false
      else do
        let staged ← ask answers .stagedPaths
        let inPaths ← ask answers (.pathsWithConflictMarkers staged)
        let inIndex ← ask answers .stagedConflictMarkerPaths
        pure (inPaths ++ inIndex = [])

def continueAlreadyStagedStop : Loop Bool := do
  let staged ← stopIsGenuinelyStaged answers
  if staged = false then pure false
  else do
    match ← attemptContinue answers true with
    | none => pure true
    | some .noRebaseInProgress => pure true
    | some exc => if exc.isRebaseContinuation then pure false else throw exc

def resolveByResolver (target : String) (stop : RebaseStop) (before : List String) : Loop Bool := do
  let resolved ← ask answers (.resolver target stop)
  if resolved = false then pure false
  else
    both (touchedNothingUnexpected answers stop before)
      (both (stageAndProve answers stop)
        (both (ask answers (.removeOrtResidue stop.conflictedFiles)) (continuePast answers stop)))

/-- A stop that has not landed: the deterministic resolution, and the resolver when that does not hold up. -/
def resolveStop (target : String) (stop : RebaseStop) : Loop Bool := do
  match ← ask answers .worktreeDirtyPaths with
  | none => pure false
  | some before => do
    let attempted ← ask answers (.tryDeterministicResolution stop)
    let landed ← (if attempted then both (stageAndProve answers stop) (continuePast answers stop) else pure false)
    if landed then pure true else resolveByResolver answers target stop before

/-- Whether the stop landed, and the landed SHAs of the sidecar that were skipped so far. -/
def resolveOneStop (target : String) (stopIndex : Nat) (stopCap : Int) (entryLanded skipped : List String) : Loop (Bool × List String) := do
  match ← readStop answers stopIndex stopCap with
  | none => do
    let continued ← continueAlreadyStagedStop answers
    pure (continued, skipped)
  | some stop =>
    if stop.sha ∈ entryLanded ∧ stop.sha ∉ skipped then do
      let continued ← continuePast answers stop
      pure (continued, stop.sha :: skipped)
    else do
      let landed ← resolveStop answers target stop
      pure (landed, skipped)

/-! ## The loop -/

inductive Route
  | resolution | resolved | abandoned
  deriving DecidableEq

def routeAfterStop (stopsSpent : Nat) (resolved : Bool) (cap : Int) : Route :=
  if resolved then .resolved
  else if (stopsSpent : Int) ≥ cap then .abandoned
  else .resolution

/-- The `while` loop of `_resolve_stops`, with the stops spent and the SHAs skipped so far. -/
def resolveLoop (target base : String) (stopCap : Int) (entryLanded : List String) : Nat → Nat → List String → Loop (Option Bool)
  | 0, _, _ => pure none
  | fuel + 1, spent, skipped => do
    let inProgress ← ask answers .rebaseInProgress
    if inProgress = false then some <$> verifyRebaseCompletedAt answers base
    else do
      beginPass
      let (landed, skippedNow) ← resolveOneStop answers target (spent + 1) stopCap entryLanded skipped
      if landed = false then pure (some false)
      else if skipped.length < skippedNow.length then
        resolveLoop target base stopCap entryLanded fuel spent skippedNow
      else do
        let inProgress ← ask answers .rebaseInProgress
        match routeAfterStop (spent + 1) (!inProgress) stopCap with
        | .resolved => some <$> verifyRebaseCompletedAt answers base
        | .abandoned => pure (some false)
        | .resolution => resolveLoop target base stopCap entryLanded fuel (spent + 1) skippedNow

def resolveStops (target : String) (stopCap : Int) (fuel : Nat) : Loop (Option Bool) := do
  let onto ← rebaseBaseSha answers
  let entryLanded ← landedShasAtEntry answers
  resolveLoop answers target (onto.getD target) stopCap entryLanded.dedup fuel 0 []

def configuredStopCap (session : Option Int) (fallback : Int) : Int :=
  match session with
  | some cap => if 0 < cap then cap else fallback
  | none => fallback

def resolveRebaseInProgress (target : String) (stopCap : Int) (session : Option Int) (fuel : Nat) : Loop (Option Bool) :=
  tryCatch (resolveStops answers target (configuredStopCap session stopCap) fuel) fun _ => pure (some false)

end RalphWorkflow.Pipeline.ConflictResolution
