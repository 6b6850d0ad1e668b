import RalphWorkflow.Lib.Dict
import RalphWorkflow.Pipeline.ConflictResolution.Round

/-! `_prepare_conflicted_paths`, `_paths_still_unresolved` and `_run_rounds` of `ralph/pipeline/conflict_resolution/driver.py`, with
`begin_resolution_stop` of `session.py`, the verdicts of `round_verdict.py` and the routing of `graph.py`. -/
namespace RalphWorkflow.Pipeline.ConflictResolution
open Lib

/-! ## Conflicts on sight

`ralph/pipeline/conflict_resolution/sight.py`: what can be done with an unmerged path, from its index stages and its file; and the scans of the
worktree, of `ralph/git/merge.py` and `round_verdict.py`. -/

/-! ## The worktree -/

inductive FileState
  | missing
  /-- There is something at the path, and reading it raises `OSError`. -/
  | unreadable
  | holds (content : List UInt8)
  deriving DecidableEq

structure Worktree where
  file : String → FileState
  /-- `conflict_marker_sizes`: what git answers for a path. -/
  markerSize : String → Option Int := fun _ => none

namespace Worktree

def present (tree : Worktree) (path : String) : Bool := tree.file path != .missing

def isSpaceByte (byte : UInt8) : Bool := (9 ≤ byte && byte ≤ 13) || byte == 32

def effectivelyEmpty (tree : Worktree) (path : String) : Bool :=
  match tree.file path with
  | .holds content => content.all isSpaceByte
  | _ => false

def binary (tree : Worktree) (path : String) : Bool :=
  match tree.file path with
  | .holds content => content.contains 0
  | _ => false

end Worktree

/-! ## Markers -/

def defaultMarkerSize : Int := 7

/-- A line that begins with at least `width` of the fence character, and then has a blank or nothing. -/
def opensFence (fence : Char) (width : Nat) (line : List Char) : Bool :=
  let rest := line.dropWhile (· == fence)
  decide (width ≤ line.length - rest.length) &&
    (match rest with
      | [] => true
      | c :: _ => c == ' ' || c == '\t')

def isFence (size : Int) (line : List Char) : Bool :=
  let width := (max 1 size).toNat
  opensFence '<' width line || opensFence '>' width line

/-- `_fence_pattern` is built for the size of a path only where that is below the default. -/
def fenceSize (size : Option Int) : Int :=
  match size with
  | some size => if size < defaultMarkerSize then size else defaultMarkerSize
  | none => defaultMarkerSize

/-- `_readable_text(...).splitlines()`, of the bytes of a file; `none` where no encoding fits. -/
abbrev Reader := List UInt8 → Option (List (List Char))

def marked (read : Reader) (tree : Worktree) (path : String) : Bool :=
  match tree.file path with
  | .missing => false
  | .unreadable => true
  | .holds content =>
    match read content with
    | none => true
    | some lines => lines.any (isFence (fenceSize (tree.markerSize path)))

def pathsWithConflictMarkers (read : Reader) (tree : Worktree) (paths : List String) : List String :=
  paths.filter (marked read tree)

/-! ## Classification -/

inductive ConflictSight
  | mechanical | agent | agentDecision | outOfReach
  deriving DecidableEq

structure StageEntry where
  mode : String
  blob : String
  deriving DecidableEq

structure Stages where
  ancestor : Option StageEntry := none
  ours : Option StageEntry := none
  theirs : Option StageEntry := none
  deriving DecidableEq

def gitlinkMode : String := "160000"

def treeMode : String := "040000"

def classifyTwoSidedBlob (oursBlob theirsBlob : String) (hasMarkers : Bool) : ConflictSight :=
  if oursBlob = theirsBlob then .mechanical
  else if hasMarkers then .agent else .agentDecision

def classifyOneSided (present : StageEntry) : ConflictSight :=
  if present.mode = gitlinkMode then .outOfReach else .agentDecision

def classifyGitlink (ours theirs : StageEntry) (ancestor : Option StageEntry) : ConflictSight :=
  match ancestor with
  | some ancestor =>
    if ours.mode = theirs.mode ∧ theirs.mode = gitlinkMode ∧ ancestor.blob = ours.blob ∧ ours.blob = theirs.blob then
      .mechanical
    else .outOfReach
  | none => .outOfReach

def classifyStageMap (stages : Stages) (binary hasMarkers : Bool) : ConflictSight :=
  if binary then .agentDecision
  else match stages.ours, stages.theirs with
    | none, none => .agent
    | some ours, none => classifyOneSided ours
    | none, some theirs => classifyOneSided theirs
    | some ours, some theirs =>
      if (ours.mode == treeMode) != (theirs.mode == treeMode) then .agentDecision
      else if ours.mode = gitlinkMode ∨ theirs.mode = gitlinkMode then classifyGitlink ours theirs stages.ancestor
      else classifyTwoSidedBlob ours.blob theirs.blob hasMarkers

def classifyUnmergedConflicts (read : Reader) (tree : Worktree) (entries : String → Stages) (paths : List String) : Dict String ConflictSight :=
  Dict.ofList (paths.map fun path => (path, classifyStageMap (entries path) (tree.binary path) (marked read tree path)))

/-- The paths of a kind: `out_of_reach_paths`, `declared_decision_paths` and `mechanical_paths`. -/
def pathsOfKind (kind : ConflictSight) (kinds : Dict String ConflictSight) : List String :=
  (kinds.entries.filter fun entry => entry.2 = kind).map Prod.fst

def outOfReachPaths (kinds : Dict String ConflictSight) : List String := pathsOfKind .outOfReach kinds

def declaredDecisionPaths (kinds : Dict String ConflictSight) : List String := pathsOfKind .agentDecision kinds

def mechanicalPaths (kinds : Dict String ConflictSight) : List String := pathsOfKind .mechanical kinds

def stageMechanicalConflicts (added : Bool) (kinds : Dict String ConflictSight) : List String :=
  if (mechanicalPaths kinds).isEmpty then []
  else if added then mechanicalPaths kinds else []

structure RoundWorld where
  /-- `operator_cap_expired` -/
  capExpired : Bool := false
  /-- `render_conflict_prompt` returns a path. -/
  promptWritten : Bool := true
  behaviour : Nat → Nat → Invocation Worktree
  /-- The worktree that the scan after the round reads. -/
  after : Worktree

structure ConflictStop where
  /-- The files of the stop, or those of `unmerged_paths`. -/
  conflictedFiles : List String
  /-- `conflict_stage_entries` -/
  entries : String → Stages
  entry : Worktree
  /-- `git add` of the mechanical paths succeeds. -/
  added : Bool
  read : Reader
  candidates : List String
  maxRetries : Nat
  roundCap : Nat
  /-- By round, the first one is 1. -/
  rounds : Nat → RoundWorld

def beginResolutionStop (session : ResolutionSession) : ResolutionSession :=
  { session with
    chainCursor := 0
    stopDeadSurfaces := []
    outOfReachPaths := []
    currentAgentRetries := 0
    skipSameAgentRetries := false
    lastAttemptSawActivity := false
    terminalReason := none
    chargeConflictBudget := true }

/-! ## Before the first round -/

def queryFailedSentinel : String := "<unmerged-path-query-failed>"

/-- What `_prepare_conflicted_paths` returns, with the session it leaves. -/
structure Prepared where
  remaining : List String := []
  early : Option Bool
  decisions : List String := []
  session : ResolutionSession
  deriving DecidableEq

def escalateUnreachableRemainder (session : ResolutionSession) : ResolutionSession :=
  { session with terminalReason := some .outOfReach, unresolvedPaths := session.outOfReachPaths }

namespace ConflictStop

variable (stop : ConflictStop)

def kinds : Dict String ConflictSight := classifyUnmergedConflicts stop.read stop.entry stop.entries stop.conflictedFiles

def reachable : List String := stop.conflictedFiles.filter fun path => !(outOfReachPaths stop.kinds).contains path

def decisions : List String := (declaredDecisionPaths stop.kinds).filter stop.reachable.contains

def staged : List String := stageMechanicalConflicts stop.added stop.kinds

def remaining : List String := stop.reachable.filter fun path => !stop.staged.contains path

def prepareConflictedPaths (session : ResolutionSession) : Prepared :=
  if stop.conflictedFiles.contains queryFailedSentinel then
    { early := some false
      session := { session with terminalReason := some .outOfReach, unresolvedPaths := stop.conflictedFiles } }
  else if stop.conflictedFiles.isEmpty then { early := some false, session }
  else
    let unreachable := outOfReachPaths stop.kinds
    if !unreachable.isEmpty && stop.reachable.isEmpty then
      { early := some false
        session := { session with outOfReachPaths := [], terminalReason := some .outOfReach, unresolvedPaths := unreachable } }
    else
      let session := { session with outOfReachPaths := unreachable }
      if !stop.remaining.isEmpty then
        { remaining := stop.remaining, early := none, decisions := stop.decisions, session }
      else if !unreachable.isEmpty then { early := some false, session := escalateUnreachableRemainder session }
      else { early := some true, session }

end ConflictStop

/-! ## The evidence on disk -/

def presentAtEntry (entry : Worktree) (conflicted : List String) : List String := conflicted.filter entry.present

def substantiveAtEntry (entry : Worktree) (conflicted : List String) : List String :=
  (presentAtEntry entry conflicted).filter fun path => !entry.effectivelyEmpty path

def pathsStillUnresolved (read : Reader) (tree : Worktree) (conflicted decisions presentBefore substantive : List String) : List String :=
  let marked := pathsWithConflictMarkers read tree conflicted
  let emptied := conflicted.filter fun path =>
    substantive.contains path && !marked.contains path && tree.effectivelyEmpty path
  let vanished := conflicted.filter fun path =>
    presentBefore.contains path && !decisions.contains path && !marked.contains path && !tree.present path
  (marked ++ emptied ++ vanished).foldl addOnce []

/-! ## Verdicts -/

inductive RoundRoute
  | resolved | abandoned | resolution
  deriving DecidableEq

def routeAfterRound (agentRan : Bool) (survivingMarkerPaths : List String) (roundIndex cap : Nat) : RoundRoute :=
  if agentRan && survivingMarkerPaths.isEmpty then .resolved
  else if cap ≤ roundIndex then .abandoned
  else .resolution

def roundTerminationReason (session : ResolutionSession) (invoked : Bool) : TerminationReason :=
  session.terminalReason.getD (if invoked then .resolutionIncomplete else .toolSurfaceDead)

def resetRoundReporting (session : ResolutionSession) : ResolutionSession :=
  if session.terminalReason.any TerminationReason.infrastructure || session.terminalReason == some .exception then session
  else { session with terminalReason := none }

structure RoundReport where
  attempt : RoundAttempt
  log : List (RoundEvent Worktree)
  unresolved : List String

/-- What `_run_rounds` returns, the session, and the rounds it ran, the last one first. -/
structure RoundsResult where
  resolved : Bool
  session : ResolutionSession
  reports : List RoundReport := []

/-! ## The rounds -/

namespace ConflictStop

variable (stop : ConflictStop)

def stillUnresolved (tree : Worktree) : List String :=
  pathsStillUnresolved stop.read tree stop.remaining stop.decisions (presentAtEntry stop.entry stop.remaining)
    (substantiveAtEntry stop.entry stop.remaining)

/-- The round of an index. Its `worktree_resolved` answers no while a decision is to be declared. -/
def players (index : Nat) : Players Worktree where
  candidates := stop.candidates
  maxRetries := stop.maxRetries
  worktreeResolved := fun tree => stop.decisions.isEmpty && (stop.stillUnresolved tree).isEmpty
  behaviour := (stop.rounds index).behaviour

def roundsFrom : Nat → Nat → ResolutionSession → List RoundReport → Option RoundsResult
  | 0, _, session, reports => some { resolved := false, session, reports }
  | left + 1, index, session, reports =>
    let world := stop.rounds index
    if world.capExpired then
      some { resolved := false, session := { session with terminalReason := some .operatorCapReached }, reports }
    else if !world.promptWritten then
      some { resolved := false, session := { session with terminalReason := some .promptUnavailable }, reports }
    else
      match (stop.players index).runOneRound (resetRoundReporting session) with
      | none => none
      | some (attempt, round) =>
        let unresolved := stop.stillUnresolved world.after
        let agentRan := attempt.invoked && attempt.agentRan
        let provedByWorktree := agentRan && stop.decisions.isEmpty
        let resolvedNow := (attempt.succeeded || provedByWorktree) && unresolved.isEmpty
        let session :=
          { round.session with
            unresolvedPaths := unresolved
            terminalReason := if resolvedNow then none else some (roundTerminationReason round.session attempt.invoked) }
        let reports := { attempt, log := round.log, unresolved } :: reports
        if routeAfterRound (attempt.succeeded || provedByWorktree) unresolved index stop.roundCap = .resolved then
          if session.outOfReachPaths.isEmpty then some { resolved := true, session, reports }
          else some { resolved := false, session := escalateUnreachableRemainder session, reports }
        else if !attempt.invoked then
          some
            { resolved := false
              session :=
                { session with
                  terminalReason := some .toolSurfaceDead
                  unresolvedPaths := if unresolved.isEmpty then stop.remaining else unresolved }
              reports }
        else roundsFrom left (index + 1) session reports

def runRounds (session : ResolutionSession) : Option RoundsResult :=
  let prepared := stop.prepareConflictedPaths (beginResolutionStop session)
  match prepared.early with
  | some resolved => some { resolved, session := prepared.session }
  | none =>
    let session := { prepared.session with unresolvedPaths := prepared.remaining }
    if stop.candidates.isEmpty then
      some { resolved := false, session := { session with terminalReason := some .noResolverConfigured } }
    else stop.roundsFrom stop.roundCap 1 session []

end ConflictStop

end RalphWorkflow.Pipeline.ConflictResolution
