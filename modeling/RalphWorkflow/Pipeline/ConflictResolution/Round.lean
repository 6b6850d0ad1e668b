import Mathlib.Data.List.Dedup
import Mathlib.Data.List.Basic

/-! `_run_one_round` of `ralph/pipeline/conflict_resolution/driver.py`, with `chain_candidates.py` and the parts of `session.py` it goes
through. The runner may do anything at each invocation. The `while` loop runs on fuel and answers `none` when it runs out. -/
namespace RalphWorkflow.Pipeline.ConflictResolution

inductive TerminationReason
  | conflictInactivity | operatorCapReached | supervisionInfrastructureFailure | transportLoopDetected
  | toolSurfaceDead | outOfReach | attemptFailed | resolutionIncomplete | candidateExited | candidateUnavailable
  | noResolverConfigured | promptUnavailable | exception
  deriving DecidableEq

def TerminationReason.infrastructure : TerminationReason → Bool
  | .transportLoopDetected | .supervisionInfrastructureFailure | .toolSurfaceDead | .candidateUnavailable => true
  | _ => false

structure ResolutionSession where
  unresolvedPaths : List String := []
  terminalReason : Option TerminationReason := none
  chainCursor : Nat := 0
  chargeConflictBudget : Bool := true
  deadToolSurfaces : List String := []
  stopDeadSurfaces : List String := []
  outOfReachPaths : List String := []
  currentAgentRetries : Nat := 0
  skipSameAgentRetries : Bool := false
  lastAttemptSawActivity : Bool := false
  deriving DecidableEq

/-! ## What an invocation does -/

inductive Returned
  | success | failure | exception
  deriving DecidableEq

structure Invocation (Checkout : Type) where
  returned : Returned
  /-- `terminal_reason` -/
  reason : Option TerminationReason := none
  /-- `last_attempt_evidence` is a text. -/
  evidence : Bool := false
  /-- `classify_conflict_attempt` calls the failure environmental. -/
  environmental : Bool := false
  /-- It sets `skip_same_agent_retries`. -/
  skipsRetries : Bool := false
  /-- `last_attempt_saw_activity` -/
  activity : Bool := false
  /-- The activity listener puts the agent into `stop_dead_surfaces`. -/
  barsSurface : Bool := false
  /-- `charge_conflict_budget` -/
  charged : Bool := true
  checkout : Checkout

variable {Checkout : Type}

/-- The session after `runner(...)`, called on a session whose reason and charge were reset. -/
def ResolutionSession.afterRunner (session : ResolutionSession) (agent : String) (invocation : Invocation Checkout) : ResolutionSession :=
  { session with
    terminalReason := invocation.reason
    chargeConflictBudget := invocation.charged
    lastAttemptSawActivity := invocation.activity
    skipSameAgentRetries := session.skipSameAgentRetries || invocation.skipsRetries
    stopDeadSurfaces :=
      if invocation.barsSurface && !session.stopDeadSurfaces.contains agent then session.stopDeadSurfaces ++ [agent]
      else session.stopDeadSurfaces }

def failureReason (invocation : Invocation Checkout) : TerminationReason :=
  match invocation.returned with
  | .exception => .exception
  | _ => invocation.reason.getD (if invocation.evidence then .candidateExited else .attemptFailed)

def nextConflictCandidate (total failedIndex : Nat) : Nat := if total = 0 then 0 else min (failedIndex + 1) total

def classifyFailedResolutionAttempt (session : ResolutionSession) (environmental : Bool) (total failedIndex maxRetries : Nat) : ResolutionSession :=
  if !session.skipSameAgentRetries && environmental && decide (session.currentAgentRetries + 1 < maxRetries) then
    { session with currentAgentRetries := session.currentAgentRetries + 1, chainCursor := failedIndex }
  else if 0 < total then
    { session with
      currentAgentRetries := 0
      skipSameAgentRetries := false
      chainCursor := nextConflictCandidate total failedIndex }
  else session

/-! ## Bars -/

/-- `(*session.dead_tool_surfaces, *session.stop_dead_surfaces)`. -/
def ResolutionSession.barred (session : ResolutionSession) : List String :=
  session.deadToolSurfaces ++ session.stopDeadSurfaces

def skippedCandidates (session : ResolutionSession) (candidates : List String) : List String :=
  (candidates.filter session.barred.contains).dedup

def addOnce (names : List String) (name : String) : List String := if names.contains name then names else names ++ [name]

def rememberDeadSurface (session : ResolutionSession) (agent : String) : ResolutionSession :=
  if session.terminalReason = some .candidateUnavailable then
    { session with deadToolSurfaces := addOnce session.deadToolSurfaces agent }
  else { session with stopDeadSurfaces := addOnce session.stopDeadSurfaces agent }

def nextUnvisited (offset total : Nat) (visited : List Nat) : Nat :=
  (((List.range total).map fun step => (offset + (step + 1)) % total).find? fun candidate => !visited.contains candidate).getD
    offset

/-! ## The round -/

inductive RoundEvent (Checkout : Type)
  | passed (position : Nat) (session : ResolutionSession)
  | invoked (position : Nat) (invocation : Invocation Checkout)

def RoundEvent.position : RoundEvent Checkout → Nat
  | .passed position _ => position
  | .invoked position _ => position

def RoundEvent.invocation? : RoundEvent Checkout → Option (Nat × Invocation Checkout)
  | .passed _ _ => none
  | .invoked position invocation => some (position, invocation)

def attemptsAt (log : List (RoundEvent Checkout)) (position : Nat) : Nat :=
  (log.filterMap RoundEvent.invocation?).countP fun entry => entry.1 = position

structure RoundAttempt where
  succeeded : Bool
  invoked : Bool
  agentRan : Bool := false
  deriving DecidableEq

structure Round (Checkout : Type) where
  session : ResolutionSession
  skipped : List String
  offset : Nat
  visited : List Nat := []
  attemptsHere : Nat := 0
  invoked : Bool := false
  agentRan : Bool := false
  log : List (RoundEvent Checkout) := []

inductive Pass (Checkout : Type)
  | continues (round : Round Checkout)
  | returns (attempt : RoundAttempt) (round : Round Checkout)

/-- The chain, its retry bound, the scan, and what the runner does at each invocation of a position. -/
structure Players (Checkout : Type) where
  candidates : List String
  maxRetries : Nat
  worktreeResolved : Checkout → Bool
  behaviour : Nat → Nat → Invocation Checkout

namespace Players

variable (players : Players Checkout)

def total : Nat := players.candidates.length

def attemptCap : Nat := max 1 players.maxRetries

def leaveFor (round : Round Checkout) (session : ResolutionSession) (next : List Nat → Nat) : Round Checkout :=
  let visited := round.visited.insert round.offset
  { round with session := { session with chainCursor := next visited }, visited, offset := next visited }

def afterFailure (agent : String) (round : Round Checkout) : Pass Checkout :=
  let session := round.session
  if session.terminalReason.any TerminationReason.infrastructure then
    let session := rememberDeadSurface session agent
    .continues (leaveFor { round with skipped := skippedCandidates session players.candidates }
      { session with chargeConflictBudget := false } (nextUnvisited round.offset players.total))
  else
    let attemptsHere := round.attemptsHere + 1
    if session.chainCursor = round.offset ∧ attemptsHere < players.attemptCap then .continues { round with attemptsHere }
    else
      let proposed := session.chainCursor % players.total
      .continues (leaveFor { round with attemptsHere := 0 } session fun visited =>
        if visited.contains proposed then nextUnvisited round.offset players.total visited else proposed)

def invoke (agent : String) (round : Round Checkout) : Pass Checkout :=
  let invocation := players.behaviour round.offset (attemptsAt round.log round.offset)
  let session := round.session.afterRunner agent invocation
  let round := { round with session, invoked := true, log := .invoked round.offset invocation :: round.log }
  match invocation.returned with
  | .success =>
    .returns ⟨true, true, true⟩
      { round with session := { session with chainCursor := (round.offset + 1) % players.total } }
  | _ =>
    let session := classifyFailedResolutionAttempt { session with terminalReason := some (failureReason invocation) }
      invocation.environmental players.total round.offset players.maxRetries
    let round := { round with session, agentRan := round.agentRan || invocation.activity }
    if invocation.activity && players.worktreeResolved invocation.checkout then .returns ⟨false, true, true⟩ round
    else players.afterFailure agent round

def pass (round : Round Checkout) : Pass Checkout :=
  let agent := players.candidates.getD round.offset ""
  if round.skipped.contains agent then
    .continues (leaveFor { round with log := .passed round.offset round.session :: round.log } round.session
      (nextUnvisited round.offset players.total))
  else players.invoke agent round

def passes : Nat → Round Checkout → Option (RoundAttempt × Round Checkout)
  | 0, _ => none
  | fuel + 1, round =>
    if round.visited.length < players.total then
      match players.pass round with
      | .continues round => passes fuel round
      | .returns attempt round => some (attempt, round)
    else some (⟨false, round.invoked, round.agentRan⟩, round)

def onlyStopBars (session : ResolutionSession) : Bool :=
  (skippedCandidates session players.candidates).length == players.total &&
    decide (session.deadToolSurfaces.length < players.total)

def start (session : ResolutionSession) : Round Checkout :=
  let session := if players.onlyStopBars session then { session with stopDeadSurfaces := [] } else session
  { session, skipped := skippedCandidates session players.candidates, offset := session.chainCursor % players.total }

def fuel : Nat := players.total * (players.attemptCap + 1) + players.attemptCap + 1

def runOneRound (session : ResolutionSession) : Option (RoundAttempt × Round Checkout) :=
  if players.total = 0 then some (⟨false, false, false⟩, { session, skipped := [], offset := 0 })
  else players.passes players.fuel (players.start session)

end Players

end RalphWorkflow.Pipeline.ConflictResolution
