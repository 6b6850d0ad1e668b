import Mathlib.Algebra.Order.Ring.Unbundled.Rat
import Mathlib.Data.List.Dedup

/-! `ralph/agents/idle_watchdog/_evidence_tier.py` and `_stuck_classifier.py`: the channels a watchdog hears an agent on, and what
an apparent stall is put down to. Times are readings of the monotonic clock in seconds, and exact. -/
namespace RalphWorkflow.Agents

inductive AgentExecutionState
  | active | waitingOnChild | resumableContinue | terminalComplete
  deriving DecidableEq

inductive AliveBy
  | freshProgress | freshHeartbeatOnly | staleLabelOnly | osDescendantOnlyStaleProgress | cpuIdleWhileAlive
  | logStaleWhileAlive
  deriving DecidableEq

/-! ## Channels -/

inductive EvidenceTier
  | firstParty | sideChannel
  deriving DecidableEq

inductive ChannelName
  | stdout | mcpTool | subagentOutput | subagentLiveness | workspace
  deriving DecidableEq

def ChannelName.tier : ChannelName → EvidenceTier
  | .stdout | .mcpTool | .subagentOutput => .firstParty
  | .subagentLiveness | .workspace => .sideChannel

def ChannelName.defersByDefault : ChannelName → Bool
  | .mcpTool | .subagentOutput => true
  | .stdout | .subagentLiveness | .workspace => false

structure ChannelEvidenceSummary where
  channelName : ChannelName
  tier : EvidenceTier
  lastAt : Option ℚ
  ageSeconds : Option ℚ
  counter : Option Nat := none
  aliveBy : Option AliveBy := none
  canDefer : Bool := true
  deriving DecidableEq

/-- A time to live that is missing or not positive makes nothing fresh. -/
def ChannelEvidenceSummary.isFresh (channel : ChannelEvidenceSummary) (ttl : Option ℚ) : Bool :=
  match ttl, channel.ageSeconds with
  | some ttl, some age => decide (0 < ttl) && decide (age < ttl)
  | _, _ => false

def channelSummary (name : ChannelName) (lastAt : Option ℚ) (counter : Option Nat) (now : ℚ)
    (canDefer : Bool := name.defersByDefault) : ChannelEvidenceSummary where
  channelName := name
  tier := name.tier
  lastAt := lastAt
  ageSeconds := lastAt.map fun last => max 0 (now - last)
  counter := counter.filter fun n => 0 < n
  canDefer := canDefer

abbrev EvidenceSummary := List ChannelEvidenceSummary

/-- The freshest channel of a tier that may defer. -/
def EvidenceSummary.freshest (summary : EvidenceSummary) (tier : EvidenceTier) (ttl : Option ℚ) : Option ChannelEvidenceSummary :=
  summary.foldl
    (fun freshest channel =>
      if channel.tier = tier && channel.canDefer && channel.isFresh ttl then
        match freshest with
        | none => some channel
        | some best => if channel.ageSeconds.getD 0 < best.ageSeconds.getD 0 then some channel else some best
      else freshest)
    none

/-! ## The classifier -/

inductive StuckKind
  | thinking | loading | waitingOnConnectivity | transitioning | stuck | duplicateKill | silentSubagent
  deriving DecidableEq

def firstPartyFresh (summary : EvidenceSummary) (ttl : Option ℚ) : Bool :=
  summary.any fun channel => channel.tier = .firstParty && channel.canDefer && channel.isFresh ttl

def subagentLivenessFresh (summary : EvidenceSummary) (ttl : Option ℚ) : Bool :=
  summary.any fun channel => channel.channelName = .subagentLiveness && channel.isFresh ttl && channel.canDefer

/-- A subagent was heard of once and is silent now, and nothing says that it is alive. -/
def silentSubagentPath (summary : EvidenceSummary) (silentSubagentSeconds : ℚ) : Bool :=
  let seen := fun channel : ChannelEvidenceSummary => decide (1 ≤ channel.counter.getD 0)
  !(summary.any fun channel => channel.channelName = .subagentLiveness && seen channel && channel.aliveBy.isSome) &&
    summary.any fun channel =>
      (channel.channelName = .subagentOutput || channel.channelName = .subagentLiveness) && seen channel &&
        match channel.ageSeconds with
        | none => true
        | some age => decide (silentSubagentSeconds ≤ age)

/-- The corroboration it is passed plays no part. -/
def classifyStuck (isWaitingState : Bool) (connectivityState : Option String) (summary : EvidenceSummary)
    (quietState : AgentExecutionState) (ttl silentSubagentSeconds : Option ℚ) : StuckKind :=
  if isWaitingState then .duplicateKill
  else if connectivityState = some "offline" then .waitingOnConnectivity
  else if firstPartyFresh summary ttl then .thinking
  else if subagentLivenessFresh summary ttl then .loading
  else if quietState = .waitingOnChild then .loading
  else if quietState = .resumableContinue then .transitioning
  else
    match silentSubagentSeconds with
    | some seconds => if 0 < seconds && silentSubagentPath summary seconds then .silentSubagent else .stuck
    | none => .stuck

/-! ## The repetition tracker

`ralph/agents/idle_watchdog/repetition_tracker.py`: counts of repeated errors and tool calls, over what came in a row and over a window of time.
Events come with their fingerprints. -/

structure RepetitionTracker where
  consecutiveThreshold : Option Nat
  windowCount : Option Nat
  windowSeconds : Option ℚ
  events : List (String × ℚ) := []
  lastFingerprint : Option String := none
  consecutive : Nat := 0
  toolEvents : List (String × ℚ) := []
  lastToolFingerprint : Option String := none
  toolConsecutive : Nat := 0
  deriving DecidableEq

namespace RepetitionTracker

def eventMaxlen (tracker : RepetitionTracker) : Nat := max (tracker.windowCount.getD 0 * 8) 256

def appendEvent (tracker : RepetitionTracker) (events : List (String × ℚ)) (event : String × ℚ) : List (String × ℚ) :=
  (events ++ [event]).drop (events.length + 1 - tracker.eventMaxlen)

def prune (tracker : RepetitionTracker) (events : List (String × ℚ)) (now : ℚ) : List (String × ℚ) :=
  match tracker.windowSeconds with
  | none => events
  | some seconds => events.dropWhile fun event => event.2 < now - seconds

def noteError (tracker : RepetitionTracker) (fingerprint : String) (now : ℚ) : RepetitionTracker :=
  { tracker with
    consecutive := if tracker.lastFingerprint = some fingerprint then tracker.consecutive + 1 else 1
    lastFingerprint := some fingerprint
    events := tracker.prune (tracker.appendEvent tracker.events (fingerprint, now)) now }

def markToolCall (tracker : RepetitionTracker) (fingerprint : String) (now : ℚ) : RepetitionTracker :=
  { tracker with
    toolConsecutive := if tracker.lastToolFingerprint = some fingerprint then tracker.toolConsecutive + 1 else 1
    lastToolFingerprint := some fingerprint
    toolEvents := tracker.prune (tracker.appendEvent tracker.toolEvents (fingerprint, now)) now }

def noteProgress (tracker : RepetitionTracker) : RepetitionTracker :=
  { tracker with consecutive := 0, lastFingerprint := none, toolConsecutive := 0, lastToolFingerprint := none }

def maxFingerprintCount (events : List (String × ℚ)) : Nat :=
  (events.map fun event => events.countP fun other => other.1 == event.1).foldl max 0

def windowIsCycling (events : List (String × ℚ)) : Bool := (events.map Prod.fst).dedup.length ≤ 4

def reached (threshold : Option Nat) (count : Nat) : Bool :=
  match threshold with
  | some threshold => threshold ≤ count
  | none => false

def errorDimensionTripped (tracker : RepetitionTracker) (now : ℚ) : Bool × RepetitionTracker :=
  if reached tracker.consecutiveThreshold tracker.consecutive then (true, tracker)
  else if tracker.windowCount.isSome && tracker.windowSeconds.isSome then
    let events := tracker.prune tracker.events now
    (reached tracker.windowCount (maxFingerprintCount events), { tracker with events })
  else (false, tracker)

def toolDimensionTripped (tracker : RepetitionTracker) (now : ℚ) : Bool × RepetitionTracker :=
  if reached tracker.consecutiveThreshold tracker.toolConsecutive then (true, tracker)
  else if tracker.windowCount.isSome && tracker.windowSeconds.isSome then
    let toolEvents := tracker.prune tracker.toolEvents now
    (reached tracker.windowCount (maxFingerprintCount toolEvents) && windowIsCycling toolEvents, { tracker with toolEvents })
  else (false, tracker)

/-- Each dimension reads the clock for itself. -/
def tripped (tracker : RepetitionTracker) (errorsAt toolsAt : ℚ) : Bool × RepetitionTracker :=
  let (errors, tracker) := tracker.errorDimensionTripped errorsAt
  if errors then (true, tracker) else tracker.toolDimensionTripped toolsAt

def trippedToolDimension (tracker : RepetitionTracker) (toolsAt errorsAt : ℚ) : Bool × RepetitionTracker :=
  let (tools, tracker) := tracker.toolDimensionTripped toolsAt
  if tools then
    let (errors, tracker) := tracker.errorDimensionTripped errorsAt
    (!errors, tracker)
  else (false, tracker)

end RepetitionTracker

end RalphWorkflow.Agents
