import RalphWorkflow.Agents.IdleWatchdog.Evidence

/-! `ralph/agents/idle_watchdog/`: what is recorded of an agent, and the verdict of one evaluation. A probe asked at several places may answer
differently at each, so an evaluation is given an answer for each place, and a reading for each look at the clock. -/
namespace RalphWorkflow.Agents

/-! ## Configuration -/

inductive TimeoutProfile
  | standard | activityOnly
  deriving DecidableEq

/-- The fields a verdict depends on. -/
structure TimeoutPolicy where
  idleTimeoutSeconds : Option ℚ
  profile : TimeoutProfile := .standard
  activityOnlyOperatorCapSeconds : Option ℚ := none
  drainWindowSeconds : ℚ := 1 / 2
  maxWaitingOnChildSeconds : ℚ := 1800
  maxSessionSeconds : Option ℚ := none
  maxWaitingOnChildNoProgressSeconds : Option ℚ := some 600
  noProgressQuietSeconds : Option ℚ := some 240
  noProgressQuietMinimumInvocationSeconds : Option ℚ := some 120
  noOutputAtStartSeconds : Option ℚ := some 360
  postToolResultProgressionSeconds : Option ℚ := some 120
  repeatedErrorConsecutiveThreshold : Option Nat := some 5
  repeatedErrorWindowCount : Option Nat := some 8
  repeatedErrorWindowSeconds : Option ℚ := some 600
  activityEvidenceTtlSeconds : Option ℚ := some 30
  silentSubagentSeconds : Option ℚ := some 180
  osDescendantOnlyCeilingSeconds : Option ℚ := some 300
  noProgressQuietStrictlyStuckSeconds : Option ℚ := none
  noProgressQuietHeartbeatCeilingSeconds : Option ℚ := some 240
  stuckJobSubCeilingSeconds : Option ℚ := some 600
  deriving DecidableEq

inductive WatchdogVerdict
  | «continue» | waitingOnChild | fire
  deriving DecidableEq

inductive WatchdogFireReason
  | noOutputDeadline | conflictInactivity | operatorCapReached | noOutputAtStart | stalledAfterToolResult
  | repeatedErrorLoop | repeatedIdenticalToolCall | childrenPersistTooLong | noProgressQuiet | strictlyStuck
  | sessionCeilingExceeded | processExitHang | descendantHang | deferredByStuckClassifier
  deriving DecidableEq

structure CorroborationSnapshot where
  scopedChildActive : Option Bool := none
  aliveBy : Option AliveBy := none
  deriving DecidableEq

/-! ## What one evaluation is told -/

inductive Reading
  | now | errorWindow | toolWindow | toolWindowAgain | errorWindowAgain | heartbeatCeiling | heartbeatFloor | quietCeiling
  | quietHeartbeatCeiling | quietHeartbeatFloor | quietCeilingAgain | quietFloor
  deriving DecidableEq

inductive QuietSite
  | evaluate | noOutputAtStart | drainWindow | finalVerdict | waitingBranch
  deriving DecidableEq

/-- Where an evaluation asks the process monitor for the number of live subagents. -/
inductive EvidenceSite
  | activityOnly | noOutputAtStart | strictlyStuck | noProgressQuiet | leftWaiting | finalVerdict | gate
  deriving DecidableEq

structure Tick where
  clock : Reading → ℚ
  /-- lines read from the outputs of subagents -/
  newSubagentLines : Nat := 0
  classifyQuiet : QuietSite → AgentExecutionState
  /-- the one snapshot of the tick -/
  corroboration : CorroborationSnapshot := {}
  liveSubagentCount : EvidenceSite → Nat := fun _ => 0
  connectivity : Option String := none

def Tick.now (t : Tick) : ℚ := t.clock .now

/-! ## State -/

/-- The flag `_in_drain_window` and `_drain_started_at` are set and cleared together. -/
structure IdleWatchdog where
  config : TimeoutPolicy
  hasProcessMonitor : Bool
  repetitionTracker : RepetitionTracker
  lastActivity : ℚ
  sessionStartedAt : ℚ
  lastMeaningfulOutputAt : Option ℚ := none
  hasMeaningfulOutput : Bool := false
  invocationStartedAt : Option ℚ := none
  waitingOnChildStartedAt : Option ℚ := none
  cumulativeWaitingOnChildSeconds : ℚ := 0
  strictlyStuckRunStartedAt : Option ℚ := none
  drainStartedAt : Option ℚ := none
  lastFireReason : Option WatchdogFireReason := none
  lastDeferredKind : Option StuckKind := none
  lastAliveBy : Option AliveBy := none
  lastToolResultAt : Option ℚ := none
  awaitingPostToolResultProgression : Bool := false
  mcpToolCallCount : Nat := 0
  lastMcpToolCallAt : Option ℚ := none
  subagentProgressCount : Nat := 0
  lastSubagentProgressAt : Option ℚ := none
  subagentOutputCount : Nat := 0
  lastSubagentOutputAt : Option ℚ := none
  workspaceEventCount : Nat := 0
  lastWorkspaceEventAt : Option ℚ := none
  lastWorkspaceEventWeight : ℚ := 0
  lastProgressFingerprint : Option String := none
  isWaitingState : Bool := false
  deriving DecidableEq

namespace IdleWatchdog

def create (config : TimeoutPolicy) (hasProcessMonitor : Bool) (now : ℚ) : IdleWatchdog where
  config := config
  hasProcessMonitor := hasProcessMonitor
  repetitionTracker :=
    { consecutiveThreshold := config.repeatedErrorConsecutiveThreshold
      windowCount := config.repeatedErrorWindowCount
      windowSeconds := config.repeatedErrorWindowSeconds }
  lastActivity := now
  sessionStartedAt := now

/-! ## Recording -/

def accumulateWaitingRun (w : IdleWatchdog) (now : ℚ) : IdleWatchdog :=
  match w.waitingOnChildStartedAt with
  | none => w
  | some startedAt =>
    { w with
      cumulativeWaitingOnChildSeconds := w.cumulativeWaitingOnChildSeconds + max 0 (now - startedAt)
      waitingOnChildStartedAt := none }

def resetIdleBaseline (w : IdleWatchdog) (now : ℚ) : IdleWatchdog :=
  { w.accumulateWaitingRun now with lastActivity := now, drainStartedAt := none, awaitingPostToolResultProgression := false }

def recordInvocationStart (w : IdleWatchdog) (now : ℚ) : IdleWatchdog :=
  { w with
    lastActivity := now, invocationStartedAt := some now, lastMeaningfulOutputAt := some now, hasMeaningfulOutput := false,
    waitingOnChildStartedAt := none, cumulativeWaitingOnChildSeconds := 0, drainStartedAt := none, lastFireReason := none,
    lastDeferredKind := none, lastAliveBy := none, lastToolResultAt := none, awaitingPostToolResultProgression := false,
    mcpToolCallCount := 0, lastMcpToolCallAt := none, subagentProgressCount := 0, lastSubagentProgressAt := none,
    subagentOutputCount := 0, lastSubagentOutputAt := none, workspaceEventCount := 0, lastWorkspaceEventAt := none,
    lastWorkspaceEventWeight := 0, lastProgressFingerprint := none }

def recordActivity (w : IdleWatchdog) (baselineAt outputAt : ℚ) : IdleWatchdog :=
  { w.resetIdleBaseline baselineAt with
    repetitionTracker := w.repetitionTracker.noteProgress
    lastMeaningfulOutputAt := some outputAt
    hasMeaningfulOutput := true }

def recordLifecycleActivity (w : IdleWatchdog) (now : ℚ) : IdleWatchdog := w.resetIdleBaseline now

def recordToolUseActivity (w : IdleWatchdog) (baselineAt outputAt : ℚ) : IdleWatchdog :=
  { w.resetIdleBaseline baselineAt with lastMeaningfulOutputAt := some outputAt, hasMeaningfulOutput := true }

def recordToolCallActivity (w : IdleWatchdog) (fingerprint : String) (now notedAt : ℚ) : IdleWatchdog :=
  { w.accumulateWaitingRun now with repetitionTracker := w.repetitionTracker.markToolCall fingerprint notedAt }

def recordErrorActivity (w : IdleWatchdog) (fingerprint : String) (now notedAt : ℚ) : IdleWatchdog :=
  { w.accumulateWaitingRun now with repetitionTracker := w.repetitionTracker.noteError fingerprint notedAt }

def recordProgressReport (w : IdleWatchdog) (fingerprint : String) (first second : ℚ) : IdleWatchdog :=
  if w.lastProgressFingerprint = some fingerprint then w.recordErrorActivity fingerprint first second
  else { w with lastProgressFingerprint := some fingerprint }.recordActivity first second

def recordToolResultActivity (w : IdleWatchdog) (isHarnessEcho : Bool) (now baselineAt : ℚ) : IdleWatchdog :=
  let w := w.accumulateWaitingRun now
  let w := if isHarnessEcho then w
    else { w.resetIdleBaseline baselineAt with lastMeaningfulOutputAt := some now, hasMeaningfulOutput := true }
  { w with lastToolResultAt := some now, awaitingPostToolResultProgression := true }

def recordMcpToolCall (w : IdleWatchdog) (at_ : ℚ) : IdleWatchdog :=
  { w with mcpToolCallCount := w.mcpToolCallCount + 1, lastMcpToolCallAt := some at_ }

def recordSubagentWork (w : IdleWatchdog) (at_ : ℚ) : IdleWatchdog :=
  { w with subagentProgressCount := w.subagentProgressCount + 1, lastSubagentProgressAt := some at_ }

def recordSubagentOutput (w : IdleWatchdog) (lineCount : Nat) (at_ : ℚ) : IdleWatchdog :=
  { w with subagentOutputCount := w.subagentOutputCount + lineCount, lastSubagentOutputAt := some at_ }

def recordWorkspaceEvent (w : IdleWatchdog) (weight at_ : ℚ) : IdleWatchdog :=
  if weight = 0 then w
  else { w with workspaceEventCount := w.workspaceEventCount + 1, lastWorkspaceEventAt := some at_, lastWorkspaceEventWeight := weight }

def setIsWaitingState (w : IdleWatchdog) (isWaitingState : Bool) : IdleWatchdog := { w with isWaitingState }

def pollSubagentOutput (w : IdleWatchdog) (t : Tick) : IdleWatchdog :=
  if w.hasProcessMonitor && 0 < t.newSubagentLines then w.recordSubagentOutput t.newSubagentLines t.now else w

/-! ## Evidence -/

def subagentLivenessSummary (w : IdleWatchdog) (now : ℚ) (live : Nat) : ChannelEvidenceSummary :=
  let alive := w.hasProcessMonitor && 0 < live
  let lastAt := if alive then some (w.lastSubagentProgressAt.getD now) else w.lastSubagentProgressAt
  let counter := if alive then max w.subagentProgressCount live else w.subagentProgressCount
  { channelName := .subagentLiveness
    tier := .sideChannel
    lastAt := lastAt
    ageSeconds := lastAt.map fun last => max 0 (now - last)
    counter := if 0 < counter then some counter else none
    aliveBy := if alive then some .osDescendantOnlyStaleProgress else none
    canDefer := alive }

def latest : Option ℚ → Option ℚ → Option ℚ
  | some a, some b => some (max a b)
  | a, b => a.or b

def lastEvidenceSummary (w : IdleWatchdog) (now : ℚ) (live : Nat) : EvidenceSummary :=
  [ channelSummary .stdout (some w.lastActivity) none now,
    channelSummary .mcpTool w.lastMcpToolCallAt (some w.mcpToolCallCount) now,
    channelSummary .subagentOutput (latest w.lastSubagentProgressAt w.lastSubagentOutputAt)
      (some (w.subagentProgressCount + w.subagentOutputCount)) now,
    w.subagentLivenessSummary now live,
    channelSummary .workspace w.lastWorkspaceEventAt (some w.workspaceEventCount) now
      (decide (0 < w.lastWorkspaceEventWeight)) ]

def channelEvidenceActive (w : IdleWatchdog) (t : Tick) (site : EvidenceSite) : Bool :=
  let summary := w.lastEvidenceSummary t.now (t.liveSubagentCount site)
  let ttl := w.config.activityEvidenceTtlSeconds
  (summary.freshest .firstParty ttl).isSome || (summary.freshest .sideChannel ttl).isSome

/-! ## The gate -/

def classifyStuckNow (w : IdleWatchdog) (t : Tick) : StuckKind :=
  classifyStuck w.isWaitingState t.connectivity (w.lastEvidenceSummary t.now (t.liveSubagentCount .gate)) .active
    w.config.activityEvidenceTtlSeconds w.config.silentSubagentSeconds

def gateFire (w : IdleWatchdog) (t : Tick) (reason : WatchdogFireReason) : WatchdogVerdict × IdleWatchdog :=
  if reason = .sessionCeilingExceeded then (.fire, w)
  else
    match w.classifyStuckNow t with
    | .stuck | .silentSubagent => (.fire, w)
    | kind => (.continue, { w with lastFireReason := some .deferredByStuckClassifier, lastDeferredKind := some kind })

/-- How every gated rule ends: the reason is stamped once the gate lets the fire pass. -/
def fireThroughGate (w : IdleWatchdog) (t : Tick) (reason : WatchdogFireReason) : WatchdogVerdict × IdleWatchdog :=
  match w.gateFire t reason with
  | (.continue, w) => (.continue, w)
  | (_, w) => (.fire, { w with lastFireReason := some reason })

/-! ## Rules -/

def evaluateNoOutputAtStart (w : IdleWatchdog) (t : Tick) : Option WatchdogVerdict × IdleWatchdog :=
  match w.config.noOutputAtStartSeconds, w.hasMeaningfulOutput, w.lastMeaningfulOutputAt with
  | some limit, false, some outputAt =>
    if t.now - outputAt < limit then (none, w)
    else if t.classifyQuiet .noOutputAtStart ≠ .active then (none, w)
    else if w.channelEvidenceActive t .noOutputAtStart then (none, w)
    else if t.corroboration.aliveBy = some .freshProgress || t.corroboration.aliveBy = some .freshHeartbeatOnly then (none, w)
    else if 0 < w.cumulativeWaitingOnChildSeconds then (none, w)
    else (w.fireThroughGate t .noOutputAtStart).map some id
  | _, _, _ => (none, w)

def strictlyStuckAliveBy : Option AliveBy → Bool
  | some .osDescendantOnlyStaleProgress | some .cpuIdleWhileAlive | some .logStaleWhileAlive => true
  | _ => false

def evaluateStrictlyStuck (w : IdleWatchdog) (t : Tick) : Option WatchdogVerdict × IdleWatchdog :=
  match w.config.noProgressQuietStrictlyStuckSeconds with
  | none => (none, { w with strictlyStuckRunStartedAt := none })
  | some limit =>
    if !strictlyStuckAliveBy t.corroboration.aliveBy then (none, { w with strictlyStuckRunStartedAt := none })
    else
      match w.strictlyStuckRunStartedAt with
      | none => (none, { w with strictlyStuckRunStartedAt := some t.now })
      | some startedAt =>
        if t.now - startedAt < limit then (none, w)
        else if w.channelEvidenceActive t .strictlyStuck then (none, w)
        else (w.fireThroughGate t .strictlyStuck).map some id

def invocationElapsedSeconds (w : IdleWatchdog) (t : Tick) (reading : Reading) : ℚ :=
  match w.invocationStartedAt with
  | none => 0
  | some startedAt => t.clock reading - startedAt

/-- The test for a subagent that sends heartbeats and nothing else, made at two places. -/
def heartbeatOnlyTooLong (w : IdleWatchdog) (t : Tick) (ceilingAt floorAt : Reading) : Bool :=
  match w.config.noProgressQuietHeartbeatCeilingSeconds with
  | none => false
  | some ceiling =>
    t.corroboration.aliveBy = some .freshHeartbeatOnly && ceiling ≤ w.invocationElapsedSeconds t ceilingAt &&
      match w.config.noProgressQuietMinimumInvocationSeconds with
      | none => true
      | some floor => floor ≤ w.invocationElapsedSeconds t floorAt

def isNoProgressQuiet (w : IdleWatchdog) (t : Tick) : Bool :=
  match w.config.noProgressQuietSeconds with
  | none => false
  | some limit =>
    if w.heartbeatOnlyTooLong t .quietHeartbeatCeiling .quietHeartbeatFloor then true
    else if w.invocationElapsedSeconds t .quietCeilingAgain < limit then false
    else if (match w.config.noProgressQuietMinimumInvocationSeconds with
        | none => false
        | some floor => w.invocationElapsedSeconds t .quietFloor < floor) then false
    else if t.corroboration.aliveBy.isSome then false
    else !w.channelEvidenceActive t .noProgressQuiet

/-- How a quiet agent is fired: the corroboration of the moment is kept with the reason. -/
def fireNoProgressQuiet (w : IdleWatchdog) (t : Tick) : Option WatchdogVerdict × IdleWatchdog :=
  match w.fireThroughGate t .noProgressQuiet with
  | (.continue, w) => (some .continue, w)
  | (verdict, w) => (some verdict, { w with lastAliveBy := t.corroboration.aliveBy })

def evaluateNoProgressQuiet (w : IdleWatchdog) (t : Tick) (idleElapsed : ℚ) : Option WatchdogVerdict × IdleWatchdog :=
  if w.heartbeatOnlyTooLong t .heartbeatCeiling .heartbeatFloor then w.fireNoProgressQuiet t
  else
    match w.config.noProgressQuietSeconds with
    | none => (none, w)
    | some limit =>
      if w.invocationElapsedSeconds t .quietCeiling < limit then (none, w)
      else if idleElapsed < limit then (none, w)
      else if !w.isNoProgressQuiet t then (none, w)
      else w.fireNoProgressQuiet t

def postToolResultStalled (w : IdleWatchdog) (t : Tick) : Option WatchdogVerdict × IdleWatchdog :=
  match w.config.postToolResultProgressionSeconds, w.awaitingPostToolResultProgression, w.lastToolResultAt with
  | some limit, true, some resultAt =>
    if t.now - resultAt < limit then (none, w) else (w.fireThroughGate t .stalledAfterToolResult).map some id
  | _, _, _ => (none, w)

/-! ## Branches -/

def handleEvidenceDeferral (w : IdleWatchdog) : WatchdogVerdict × IdleWatchdog := (.continue, w)

def handleActiveBranch (w : IdleWatchdog) (t : Tick) : WatchdogVerdict × IdleWatchdog :=
  let w := w.accumulateWaitingRun t.now
  if w.config.drainWindowSeconds = 0 then w.fireThroughGate t .noOutputDeadline
  else (.continue, { w with drainStartedAt := some t.now })

def effectiveWaitingCeiling (w : IdleWatchdog) (corroboration : CorroborationSnapshot) : ℚ :=
  match corroboration.aliveBy with
  | none | some .freshProgress => w.config.maxWaitingOnChildSeconds
  | some aliveBy =>
    match w.config.osDescendantOnlyCeilingSeconds, aliveBy with
    | some ceiling, .osDescendantOnlyStaleProgress =>
      match w.config.maxWaitingOnChildNoProgressSeconds with
      | some noProgress => min ceiling noProgress
      | none => ceiling
    -- every other value is one of `_NON_PROGRESS_ALIVE_BY_VALUES`
    | _, _ => w.config.maxWaitingOnChildNoProgressSeconds.getD w.config.maxWaitingOnChildSeconds

def stuckAliveBy : Option AliveBy → Bool
  | some .osDescendantOnlyStaleProgress | some .cpuIdleWhileAlive | some .logStaleWhileAlive | some .staleLabelOnly => true
  | _ => false

def subCeilingReached (w : IdleWatchdog) (t : Tick) (candidateTotal : ℚ) : Bool :=
  match w.config.stuckJobSubCeilingSeconds with
  | none => false
  | some ceiling =>
    t.corroboration.scopedChildActive = some true && stuckAliveBy t.corroboration.aliveBy && ceiling ≤ candidateTotal

def currentWaitingRun (w : IdleWatchdog) (now : ℚ) : ℚ := now - w.waitingOnChildStartedAt.getD now

def handleWaitingBranch (w : IdleWatchdog) (t : Tick) : WatchdogVerdict × IdleWatchdog :=
  let w := { w with waitingOnChildStartedAt := some (w.waitingOnChildStartedAt.getD t.now) }
  let candidateTotal := w.cumulativeWaitingOnChildSeconds + w.currentWaitingRun t.now
  if t.classifyQuiet .waitingBranch ≠ .waitingOnChild then
    let w := w.accumulateWaitingRun t.now
    if w.channelEvidenceActive t .leftWaiting then w.handleEvidenceDeferral else w.handleActiveBranch t
  else if w.subCeilingReached t candidateTotal then w.fireThroughGate t .childrenPersistTooLong
  else if w.effectiveWaitingCeiling t.corroboration ≤ candidateTotal then
    if w.config.profile = .activityOnly then (.continue, w)
    else (.fire, { w with lastFireReason := some .childrenPersistTooLong })
  else (.waitingOnChild, w)

def handleDrainWindow (w : IdleWatchdog) (t : Tick) (startedAt : ℚ) : WatchdogVerdict × IdleWatchdog :=
  if t.classifyQuiet .drainWindow = .waitingOnChild then { w with drainStartedAt := none }.handleWaitingBranch t
  else if t.now - startedAt < w.config.drainWindowSeconds then (.continue, w)
  else w.fireThroughGate t .noOutputDeadline

def evaluateFinalVerdict (w : IdleWatchdog) (t : Tick) : WatchdogVerdict × IdleWatchdog :=
  match w.drainStartedAt with
  | some startedAt => w.handleDrainWindow t startedAt
  | none =>
    match w.postToolResultStalled t with
    | (some verdict, w) => (verdict, w)
    | (none, w) =>
      if t.classifyQuiet .finalVerdict = .waitingOnChild then w.handleWaitingBranch t
      else if w.channelEvidenceActive t .finalVerdict then w.handleEvidenceDeferral
      else w.handleActiveBranch t

/-! ## Evaluation -/

/-- The latest channel of all is the liveness deadline's. -/
def evaluateActivityOnly (w : IdleWatchdog) (t : Tick) : WatchdogVerdict × IdleWatchdog :=
  let times := (w.lastEvidenceSummary t.now (t.liveSubagentCount .activityOnly)).map ChannelEvidenceSummary.lastAt
  let lastAt := (times.foldl latest none).getD w.sessionStartedAt
  let capReached := match w.config.activityOnlyOperatorCapSeconds, w.invocationStartedAt with
    | some cap, some startedAt => decide (cap ≤ t.now - startedAt)
    | _, _ => false
  if capReached then (.fire, { w with lastFireReason := some .operatorCapReached })
  else
    match w.config.idleTimeoutSeconds with
    | none => (.continue, w)
    | some timeout =>
      if t.now - lastAt < timeout then (.continue, w)
      else (.fire, { w with lastFireReason := some .conflictInactivity })

def sessionCeilingReached (w : IdleWatchdog) (t : Tick) : Bool :=
  match w.config.maxSessionSeconds with
  | none => false
  | some limit => limit ≤ t.now - w.sessionStartedAt

def repetitionReason (w : IdleWatchdog) (t : Tick) : Option WatchdogFireReason × IdleWatchdog :=
  let (tripped, tracker) := w.repetitionTracker.tripped (t.clock .errorWindow) (t.clock .toolWindow)
  if tripped then
    let (onlyTools, tracker) := tracker.trippedToolDimension (t.clock .toolWindowAgain) (t.clock .errorWindowAgain)
    (some (if onlyTools then .repeatedIdenticalToolCall else .repeatedErrorLoop), { w with repetitionTracker := tracker })
  else (none, { w with repetitionTracker := tracker })

def evaluateQuiet (w : IdleWatchdog) (t : Tick) (idleElapsed idleTimeout : ℚ) : WatchdogVerdict × IdleWatchdog :=
  match if t.classifyQuiet .evaluate = .waitingOnChild then w.evaluateNoProgressQuiet t idleElapsed else (none, w) with
  | (some verdict, w) => (verdict, w)
  | (none, w) =>
    if idleElapsed < idleTimeout then (.continue, w.accumulateWaitingRun t.now) else w.evaluateFinalVerdict t

/-- What follows the rule of the start in `evaluate_inner`. -/
def evaluateIdle (w : IdleWatchdog) (t : Tick) (idleElapsed : ℚ) : WatchdogVerdict × IdleWatchdog :=
  match w.config.idleTimeoutSeconds with
  | none => (.continue, w)
  | some idleTimeout =>
    match w.evaluateStrictlyStuck t with
    | (some verdict, w) => (verdict, w)
    | (none, w) => w.evaluateQuiet t idleElapsed idleTimeout

def evaluateStandard (w : IdleWatchdog) (t : Tick) : WatchdogVerdict × IdleWatchdog :=
  if w.sessionCeilingReached t then w.fireThroughGate t .sessionCeilingExceeded
  else
    match w.repetitionReason t with
    | (some reason, w) => w.fireThroughGate t reason
    | (none, w) =>
      match w.evaluateNoOutputAtStart t with
      | (some verdict, w) => (verdict, w)
      | (none, w) => w.evaluateIdle t (t.now - w.lastActivity)

def evaluate (w : IdleWatchdog) (t : Tick) : WatchdogVerdict × IdleWatchdog :=
  let w := w.pollSubagentOutput t
  match w.config.profile with
  | .activityOnly => w.evaluateActivityOnly t
  | .standard => w.evaluateStandard t

end IdleWatchdog

/-! ## Calls -/

inductive WatchdogCall
  | recordInvocationStart (now : ℚ)
  | recordActivity (baselineAt outputAt : ℚ)
  | recordLifecycleActivity (now : ℚ)
  | recordToolUseActivity (baselineAt outputAt : ℚ)
  | recordToolCallActivity (fingerprint : String) (now notedAt : ℚ)
  | recordErrorActivity (fingerprint : String) (now notedAt : ℚ)
  | recordProgressReport (fingerprint : String) (first second : ℚ)
  | recordToolResultActivity (isHarnessEcho : Bool) (now baselineAt : ℚ)
  | recordMcpToolCall (at_ : ℚ)
  | recordSubagentWork (at_ : ℚ)
  | recordSubagentOutput (lineCount : Nat) (at_ : ℚ)
  | recordWorkspaceEvent (weight at_ : ℚ)
  | setIsWaitingState (isWaitingState : Bool)
  | evaluate (t : Tick)

namespace IdleWatchdog

def perform (w : IdleWatchdog) : WatchdogCall → IdleWatchdog
  | .recordInvocationStart now => w.recordInvocationStart now
  | .recordActivity baselineAt outputAt => w.recordActivity baselineAt outputAt
  | .recordLifecycleActivity now => w.recordLifecycleActivity now
  | .recordToolUseActivity baselineAt outputAt => w.recordToolUseActivity baselineAt outputAt
  | .recordToolCallActivity fingerprint now notedAt => w.recordToolCallActivity fingerprint now notedAt
  | .recordErrorActivity fingerprint now notedAt => w.recordErrorActivity fingerprint now notedAt
  | .recordProgressReport fingerprint first second => w.recordProgressReport fingerprint first second
  | .recordToolResultActivity isHarnessEcho now baselineAt => w.recordToolResultActivity isHarnessEcho now baselineAt
  | .recordMcpToolCall at_ => w.recordMcpToolCall at_
  | .recordSubagentWork at_ => w.recordSubagentWork at_
  | .recordSubagentOutput lineCount at_ => w.recordSubagentOutput lineCount at_
  | .recordWorkspaceEvent weight at_ => w.recordWorkspaceEvent weight at_
  | .setIsWaitingState isWaitingState => w.setIsWaitingState isWaitingState
  | .evaluate t => (w.evaluate t).2

def after (w : IdleWatchdog) (calls : List WatchdogCall) : IdleWatchdog := calls.foldl perform w

end IdleWatchdog

end RalphWorkflow.Agents
