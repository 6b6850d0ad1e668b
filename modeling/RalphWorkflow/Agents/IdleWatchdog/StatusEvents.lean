import RalphWorkflow.Agents.IdleWatchdog

/-! What a watchdog of the standard profile announces to its listener (`_emit`, `_set_stall` and their callers). A HARD_STOP carries the reason of
its fire; SUBAGENT_PROGRESS, which may come at any time, is left out. -/
namespace RalphWorkflow.Agents

inductive WaitingStatusEvent
  | entered | progress | suspectedFrozen | exited | stalled | stallResumed
  | hardStop (reason : WatchdogFireReason)
  deriving DecidableEq

structure StatusPolicy where
  suspectWaitingOnChildSeconds : Option ℚ
  osDescendantOnlySuspectSeconds : Option ℚ
  waitingStatusIntervalSeconds : ℚ
  deriving DecidableEq

structure Announcer where
  watchdog : IdleWatchdog
  policy : StatusPolicy
  stallActive : Bool := false
  lastWaitingStatusAt : Option ℚ := none
  suspicionAnnouncedForRun : Bool := false
  emitted : List WaitingStatusEvent := []
  deriving DecidableEq

namespace Announcer

variable (a : Announcer)

def emit (event : WaitingStatusEvent) : Announcer := { a with emitted := a.emitted ++ [event] }

def setStall (active : Bool) : Announcer :=
  if active = a.stallActive then a
  else { a with stallActive := active }.emit (if active then .stalled else .stallResumed)

def quietly (w : IdleWatchdog) : Announcer := { a with watchdog := w }

/-! ## Recording -/

def accumulateWaitingRun (now : ℚ) : Announcer :=
  match a.watchdog.waitingOnChildStartedAt with
  | none => a
  | some _ =>
    { a.emit .exited with
      watchdog := a.watchdog.accumulateWaitingRun now
      lastWaitingStatusAt := none
      suspicionAnnouncedForRun := false }.setStall false

def resetIdleBaseline (now : ℚ) : Announcer :=
  ((a.accumulateWaitingRun now).quietly (a.watchdog.resetIdleBaseline now)).setStall false

/-- A run of waiting that is open is forgotten. -/
def recordInvocationStart (now : ℚ) : Announcer :=
  { a with
    watchdog := a.watchdog.recordInvocationStart now
    lastWaitingStatusAt := none
    suspicionAnnouncedForRun := false }.setStall false

/-! ## Rules -/

def stop : Option WatchdogFireReason → Announcer
  | none => a
  | some reason => a.emit (.hardStop reason)

/-- `_gate_fire` sets the stall where a fire passes and clears it where one is deferred. -/
def gated (stops : Option WatchdogFireReason) (verdict : WatchdogVerdict) (w : IdleWatchdog) : Announcer :=
  if verdict = .fire then ((a.quietly w).setStall true).stop stops else (a.quietly w).setStall false

def fireThroughGate (t : Tick) (reason : WatchdogFireReason) (stops : Option WatchdogFireReason) : WatchdogVerdict × Announcer :=
  let (verdict, w) := a.watchdog.fireThroughGate t reason
  (verdict, a.gated stops verdict w)

def ruled (stops : Option WatchdogFireReason) : Option WatchdogVerdict × IdleWatchdog → Option WatchdogVerdict × Announcer
  | (none, w) => (none, a.quietly w)
  | (some verdict, w) => (some verdict, a.gated stops verdict w)

/-! ## Branches -/

def handleActiveBranch (t : Tick) : WatchdogVerdict × Announcer :=
  let a := a.accumulateWaitingRun t.now
  if a.watchdog.config.drainWindowSeconds = 0 then a.fireThroughGate t .noOutputDeadline none
  else (.continue, a.quietly { a.watchdog with drainStartedAt := some t.now })

def enterWaiting (t : Tick) : Announcer :=
  match a.watchdog.waitingOnChildStartedAt with
  | some _ => a
  | none =>
    { a with
      watchdog := { a.watchdog with waitingOnChildStartedAt := some t.now }
      lastWaitingStatusAt := some t.now
      suspicionAnnouncedForRun := false }.emit .entered

def effectiveSuspect (aliveBy : Option AliveBy) : Option ℚ :=
  match a.policy.suspectWaitingOnChildSeconds, a.policy.osDescendantOnlySuspectSeconds with
  | some suspect, some osDescendantOnly =>
    if aliveBy = some .osDescendantOnlyStaleProgress then some (min suspect osDescendantOnly) else some suspect
  | suspect, _ => suspect

def announceSuspicion (t : Tick) (candidateTotal : ℚ) : Announcer :=
  match a.effectiveSuspect t.corroboration.aliveBy with
  | none => a
  | some suspect =>
    if a.suspicionAnnouncedForRun = false ∧ suspect ≤ candidateTotal then
      ({ a with suspicionAnnouncedForRun := true }.setStall true).emit .suspectedFrozen
    else a

def announceProgress (t : Tick) : Announcer :=
  match a.lastWaitingStatusAt with
  | none => a -- excluded by an assertion
  | some last =>
    if a.policy.waitingStatusIntervalSeconds ≤ t.now - last then
      { a with lastWaitingStatusAt := some t.now }.emit .progress
    else a

def handleWaitingBranch (t : Tick) : WatchdogVerdict × Announcer :=
  let a := a.enterWaiting t
  let w := a.watchdog
  let candidateTotal := w.cumulativeWaitingOnChildSeconds + w.currentWaitingRun t.now
  if t.classifyQuiet .waitingBranch ≠ .waitingOnChild then
    let a := a.accumulateWaitingRun t.now
    if a.watchdog.channelEvidenceActive t .leftWaiting then (.continue, a) else a.handleActiveBranch t
  else if w.subCeilingReached t candidateTotal then
    a.fireThroughGate t .childrenPersistTooLong (some .childrenPersistTooLong)
  else if w.effectiveWaitingCeiling t.corroboration ≤ candidateTotal then
    if w.config.profile = .activityOnly then (.continue, a)
    else
      (.fire, ((a.quietly { w with lastFireReason := some .childrenPersistTooLong }).setStall true).emit
        (.hardStop .childrenPersistTooLong))
  else (.waitingOnChild, (a.announceSuspicion t candidateTotal).announceProgress t)

def handleDrainWindow (t : Tick) (startedAt : ℚ) : WatchdogVerdict × Announcer :=
  if t.classifyQuiet .drainWindow = .waitingOnChild then
    (a.quietly { a.watchdog with drainStartedAt := none }).handleWaitingBranch t
  else if t.now - startedAt < a.watchdog.config.drainWindowSeconds then (.continue, a)
  else a.fireThroughGate t .noOutputDeadline none

def evaluateFinalVerdict (t : Tick) : WatchdogVerdict × Announcer :=
  match a.watchdog.drainStartedAt with
  | some startedAt => a.handleDrainWindow t startedAt
  | none =>
    match a.ruled none (a.watchdog.postToolResultStalled t) with
    | (some verdict, a) => (verdict, a)
    | (none, a) =>
      if t.classifyQuiet .finalVerdict = .waitingOnChild then a.handleWaitingBranch t
      else if a.watchdog.channelEvidenceActive t .finalVerdict then (.continue, a)
      else a.handleActiveBranch t

/-! ## Evaluation -/

def evaluateQuiet (t : Tick) (idleElapsed idleTimeout : ℚ) : WatchdogVerdict × Announcer :=
  match a.ruled (some .noProgressQuiet)
    (if t.classifyQuiet .evaluate = .waitingOnChild then a.watchdog.evaluateNoProgressQuiet t idleElapsed
      else (none, a.watchdog)) with
  | (some verdict, a) => (verdict, a)
  | (none, a) =>
    if idleElapsed < idleTimeout then (.continue, a.accumulateWaitingRun t.now) else a.evaluateFinalVerdict t

def evaluateIdle (t : Tick) (idleElapsed : ℚ) : WatchdogVerdict × Announcer :=
  match a.watchdog.config.idleTimeoutSeconds with
  | none => (.continue, a)
  | some idleTimeout =>
    match a.ruled (some .strictlyStuck) (a.watchdog.evaluateStrictlyStuck t) with
    | (some verdict, a) => (verdict, a)
    | (none, a) => a.evaluateQuiet t idleElapsed idleTimeout

def evaluateStandard (t : Tick) : WatchdogVerdict × Announcer :=
  if a.watchdog.sessionCeilingReached t then a.fireThroughGate t .sessionCeilingExceeded none
  else
    match a.watchdog.repetitionReason t with
    | (some reason, w) => (a.quietly w).fireThroughGate t reason none
    | (none, w) =>
      match (a.quietly w).ruled (some .noOutputAtStart) (w.evaluateNoOutputAtStart t) with
      | (some verdict, a) => (verdict, a)
      | (none, a) => a.evaluateIdle t (t.now - a.watchdog.lastActivity)

def evaluate (t : Tick) : WatchdogVerdict × Announcer :=
  (a.quietly (a.watchdog.pollSubagentOutput t)).evaluateStandard t

/-! ## Calls -/

def perform : WatchdogCall → Announcer
  | .recordInvocationStart now => a.recordInvocationStart now
  | .recordActivity baselineAt outputAt =>
    (a.resetIdleBaseline baselineAt).quietly (a.watchdog.recordActivity baselineAt outputAt)
  | .recordLifecycleActivity now => a.resetIdleBaseline now
  | .recordToolUseActivity baselineAt outputAt =>
    (a.resetIdleBaseline baselineAt).quietly (a.watchdog.recordToolUseActivity baselineAt outputAt)
  | .recordToolCallActivity fingerprint now notedAt =>
    (a.accumulateWaitingRun now).quietly (a.watchdog.recordToolCallActivity fingerprint now notedAt)
  | .recordErrorActivity fingerprint now notedAt =>
    (a.accumulateWaitingRun now).quietly (a.watchdog.recordErrorActivity fingerprint now notedAt)
  | .recordProgressReport fingerprint first second =>
    (if a.watchdog.lastProgressFingerprint = some fingerprint then a.accumulateWaitingRun first
      else a.resetIdleBaseline first).quietly (a.watchdog.recordProgressReport fingerprint first second)
  | .recordToolResultActivity isHarnessEcho now baselineAt =>
    (if isHarnessEcho then a.accumulateWaitingRun now
      else (a.accumulateWaitingRun now).resetIdleBaseline baselineAt).quietly
        (a.watchdog.recordToolResultActivity isHarnessEcho now baselineAt)
  | .evaluate t => (a.evaluate t).2
  -- the calls that only note what a channel brought
  | call => a.quietly (a.watchdog.perform call)

def recordInvocationEnd : Announcer := a.setStall false

def create (config : TimeoutPolicy) (policy : StatusPolicy) (hasProcessMonitor : Bool) (now : ℚ) : Announcer where
  watchdog := IdleWatchdog.create { config with profile := .standard } hasProcessMonitor now
  policy := policy

end Announcer

inductive StatusCall
  | call (call : WatchdogCall)
  | recordInvocationEnd

def Announcer.step (a : Announcer) : StatusCall → Option Announcer
  | .call call => some (a.perform call)
  | .recordInvocationEnd => some a.recordInvocationEnd

end RalphWorkflow.Agents
