import RalphWorkflow.Agents.IdleWatchdog
import RalphWorkflow.Lib.Dict

/-! The registry of children (`ralph/process/child_liveness.py`), the captures that read it (`ralph/process/monitor/_discovery_strategy.py`) and the
poll of the watchdog over them, within one invocation. -/
namespace RalphWorkflow.Agents.SubagentOutput
open Lib

/-! ## The registry -/

structure MutableRecord where
  scopePrefix : String
  startedAt : ℚ
  lastProgressAt : Option ℚ := none
  lastHeartbeatAt : Option ℚ := none
  lastAckAt : Option ℚ := none
  lastKnownPhase : String := "spawned"
  terminalState : Option String := none
  deriving DecidableEq

structure ChildLivenessRegistry where
  progressTtl : ℚ
  heartbeatTtl : ℚ
  staleLabelTtl : ℚ
  exitReconcile : ℚ
  records : Dict String MutableRecord := ∅

namespace ChildLivenessRegistry

variable (registry : ChildLivenessRegistry) (childId : String) (now : ℚ)

def registerChild (scopePrefix phase : String) : ChildLivenessRegistry :=
  { registry with
    records := registry.records.set childId { scopePrefix, startedAt := now, lastKnownPhase := phase } }

/-- What the `record_` methods have in common: a child that is not registered is passed over. -/
def amend (change : MutableRecord → MutableRecord) : ChildLivenessRegistry :=
  match registry.records.get? childId with
  | none => registry
  | some record => { registry with records := registry.records.set childId (change record) }

def recordHeartbeat : ChildLivenessRegistry :=
  registry.amend childId fun record => { record with lastHeartbeatAt := some now }

def recordProgress (phase : Option String) : ChildLivenessRegistry :=
  registry.amend childId fun record =>
    { record with
      lastProgressAt := some now
      lastHeartbeatAt := some now
      lastKnownPhase := phase.getD record.lastKnownPhase }

def recordTerminalAck (terminalState : String) : ChildLivenessRegistry :=
  registry.amend childId fun record => { record with lastAckAt := some now, terminalState := some terminalState }

def heartbeatFresh (record : MutableRecord) : Bool :=
  match record.lastHeartbeatAt with
  | none => false
  | some heartbeatAt => now - heartbeatAt ≤ registry.heartbeatTtl

/-- A heartbeat, progress or, before any progress, the registration is recent enough. -/
def evidenceFresh (record : MutableRecord) : Bool :=
  registry.heartbeatFresh now record ||
    match record.lastProgressAt with
    | some progressAt => now - progressAt ≤ registry.progressTtl
    | none => now - record.startedAt ≤ registry.staleLabelTtl

def lasting (record : MutableRecord) : Bool :=
  match record.terminalState, record.lastAckAt with
  | some _, some ackAt => now - ackAt ≤ registry.exitReconcile
  | some _, none => true
  | none, _ => registry.evidenceFresh now record

def pruneStale : ChildLivenessRegistry :=
  { registry with records := registry.records.filter fun _ record => registry.lasting now record }

end ChildLivenessRegistry

/-! ## Captures -/

structure RegistryBackedSubagentOutputCapture where
  childId : String
  lastProgressAt : Option ℚ := none
  lastHeartbeatAt : Option ℚ := none
  lastTerminalState : Option String := none
  lastProgressPhase : Option String := none
  deriving DecidableEq

namespace RegistryBackedSubagentOutputCapture

variable (capture : RegistryBackedSubagentOutputCapture) (record : MutableRecord)

def readProgress : List String × RegistryBackedSubagentOutputCapture :=
  if record.lastProgressAt ≠ none ∧ (record.lastProgressAt ≠ capture.lastProgressAt ∨
      (some record.lastKnownPhase ≠ capture.lastProgressPhase ∧ record.lastProgressAt ≠ capture.lastProgressAt)) then
    (["[subagent] progress: phase=" ++ (if record.lastKnownPhase = "" then "progress" else record.lastKnownPhase)],
      { capture with lastProgressAt := record.lastProgressAt, lastProgressPhase := some record.lastKnownPhase })
  else ([], capture)

def readHeartbeat : List String × RegistryBackedSubagentOutputCapture :=
  if record.lastHeartbeatAt ≠ capture.lastHeartbeatAt then
    (["[subagent] heartbeat"], { capture with lastHeartbeatAt := record.lastHeartbeatAt })
  else ([], capture)

def readTerminal : List String × RegistryBackedSubagentOutputCapture :=
  match record.terminalState with
  | none => ([], capture)
  | some state =>
    if some state ≠ capture.lastTerminalState then
      (["[subagent] terminal: state=" ++ state], { capture with lastTerminalState := some state })
    else ([], capture)

def readRecord : List String × RegistryBackedSubagentOutputCapture :=
  let (progress, capture) := capture.readProgress record
  let (heartbeat, capture) := capture.readHeartbeat record
  let (terminal, capture) := capture.readTerminal record
  (progress ++ heartbeat ++ terminal, capture)

def readLines (registry : ChildLivenessRegistry) (workerId : String) : List String × RegistryBackedSubagentOutputCapture :=
  if workerId ≠ capture.childId then ([], capture)
  else
    match registry.records.get? capture.childId with
    | none => ([], capture)
    | some record => capture.readRecord record

end RegistryBackedSubagentOutputCapture

open RegistryBackedSubagentOutputCapture (readLines)

abbrev Captures : Type := Dict String RegistryBackedSubagentOutputCapture

def discoverSubagentOutputs (scopePrefix : String) (registry : ChildLivenessRegistry) (now : ℚ) : Captures :=
  (registry.records.filter fun _ record =>
      scopePrefix.toList.isPrefixOf record.scopePrefix.toList && record.terminalState.isNone &&
        registry.evidenceFresh now record).map
    fun childId _ => { childId }

/-- How the strategy is done: `DefaultProcessMonitor` makes an empty mapping of an exception. -/
inductive Discovery where
  | succeeds | strategyRaises | monitorRaises
  deriving DecidableEq

/-- `none` when it raises. -/
def Discovery.captures (discovery : Discovery) (scopePrefix : String) (registry : ChildLivenessRegistry) (now : ℚ) : Option Captures :=
  match discovery with
  | .succeeds => some (discoverSubagentOutputs scopePrefix registry now)
  | .strategyRaises => some ∅
  | .monitorRaises => none

/-! ## The poll -/

def maxSubagentOutputCaptures : Nat := 128

def maxEvictedTombstones : Nat := maxSubagentOutputCaptures

/-- The channels, the captures and the ids of evicted workers, oldest first. -/
structure Poller where
  watchdog : IdleWatchdog
  captures : Captures := ∅
  tombstones : List String := []

/-- The lines read, and the captures after it. -/
def readCaptures (registry : ChildLivenessRegistry) (tombstones : List String) :
    List (String × RegistryBackedSubagentOutputCapture) → Captures → Nat → Nat × Captures
  | [], captures, total => (total, captures)
  | (workerId, fresh) :: rest, captures, total =>
    if workerId ∈ tombstones then readCaptures registry tombstones rest captures total
    else
      let (lines, capture) := readLines ((captures.get? workerId).getD fresh) registry workerId
      readCaptures registry tombstones rest (captures.set workerId capture) (total + lines.length)

def bury (tombstones : List String) (workerId : String) : List String :=
  if workerId ∈ tombstones then tombstones else tombstones ++ [workerId]

/-- The oldest captures and tombstones past their caps are dropped, and captures of workers not discovered. -/
def Poller.settle (p : Poller) (live : List String) (captures : Captures) (tombstones : List String) : Poller :=
  let overflow := captures.entries.length - maxSubagentOutputCaptures
  let buried := (captures.keys.take overflow).foldl bury tombstones
  { p with
    captures := (captures.drop overflow).filter fun workerId _ => workerId ∈ live
    tombstones := buried.drop (buried.length - maxEvictedTombstones) }

def Poller.standing (p : Poller) (live : List String) : List String := p.tombstones.filter (· ∈ live)

/-- `poll_subagent_output` on what the monitor answers. -/
def Poller.pollDiscovered (p : Poller) (registry : ChildLivenessRegistry) (found : Captures) (now : ℚ) : Poller :=
  let tombstones := p.standing found.keys
  let (total, captures) := readCaptures registry tombstones found.entries p.captures 0
  let p := p.settle found.keys captures tombstones
  if 0 < total then { p with watchdog := p.watchdog.recordSubagentOutput total now } else p

def Poller.pollSubagentOutput (p : Poller) (scopePrefix : String) (registry : ChildLivenessRegistry) (discovery : Discovery) (now : ℚ) : Poller :=
  if !p.watchdog.hasProcessMonitor then p
  else
    match discovery.captures scopePrefix registry now with
    | none => p
    | some found => p.pollDiscovered registry found now

/-! ## Histories -/

structure World where
  scopePrefix : String
  now : ℚ
  registry : ChildLivenessRegistry
  poller : Poller
  /-- the children that recorded an event no poll has observed them after -/
  unseen : List String := []

inductive Move where
  | wait (seconds : ℚ)
  | register (childId scopePrefix phase : String)
  | heartbeat (childId : String)
  | progress (childId : String) (phase : Option String)
  | terminal (childId state : String)
  /-- a snapshot of the registry, or a query for its pids -/
  | prune
  | poll (discovery : Discovery)
  deriving DecidableEq

namespace World

variable (s : World)

def found (discovery : Discovery) : Captures :=
  if s.poller.watchdog.hasProcessMonitor then (discovery.captures s.scopePrefix s.registry s.now).getD ∅ else ∅

def Observes (discovery : Discovery) (childId : String) : Prop :=
  childId ∈ (s.found discovery).keys ∧ childId ∉ s.poller.tombstones

instance (discovery : Discovery) (childId : String) : Decidable (s.Observes discovery childId) :=
  inferInstanceAs (Decidable (_ ∧ _))

def record (childId : String) (registry : ChildLivenessRegistry) : World :=
  { s with registry, unseen := if s.registry.records.contains childId then childId :: s.unseen else s.unseen }

end World

def step (s : World) : Move → Option World
  | .wait seconds => if 0 ≤ seconds then some { s with now := s.now + seconds } else none
  | .register childId scopePrefix phase =>
    some { s with registry := s.registry.registerChild childId s.now scopePrefix phase }
  | .heartbeat childId => some (s.record childId (s.registry.recordHeartbeat childId s.now))
  | .progress childId phase => some (s.record childId (s.registry.recordProgress childId s.now phase))
  | .terminal childId state => some (s.record childId (s.registry.recordTerminalAck childId s.now state))
  | .prune => some { s with registry := s.registry.pruneStale s.now }
  | .poll discovery =>
    some { s with poller := s.poller.pollSubagentOutput s.scopePrefix s.registry discovery s.now
                  unseen := s.unseen.filter fun childId => ¬ s.Observes discovery childId }

end RalphWorkflow.Agents.SubagentOutput
