import RalphWorkflow.Lib.ProcessTree
import RalphWorkflow.Lib.Run

/-! `teardown_subtree` and `register_child_session` of `ralph/process/teardown.py`, and `cleanup_orphans` with `_terminate_by_pid` of the process
manager. A call takes a step for each question and each signal, among the steps of all processes. What psutil gives is a process; `killpg` has a
number only. -/
namespace RalphWorkflow.Teardown
open Lib.ProcessTree (World Proc boot)

def maxAncestorWalk : Nat := 32

def sessionRegistryMax : Nat := 256

inductive Call
  /-- `verified_child_session_pgid` of a PID -/
  | verifying (pid : Nat) (host : Option Nat)
  /-- its `os.getpgid`, ownership proved -/
  | leading (pid : Nat) (host : Option Nat)
  | recording (pid : Nat)
  /-- `_resolve_target`: the registry -/
  | resolving (hostPid : Nat)
  /-- `_resolve_target`: the process -/
  | looking (hostPid : Nat) (group : Option Nat)
  | forgetting (hostPid : Nat) (host : Option Nat) (group : Option Nat)
  /-- `host.children(recursive=True)` -/
  | listing (host : Nat) (group : Option Nat)
  /-- SIGTERM to the rest of the processes -/
  | terminating (rest procs : List Nat) (group : Option Nat)
  /-- SIGKILL to the rest of the survivors -/
  | killing (rest : List Nat) (group : Option Nat)
  /-- `_signal_process_group`: SIGTERM first, SIGKILL last -/
  | sweeping (group : Nat) (last : Bool)
  /-- `_kill_pgid` of `cleanup_orphans`, with the PIDs of the records of the label -/
  | killGroup (group : Nat) (others : List Nat)
  /-- `_terminate_by_pid`: the process, with its children -/
  | byPid (pid : Nat) (others : List Nat)
  | stopping (rest procs : List Nat) (pid : Nat) (others : List Nat)
  | finishing (rest : List Nat) (pid : Nat) (others : List Nat)
  /-- `_terminate_registered_descendants`: the next of the PIDs -/
  | reaping (pids others : List Nat)
  | reapingOne (descendant : Nat) (last : Bool) (pids others : List Nat)
  deriving DecidableEq

structure State where
  world : World := boot
  /-- this process -/
  self : Option Nat := none
  /-- `_SESSION_REGISTRY`, oldest first -/
  registry : List (Nat × Nat) := []
  /-- the `pid` and `pgid` of the records -/
  records : List (Nat × Nat) := []
  /-- `_descendants`, a pair for each registered one -/
  registered : List (Nat × Nat) := []
  calls : List Call := []
  /-- the processes that signals were sent to -/
  signalled : List Nat := []

/-! ## What the code asks -/

def State.pidOf (s : State) (i : Nat) : Nat :=
  (s.world.procs[i]?.map (·.pid)).getD 0

def State.getpgid (s : State) (pid : Nat) : Option Nat :=
  (s.world.holder pid).bind fun i => s.world.procs[i]?.map (·.group)

def State.ownPgid (s : State) : Option Nat :=
  s.self.bind fun i => s.world.procs[i]?.map (·.group)

def State.groupIsSafe (s : State) (pgid : Nat) : Bool :=
  !(pgid ≤ 1) && s.ownPgid != some pgid

def State.walk (s : State) (self : Nat) : Nat → Nat → Bool
  | 0, _ => false
  | steps + 1, i =>
    match s.world.parent i with
    | none => false
    | some parent =>
      if s.pidOf parent ≤ 1 then false
      else if s.pidOf parent = s.pidOf self then true
      else s.walk self steps parent

def State.isOwnDescendant (s : State) (i : Nat) : Bool :=
  s.self.any fun self => s.walk self maxAncestorWalk i

def State.registeredSessionPgid (s : State) (pid : Nat) : Option Nat :=
  s.registry.lookup pid

def State.forgetChildSession (s : State) (pid : Nat) : State :=
  { s with registry := s.registry.filter (·.1 != pid) }

/-- The store of `register_child_session`: at the end, and the oldest go. -/
def State.record (s : State) (pid : Nat) : State :=
  let registry := s.registry.filter (·.1 != pid) ++ [(pid, pid)]
  { s with registry := registry.drop (registry.length - sessionRegistryMax) }

/-! ## What it sends -/

/-- psutil's `terminate` or `kill`: nothing is sent when the process is gone. -/
def State.send (s : State) (i : Nat) : State :=
  if s.world.procs[i]?.any fun p => p.phase != .reaped then { s with signalled := s.signalled ++ [i] } else s

def State.killpg (s : State) (group : Nat) : State :=
  { s with signalled := s.signalled ++ s.world.members group }

/-! ## The calls -/

def nextRecord : List Nat → Option Call
  | [] => none
  | pid :: others => some (.byPid pid others)

def nextDescendant : List Nat → List Nat → Option Call
  | [], others => nextRecord others
  | pid :: pids, others => some (.reaping (pid :: pids) others)

def sweep : Option Nat → Option Call
  | none => none
  | some group => some (.sweeping group false)

/-- The next step of a call, and what is left of it; `there` says whether a process or group is there. -/
def advance (s : State) (there : Bool) : Call → State × Option Call
  | .verifying pid host =>
    let refused := host.map fun i => Call.forgetting pid (some i) none
    if pid ≤ 1 then (s, refused)
    else
      match s.world.holder pid with
      | none => (s, refused)
      | some i => (s, if s.isOwnDescendant i then some (.leading pid host) else refused)
  | .leading pid host =>
    let verified := s.getpgid pid = some pid ∧ s.groupIsSafe pid
    match host with
    | none => (s, if verified then some (.recording pid) else none)
    | some i => (s, some (.forgetting pid (some i) (if verified then some pid else none)))
  | .recording pid => (s.record pid, none)
  | .resolving hostPid =>
    let group := (s.registeredSessionPgid hostPid).filter s.groupIsSafe
    if hostPid ≤ 1 then (s, some (.forgetting hostPid none none))
    else (s, some (.looking hostPid group))
  | .looking hostPid group =>
    match s.world.holder hostPid with
    | none => (s, some (.forgetting hostPid none group))
    | some i =>
      if s.isOwnDescendant i then
        match group with
        | some group => (s, some (.forgetting hostPid (some i) (some group)))
        | none => (s, some (.verifying hostPid (some i)))
      else (s, some (.forgetting hostPid none none))
  | .forgetting hostPid host group =>
    match host with
    | some i => (s.forgetChildSession hostPid, some (.listing i group))
    | none => (s.forgetChildSession hostPid, sweep group)
  | .listing host group =>
    let procs := host :: if there then s.world.descendants host else []
    (s, some (.terminating procs procs group))
  | .terminating (i :: rest) procs group => (s.send i, some (.terminating rest procs group))
  | .terminating [] procs group => (s, some (.killing procs group))
  | .killing (i :: rest) group => (if there then s.send i else s, some (.killing rest group))
  | .killing [] group => (s, sweep group)
  | .sweeping group false =>
    -- until the SIGKILL the group is asked for, and may be gone
    if s.groupIsSafe group then (s.killpg group, if there then some (.sweeping group true) else none) else (s, none)
  | .sweeping group true => (s.killpg group, none)
  | .killGroup group others => (if group ≤ 1 then s else s.killpg group, nextRecord others)
  | .byPid pid others =>
    match s.world.holder pid with
    | none => (s, nextRecord others)
    | some i =>
      let procs := i :: s.world.descendants i
      (s, some (.stopping procs procs pid others))
  | .stopping (i :: rest) procs pid others => (s.send i, some (.stopping rest procs pid others))
  | .stopping [] procs pid others => (s, some (.finishing procs pid others))
  | .finishing (i :: rest) pid others => (if there then s.send i else s, some (.finishing rest pid others))
  | .finishing [] pid others =>
    -- a process that survived leaves the registered ones alone
    if there then (s, nextRecord others)
    else
      let pids := (s.registered.filter (·.1 == pid)).map (·.2)
      ({ s with registered := s.registered.filter (·.1 != pid) }, nextDescendant pids others)
  | .reaping (pid :: pids) others =>
    match s.world.holder pid with
    | none => (s, nextDescendant pids others)
    | some i => (s, some (.reapingOne i false pids others))
  | .reaping [] others => (s, nextRecord others)
  | .reapingOne i false pids others => (s.send i, some (.reapingOne i true pids others))
  | .reapingOne i true pids others => (s.send i, nextDescendant pids others)

inductive Label
  | fork (parent pid : Nat)
  | setsid (i : Nat)
  | exit (i : Nat)
  | reap (i : Nat)
  /-- The process is this one from here on. -/
  | begin (i : Nat)
  /-- A child has a record, and its group is asked for. -/
  | track (i : Nat)
  | registerDescendant (parentPid descendantPid : Nat)
  | registerChildSession (pid : Nat)
  | teardownSubtree (hostPid : Nat)
  /-- on the handle of a child spawned in a session of its own -/
  | cleanupOrphans (record : Nat) (labelled : List Nat)
  | advance (call : Nat) (there : Bool)
  deriving DecidableEq

def State.on (s : State) (world : Option World) : Option State :=
  world.map fun world => { s with world := world }

def State.start (s : State) (call : Call) : State :=
  { s with calls := s.calls ++ [call] }

def step (s : State) : Label → Option State
  | .fork parent pid => s.on (s.world.fork parent pid)
  | .setsid i => s.on (s.world.setsid i)
  | .exit i => if s.self = some i then none else s.on (s.world.exit i)
  | .reap i => s.on (s.world.reap i)
  | .begin i =>
    if s.self = none ∧ s.world.procs[i]?.any (fun p => p.phase == .running) then some { s with self := some i } else none
  | .track i =>
    s.world.procs[i]?.bind fun p =>
      if s.self.isSome ∧ p.creator = s.self ∧ p.phase ≠ .reaped then
        some { s with records := s.records ++ [(p.pid, p.group)] }
      else none
  | .registerDescendant parentPid descendantPid =>
    if (parentPid, descendantPid) ∈ s.registered then some s
    else some { s with registered := s.registered ++ [(parentPid, descendantPid)] }
  | .registerChildSession pid => some (s.start (.verifying pid none))
  | .teardownSubtree hostPid => some (s.start (.resolving hostPid))
  | .cleanupOrphans record labelled =>
    s.records[record]?.bind fun (pid, pgid) =>
      let others := (labelled.filterMap (s.records[·]?)).map (·.1)
      if pgid = pid then some (s.start (.killGroup pgid (others.filter (· != pid)))) else none
  | .advance call there =>
    s.calls[call]?.map fun current =>
      let (s, left) := advance s there current
      match left with
      | none => { s with calls := s.calls.eraseIdx call }
      | some next => { s with calls := s.calls.set call next }

end RalphWorkflow.Teardown
