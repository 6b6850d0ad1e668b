import RalphWorkflow.Lib.Run

/-! `RestartAwareMcpBridge` of `ralph/mcp/server/lifecycle.py` with `_spawn_mcp_process`, under the main thread and the `McpSupervisor`s of
`ralph/process/mcp_supervisor.py`. A call takes a step for each thing it asks of a process, in any order of the threads; a server may exit at any
time. -/
namespace RalphWorkflow.RestartBridge

def probeFailuresBeforeRestart : Nat := 3

def toolRegistryMaxResets : Nat := 3

/-- What leaves a call: the supervisor ends with the first and the last, and goes on after the second. -/
inductive Raised
  | mcpServerError | exception | baseException
  deriving DecidableEq

/-- `check_health_and_restart_if_needed` and `reset_tool_registry` -/
inductive Call
  | check | reset
  deriving DecidableEq

inductive Place
  | idle
  /-- at the lock -/
  | waiting (call : Call)
  | polling
  | probing
  /-- before the shutdown of the server there is -/
  | stopping (call : Call)
  /-- before `_restart_fn` -/
  | starting (call : Call)
  | preflight (call : Call) (server : Nat)
  /-- before the shutdown of a server whose preflight failed -/
  | abandoning (call : Call) (server : Nat)
  /-- `_verify_alias_present` -/
  | verifying
  /-- in the bridge's `shutdown` -/
  | shutting (server : Nat)
  /-- in `McpSupervisor.__exit__` -/
  | joining (supervisor : Nat)
  | over
  deriving DecidableEq

structure RestartAwareMcpBridge where
  inner : Nat
  restartCount : Nat := 0
  consecutiveProbeFailures : Nat := 0
  toolRegistryResets : Nat := 0
  deriving DecidableEq

structure Ledger where
  /-- calls of `_restart_fn` by health checks -/
  attempts : Nat := 0
  /-- those that raised -/
  failures : Nat := 0
  /-- the probes of the server there is that failed, since the last that did not -/
  misses : Nat := 0
  /-- A health check went to replace a running server of fewer misses than it takes. -/
  hasty : Bool := false
  /-- The bridge's `shutdown` has returned. -/
  down : Bool := false
  /-- A server was spawned after that. -/
  late : Bool := false
  deriving DecidableEq

structure State where
  bridge : RestartAwareMcpBridge
  alive : List Nat
  spawned : Nat
  ledger : Ledger := {}
  lock : Option Nat := none
  threads : Nat → Place := fun _ => .idle
  entered : Nat → Bool := fun _ => false
  done : Nat → Bool := fun _ => false

def start : State where
  bridge := { inner := 0 }
  alive := [0]
  spawned := 1

def State.at (s : State) (thread : Nat) (place : Place) : State :=
  { s with threads := fun t => if t = thread then place else s.threads t }

def afterCall (thread : Nat) (raised : Option Raised) : Place :=
  if thread = 0 then .idle
  else
    match raised with
    | none | some .exception => .idle
    | some .mcpServerError | some .baseException => .over

def State.leave (s : State) (thread : Nat) (raised : Option Raised) : State :=
  { s with lock := none }.at thread (afterCall thread raised)

def State.dead (s : State) (server : Nat) : State :=
  { s with alive := s.alive.filter (· != server) }

/-! ## The calls -/

inductive Event
  /-- The main thread calls. -/
  | call (call : Call)
  /-- The supervisor's wait for `_done` is over. -/
  | tick
  | lock
  | poll (raises : Option Raised)
  | probed
  | probeFailed
  | probeEscaped (raised : Raised)
  | stop (raises : Option Raised)
  | spawn (raises : Option Raised)
  | ready
  | unready
  | preflightEscaped (raised : Raised)
  | abandon (raises : Option Raised)
  | verify (raises : Option Raised)
  | shutdown
  | shutdownEnds (raises : Option Raised)
  | enter (supervisor : Nat)
  | exit (supervisor : Nat)
  /-- The thread has ended, or the time of the join is up. -/
  | joined
  deriving DecidableEq

/-- The restart budget of a health check that has found its server exited or unresponsive. -/
def toRestart (maxRestarts : Nat) (s : State) (thread : Nat) : State :=
  if maxRestarts ≤ s.bridge.restartCount then s.leave thread (some .mcpServerError)
  else s.at thread (.stopping .check)

def onPoll (maxRestarts : Nat) (s : State) (thread : Nat) : State :=
  if s.bridge.inner ∈ s.alive then s.at thread .probing
  else
    toRestart maxRestarts
      { s with
        bridge := { s.bridge with consecutiveProbeFailures := 0 }
        ledger := { s.ledger with misses := 0 } }
      thread

def onProbed (s : State) (thread : Nat) : State :=
  { s with
    bridge := { s.bridge with consecutiveProbeFailures := 0 }
    ledger := { s.ledger with misses := 0 } }.leave thread none

/-- A health check whose probe fails goes to replace the server. -/
def replaces (maxRestarts : Nat) (s : State) : Bool :=
  !(s.bridge.consecutiveProbeFailures + 1 < probeFailuresBeforeRestart) && !(maxRestarts ≤ s.bridge.restartCount)

def onProbeFailed (maxRestarts : Nat) (s : State) (thread : Nat) : State :=
  let failures := s.bridge.consecutiveProbeFailures + 1
  let misses := s.ledger.misses + 1
  let hasty := s.ledger.hasty || (replaces maxRestarts s && misses < probeFailuresBeforeRestart)
  let next :=
    { s with
      bridge := { s.bridge with consecutiveProbeFailures := failures }
      ledger := { s.ledger with misses, hasty } }
  if failures < probeFailuresBeforeRestart then next.leave thread none
  else toRestart maxRestarts next thread

def Ledger.fail (ledger : Ledger) : Call → Ledger
  | .check => { ledger with failures := ledger.failures + 1 }
  | .reset => ledger

def onSpawn (s : State) (thread : Nat) (call : Call) (raises : Option Raised) : State :=
  let ledger := if call = .check then { s.ledger with attempts := s.ledger.attempts + 1 } else s.ledger
  match raises with
  | some raised => { s with ledger := ledger.fail call }.leave thread (some raised)
  | none =>
    { s with
      alive := s.spawned :: s.alive
      spawned := s.spawned + 1
      ledger := { ledger with late := ledger.late || ledger.down } }.at thread (.preflight call s.spawned)

def onReady (s : State) (thread : Nat) (call : Call) (server : Nat) : State :=
  let ledger := { s.ledger with misses := 0 }
  match call with
  | .check =>
    let restartCount := s.bridge.restartCount + 1
    { s with
      bridge := { s.bridge with inner := server, restartCount, consecutiveProbeFailures := 0 }
      ledger := ledger }.leave thread none
  | .reset => { s with bridge := { s.bridge with inner := server }, ledger := ledger }.at thread .verifying

def onLock (s : State) (thread : Nat) (call : Call) : State :=
  match call with
  | .check => { s with lock := some thread }.at thread .polling
  | .reset =>
    if toolRegistryMaxResets ≤ s.bridge.toolRegistryResets then s.leave thread (some .mcpServerError)
    else
      let bridge := { s.bridge with toolRegistryResets := s.bridge.toolRegistryResets + 1 }
      { s with lock := some thread, bridge := bridge }.at thread (.stopping .reset)

def actInside (maxRestarts : Nat) (s : State) (thread : Nat) (event : Event) : Option State :=
  match s.threads thread, event with
  | .polling, .poll (some raised) => some (s.leave thread (some raised))
  | .polling, .poll none => some (onPoll maxRestarts s thread)
  | .probing, .probed => some (onProbed s thread)
  | .probing, .probeFailed => some (onProbeFailed maxRestarts s thread)
  | .probing, .probeEscaped raised => some (s.leave thread (some raised))
  | .stopping _, .stop (some raised) => some (s.leave thread (some raised))
  | .stopping call, .stop none => some ((s.dead s.bridge.inner).at thread (.starting call))
  | .starting call, .spawn raises => some (onSpawn s thread call raises)
  | .preflight call server, .ready => some (onReady s thread call server)
  | .preflight call server, .unready => some (s.at thread (.abandoning call server))
  | .preflight call _, .preflightEscaped raised =>
    some ({ s with ledger := s.ledger.fail call }.leave thread (some raised))
  | .abandoning call _, .abandon (some raised) =>
    some ({ s with ledger := s.ledger.fail call }.leave thread (some raised))
  | .abandoning call server, .abandon none =>
    some (({ s with ledger := s.ledger.fail call }.dead server).leave thread (some .mcpServerError))
  | .verifying, .verify raises => some (s.leave thread raises)
  | _, _ => none

def actOutside (s : State) (thread : Nat) (event : Event) : Option State :=
  match s.threads thread, event with
  | .idle, .call call => if thread = 0 then some (s.at thread (.waiting call)) else none
  | .idle, .tick =>
    if thread = 0 ∨ s.entered thread = false then none
    else some (s.at thread (if s.done thread then .over else .waiting .check))
  | .idle, .shutdown => if thread = 0 then some (s.at thread (.shutting s.bridge.inner)) else none
  | .shutting _, .shutdownEnds (some _) => some (s.at thread .idle)
  | .shutting server, .shutdownEnds none =>
    some ({ s.dead server with ledger := { s.ledger with down := true } }.at thread .idle)
  | .idle, .enter supervisor =>
    if thread = 0 then some { s with entered := fun k => if k = supervisor then true else s.entered k } else none
  | .idle, .exit supervisor =>
    if thread = 0 then
      some ({ s with done := fun k => if k = supervisor then true else s.done k }.at thread (.joining supervisor))
    else none
  | .joining _, .joined => some (s.at thread .idle)
  | _, _ => none

inductive Label
  | act (thread : Nat) (event : Event)
  /-- A server exits by itself. -/
  | die (server : Nat)
  deriving DecidableEq

def Place.inside : Place → Bool
  | .polling | .probing | .stopping _ | .starting _ | .preflight _ _ | .abandoning _ _ | .verifying => true
  | _ => false

def step (maxRestarts : Nat) (s : State) : Label → Option State
  | .die server => some (s.dead server)
  | .act thread event =>
    match s.threads thread, event with
    | .waiting call, .lock => if s.lock = none then some (onLock s thread call) else none
    | place, event => if place.inside then actInside maxRestarts s thread event else actOutside s thread event

end RalphWorkflow.RestartBridge
