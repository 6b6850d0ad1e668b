import RalphWorkflow.Lib.Dict
import RalphWorkflow.Lib.Run

/-! How `ProcessManager` of `ralph/process/manager/_process_manager.py` keeps its children. A record is the number of its spawn. What a thread has
decided and what it then does are steps of their own, and so are the writes of a spawn, which takes no lock, and of a mark. -/
namespace RalphWorkflow.Processes
open Lib

inductive ProcessStatus
  | spawned | running | exited | killed | failed
  deriving DecidableEq

def ProcessStatus.terminal : ProcessStatus → Bool
  | .spawned | .running => false
  | .exited | .killed | .failed => true

inductive Mark
  | exited | killed | terminationFailed
  deriving DecidableEq

def Mark.status : Mark → ProcessStatus
  | .exited => .exited
  | .killed => .killed
  | .terminationFailed => .failed

/-- Which of `_sync_procs`, `_pty_procs` and `_async_procs` holds the process object. -/
inductive Kind
  | sync | pty | async
  deriving DecidableEq

inductive Child
  | running | zombie | reaped
  deriving DecidableEq

inductive Stage
  | launched | entered | tracked
  deriving DecidableEq

/-- A record with its child, the spawn's progress, and how often it became terminal. -/
structure ProcessRecord where
  pid : Int
  kind : Kind
  status : ProcessStatus := .running
  child : Child := .running
  stage : Stage := .launched
  transitions : Nat := 0
  events : Nat := 0
  deriving DecidableEq

def ProcessRecord.live (r : ProcessRecord) : Bool :=
  !r.status.terminal && r.stage != .launched

structure ProcessManager where
  /-- every record there was -/
  spawns : List ProcessRecord := []
  records : Dict Int Nat := ∅
  /-- `_sync_procs`, `_pty_procs` and `_async_procs` -/
  procs : Kind → Dict Int Nat := fun _ => ∅
  /-- the marks that threads have decided on -/
  decided : List (Nat × Mark) := []
  /-- The mark that has `_status_lock`, with the process objects it has still to take out. -/
  marking : Option (Nat × List Kind) := none
  /-- the terminal events that are still to be emitted -/
  unemitted : List Nat := []

def ProcessManager.listActive (s : ProcessManager) : List Nat :=
  s.records.values.filter fun i => s.spawns[i]?.any fun r => !r.status.terminal

inductive LivenessResult
  | alive | gone | zombie | unknown
  deriving DecidableEq

inductive Label
  /-- The factory returns a child. -/
  | launch (kind : Kind) (pid : Nat)
  /-- The factory raises. -/
  | launchFails (kind : Kind)
  /-- `_records[pid] = record` -/
  | enter (i : Nat)
  /-- `_sync_procs[pid] = proc`, or that of the kind -/
  | track (i : Nat)
  | exit (i : Nat)
  | reap (i : Nat)
  /-- `poll`, `wait` or `communicate` of the handle's owner gets a return code. -/
  | observe (i : Nat)
  /-- `_reconcile_stale_entries` at one PID -/
  | reconcile (pid : Int) (liveness : LivenessResult)
  /-- A termination ends, the process killed or still there. -/
  | terminate (i : Nat) (failed : Bool)
  /-- A thread takes `_status_lock` for one of the marks decided on. -/
  | mark (k : Nat)
  /-- The mark's next write. -/
  | pop
  | emit (k : Nat)
  deriving DecidableEq

def ProcessManager.update (s : ProcessManager) (i : Nat) (f : ProcessRecord → ProcessRecord) : ProcessManager :=
  { s with spawns := s.spawns.modify i f }

def ProcessManager.decideMark (s : ProcessManager) (i : Nat) (r : ProcessRecord) (mark : Mark) : ProcessManager :=
  if r.status.terminal then s else { s with decided := s.decided ++ [(i, mark)] }

def ProcessRecord.become (r : ProcessRecord) (status : ProcessStatus) : ProcessRecord :=
  { r with status, transitions := r.transitions + 1 }

def ProcessRecord.told (r : ProcessRecord) : ProcessRecord :=
  { r with events := r.events + 1 }

def reconcile (s : ProcessManager) (pid : Int) (liveness : LivenessResult) : ProcessManager :=
  match s.records.get? pid with
  | none => s
  | some i =>
    match s.spawns[i]?, liveness with
    | none, _ | some _, .alive => s
    -- a zombie is reaped before its record is marked
    | some r, .gone | some r, .unknown | some r, .zombie => s.decideMark i r .killed

/-- The mark takes the lock, looks at the status again and writes it, up to the first pop. -/
def mark (s : ProcessManager) (k : Nat) : Option ProcessManager :=
  match s.marking, s.decided[k]? with
  | none, some (i, mark) =>
    let s := { s with decided := s.decided.eraseIdx k }
    s.spawns[i]?.map fun r =>
      if r.status.terminal then s
      else { s.update i (·.become mark.status) with marking := some (i, [.sync, .pty, .async]) }
  | _, _ => none

def pop (s : ProcessManager) : Option ProcessManager :=
  match s.marking with
  | none => none
  | some (i, rest) =>
    s.spawns[i]?.map fun r =>
      match rest with
      | kind :: rest =>
        { s with
          procs := fun other => if other = kind then (s.procs kind).erase r.pid else s.procs other
          marking := some (i, rest) }
      | [] => { s with records := s.records.erase r.pid, marking := none, unemitted := s.unemitted ++ [i] }

def step (s : ProcessManager) : Label → Option ProcessManager
  | .launch kind pid =>
    -- a PID is free once the child that had it was reaped
    if ∀ r ∈ s.spawns, r.pid = pid → r.child = .reaped then
      some { s with spawns := s.spawns ++ [{ pid, kind }] }
    else none
  | .launchFails kind =>
    let r := { pid := -1, kind, status := .failed, child := .reaped, transitions := 1, events := 1 }
    some { s with spawns := s.spawns ++ [r] }
  | .enter i =>
    s.spawns[i]?.bind fun r =>
      if r.stage = .launched ∧ r.status = .running then
        some { s.update i ({ · with stage := .entered }) with records := s.records.set r.pid i }
      else none
  | .track i =>
    s.spawns[i]?.bind fun r =>
      if r.stage = .entered then
        let procs := fun kind => if kind = r.kind then (s.procs kind).set r.pid i else s.procs kind
        some { s.update i ({ · with stage := .tracked }) with procs := procs }
      else none
  | .exit i =>
    s.spawns[i]?.bind fun r => if r.child = .running then some (s.update i ({ · with child := .zombie })) else none
  | .reap i =>
    s.spawns[i]?.bind fun r => if r.child = .zombie then some (s.update i ({ · with child := .reaped })) else none
  | .observe i =>
    s.spawns[i]?.bind fun r =>
      if r.stage = .tracked ∧ r.child ≠ .running then
        some ((s.decideMark i r .exited).update i ({ · with child := .reaped }))
      else none
  | .reconcile pid liveness => some (reconcile s pid liveness)
  | .terminate i failed =>
    s.spawns[i]?.bind fun r =>
      if r.stage = .launched then none else some (s.decideMark i r (if failed then .terminationFailed else .killed))
  | .mark k => mark s k
  | .pop => pop s
  | .emit k =>
    s.unemitted[k]?.map fun i => { s.update i (·.told) with unemitted := s.unemitted.eraseIdx k }

end RalphWorkflow.Processes
