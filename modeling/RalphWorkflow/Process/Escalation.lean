import RalphWorkflow.Lib.Dict

/-! The termination paths of the process manager with psutil: terminate the tree of a record, wait, kill who is left, wait again, and mark the
record. The processes and psutil are a machine with a phase for each process at each moment. -/
namespace RalphWorkflow.Escalation
open Lib (Dict)

/-! ## The processes -/

inductive Phase
  | alive
  /-- dead, and its parent has not waited for it -/
  | zombie
  | gone
  deriving DecidableEq

def Phase.rank : Phase → Nat
  | .alive => 0
  | .zombie => 1
  | .gone => 2

inductive Stage
  /-- the check of the PTY path, before that of the sync one -/
  | ptyCheck
  | check
  | lookup
  | listing
  /-- `proc.terminate()` of the owned process -/
  | owned
  /-- `proc.poll()` after it -/
  | polled
  | terminate
  /-- the end of the wait for the grace period -/
  | graceWait
  | kill
  /-- the end of the wait after the kill -/
  | killWait
  /-- the check of the survivors -/
  | survivors
  | descendantLookup
  | descendantTerminate
  | descendantKill
  /-- the record gets its last status -/
  | marked
  deriving DecidableEq

def Stage.index (t : Stage) : Nat := t.ctorIdx

structure Answer where
  /-- psutil raises `AccessDenied` -/
  denied : Bool := false
  /-- `pid_exists`, or `os.kill(pid, 0)` where psutil gave no answer, fails with another error -/
  unsure : Bool := false
  /-- `wait_procs` lists the process as gone, when it is -/
  noticed : Bool := true

structure Machine where
  phase : Nat → Stage → Phase
  /-- No process comes back. -/
  fades : ∀ pid t u, t.index ≤ u.index → (phase pid t).rank ≤ (phase pid u).rank
  /-- `root.children(recursive=True)` -/
  children : List Nat
  answer : Nat → Stage → Answer
  /-- `wait_procs` raises `OSError` -/
  waitFails : Stage → Bool

namespace Machine

variable (m : Machine)

/-! ## Liveness -/

inductive LivenessResult
  | alive
  | gone
  | zombie
  | unknown
  deriving DecidableEq

/-- `_posix_liveness` and `_psutil_pid_exists_liveness`: a process that is there counts as alive. -/
def existence (pid : Nat) (t : Stage) : LivenessResult :=
  if (m.answer pid t).unsure then .unknown
  else if m.phase pid t = .gone then .gone
  else .alive

def verifyProcessLiveness (pid : Nat) (t : Stage) : LivenessResult :=
  if m.phase pid t = .zombie ∧ (m.answer pid t).denied = false then .zombie
  else m.existence pid t

/-! ## Asking and signalling -/

inductive Refusal
  | noSuchProcess
  | accessDenied
  deriving DecidableEq

def ask (pid : Nat) (t : Stage) : Except Refusal Unit :=
  if m.phase pid t = .gone then .error .noSuchProcess
  else if (m.answer pid t).denied then .error .accessDenied
  else .ok ()

def enumerate (root : Nat) : Except Refusal (List Nat) := do
  m.ask root .lookup
  m.ask root .listing
  return root :: m.children

/-- psutil's `terminate` or `kill` of each process: those that are sent the signal. -/
def signal (procs : List Nat) (t : Stage) : List Nat :=
  procs.filter fun pid => m.ask pid t = .ok ()

def safeWaitProcs (procs : List Nat) (t : Stage) : List Nat :=
  if m.waitFails t then
    procs.filter fun pid => m.verifyProcessLiveness pid t ∉ [LivenessResult.gone, .zombie]
  else
    procs.filter fun pid => !(m.phase pid t = .gone && (m.answer pid t).noticed)

def outliving (tree : List Nat) : List Nat :=
  m.safeWaitProcs tree .graceWait

def stillAlive (tree : List Nat) : List Nat :=
  m.safeWaitProcs (m.outliving tree) .killWait

/-- Terminate, wait, kill: whom the signals are sent to. -/
def takenDown (tree : List Nat) : List Nat :=
  m.signal tree .terminate ++ m.signal (m.outliving tree) .kill

end Machine

/-! ## The registry -/

abbrev Descendants := Dict Nat (List Nat)

def registerDescendant (descendants : Descendants) (parentPid descendantPid : Nat) : Descendants :=
  let known := descendants.getD parentPid []
  descendants.set parentPid (if descendantPid ∈ known then known else known ++ [descendantPid])

def registered (calls : List (Nat × Nat)) : Descendants :=
  calls.foldl (fun descendants call => registerDescendant descendants call.1 call.2) ∅

/-- A PID that cannot be looked up gets no signal and counts as terminated. -/
def Machine.terminateRegisteredDescendant (m : Machine) (descendantPid : Nat) : List Nat :=
  if descendantPid ≤ 0 then []
  else if m.ask descendantPid .descendantLookup = .ok () then
    m.signal [descendantPid] .descendantTerminate ++ m.signal [descendantPid] .descendantKill
  else []

def Machine.terminateRegisteredDescendants (m : Machine) (descendants : Descendants) (pid : Nat) : List Nat :=
  (descendants.getD pid []).flatMap m.terminateRegisteredDescendant

/-! ## The paths -/

inductive ProcessStatus
  | killed
  | failed
  deriving DecidableEq

structure Outcome where
  status : ProcessStatus
  /-- the stage of the `ProcessTerminationError` that is raised -/
  raised : Option String
  /-- the root with its children -/
  enumerated : List Nat
  /-- the survivors of the grace period were killed -/
  forced : Bool
  signalled : List Nat
  deriving DecidableEq

structure ProcessRecord where
  pid : Nat
  label : Option String

def ProcessRecord.invokes (record : ProcessRecord) : Bool :=
  record.label.any fun label => "invoke:".toList.isPrefixOf label.toList

/-- `_mark_killed` when the root was not there to begin with. -/
def foundGone : Outcome :=
  { status := .killed, raised := none, enumerated := [], forced := false, signalled := [] }

def accessDenied : Outcome :=
  { status := .failed, raised := some "access_denied", enumerated := [], forced := false, signalled := [] }

namespace Machine

variable (m : Machine)

/-- What is made of those alive after the kill; `zombie` is the check of the path. -/
def conclude (descendants : Descendants) (pid : Nat) (tree signalled : List Nat) (zombie : List Nat → Bool) : Outcome :=
  let stillAlive := m.stillAlive tree
  if stillAlive.isEmpty then
    { status := .killed, raised := none, enumerated := tree, forced := true,
      signalled := signalled ++ m.terminateRegisteredDescendants descendants pid }
  else if zombie stillAlive then
    { status := .killed, raised := none, enumerated := tree, forced := true, signalled := signalled }
  else
    { status := .failed, raised := some "force_kill", enumerated := tree, forced := true, signalled := signalled }

def anyZombie (stillAlive : List Nat) : Bool :=
  stillAlive.any fun pid => m.verifyProcessLiveness pid .survivors = .zombie

def escalateWithPsutil (descendants : Descendants) (record : ProcessRecord) : Outcome :=
  match m.enumerate record.pid with
  | .error .noSuchProcess => foundGone
  | .error .accessDenied => accessDenied
  | .ok tree => m.conclude descendants record.pid tree (m.takenDown tree) m.anyZombie

def terminateByPid (descendants : Descendants) (record : ProcessRecord) : Outcome :=
  if m.verifyProcessLiveness record.pid .check = .gone then foundGone
  else m.escalateWithPsutil descendants record

def escalateAsyncInSyncContext (descendants : Descendants) (record : ProcessRecord) : Outcome :=
  if m.verifyProcessLiveness record.pid .check = .gone then foundGone
  else m.escalateWithPsutil descendants record

/-- `proc.terminate()` of the owned process: nothing is sent once it has exited. -/
def driven (pid : Nat) : List Nat :=
  [pid].filter fun pid => m.phase pid .owned = .alive

def exited (pid : Nat) : Bool :=
  m.phase pid .polled ≠ .alive

def escalateTerminationSync (descendants : Descendants) (record : ProcessRecord) (masterFd : Bool) : Outcome :=
  if m.verifyProcessLiveness record.pid .check = .gone then foundGone
  else match m.enumerate record.pid with
    | .error .noSuchProcess => foundGone
    | .error .accessDenied => accessDenied
    | .ok tree =>
      if record.invokes && !masterFd && m.exited record.pid then
        { status := .killed, raised := none, enumerated := tree, forced := false,
          signalled := m.driven record.pid ++ m.terminateRegisteredDescendants descendants record.pid }
      else m.conclude descendants record.pid tree (m.driven record.pid ++ m.takenDown tree) m.anyZombie

def escalateTerminationPty (descendants : Descendants) (record : ProcessRecord) : Outcome :=
  if m.verifyProcessLiveness record.pid .ptyCheck = .gone then foundGone
  else m.escalateTerminationSync descendants record true

/-- A root that is not there when looked up leaves nobody alive; after the kill only the root is looked at. -/
def escalateTerminationAsync (descendants : Descendants) (record : ProcessRecord) : Outcome :=
  if m.verifyProcessLiveness record.pid .check = .gone then foundGone
  else match m.enumerate record.pid with
    | .error .noSuchProcess => { foundGone with signalled := m.terminateRegisteredDescendants descendants record.pid }
    | .error .accessDenied => accessDenied
    | .ok tree =>
      m.conclude descendants record.pid tree (m.takenDown tree) fun _ =>
        m.verifyProcessLiveness record.pid .survivors = .zombie

end Machine

inductive Path
  | sync
  | pty
  | async
  /-- async, with no loop to run in -/
  | asyncInSync
  | byPid
  deriving DecidableEq

def Machine.terminated (m : Machine) (descendants : Descendants) (record : ProcessRecord) : Path → Outcome
  | .sync => m.escalateTerminationSync descendants record false
  | .pty => m.escalateTerminationPty descendants record
  | .async => m.escalateTerminationAsync descendants record
  | .asyncInSync => m.escalateAsyncInSyncContext descendants record
  | .byPid => m.terminateByPid descendants record

end RalphWorkflow.Escalation
