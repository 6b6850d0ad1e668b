import RalphWorkflow.Lib.Run

/-! `InterruptDispatcher` of `ralph/interrupt/dispatcher.py` over `InterruptController` of `controller.py`, with `handle_keyboard_interrupt` and its
thread, or `install_signal_handlers` and its executor. Handlers, shutdown block and calls of `force_exit` take their steps in any order. -/
namespace RalphWorkflow.Interrupt

inductive Path
  | synchronous | asyncio
  deriving DecidableEq

inductive Signal
  | sigint | sigterm
  deriving DecidableEq

inductive Outcome
  | returned | terminationError | otherError
  deriving DecidableEq

inductive Active
  | none | some | raised
  deriving DecidableEq

def interruptExitCode : Nat := 130

structure InterruptDispatcher where
  path : Path
  /-- The dispatcher has an exit function of its own. -/
  hardExit : Bool := false
  deriving DecidableEq

inductive Handlers
  | first | force | restored
  deriving DecidableEq

inductive ShutdownBlock
  | idle | shuttingDown | waiting | forcing | finished
  deriving DecidableEq

inductive Task
  | shutdownAll | restoreTerminal | hardExit
  deriving DecidableEq

inductive Caller
  | handler | block
  deriving DecidableEq

/-- A call of `force_exit` that set the flag, and what it has left to do. -/
structure Forcing where
  caller : Caller
  tasks : List Task
  deriving DecidableEq

structure State where
  handlers : Handlers := .first
  block : ShutdownBlock := .idle
  forceExitCalled : Bool := false
  forcing : Option Forcing := none
  /-- The calls of the exit function, which may return. -/
  exits : List Nat := []
  deriving DecidableEq

inductive Label
  /-- A signal arrives, and `list_active` answers its handler. -/
  | interrupt (signal : Signal) (active : Active)
  /-- `shutdown_all_for_label` of the first interrupt. -/
  | shutdownForLabel (outcome : Outcome)
  | poll (active : Active)
  | deadline (active : Active)
  /-- `shutdown_all(0)` of a `force_interrupt`. -/
  | shutdownAll (outcome : Outcome)
  | restoreTerminal
  | hardExit
  /-- The handlers are taken away: after the wait of the one path, in the teardown of the other one. -/
  | restoreHandlers
  deriving DecidableEq

namespace InterruptDispatcher

variable (dispatcher : InterruptDispatcher)

/-- `InterruptController.force_exit`, as far as it can be seen. -/
def controllerForceExit : List Task := [.shutdownAll, .restoreTerminal, .hardExit]

def forceExitTasks : List Task := .shutdownAll :: if dispatcher.hardExit then [.hardExit] else controllerForceExit

/-- No other thread gets in between the test of the flag and its setting. -/
def forceExit (caller : Caller) (s : State) : State :=
  if s.forceExitCalled then s
  else { s with forceExitCalled := true, forcing := some { caller, tasks := dispatcher.forceExitTasks } }

/-- An exception out of `force_exit` is logged, but for the main thread, where it leaves the wait. -/
def forceExitRaises (caller : Caller) (s : State) : State :=
  match caller with
  | .block => { s with forcing := none, block := .finished }
  | .handler =>
    { s with
      forcing := none
      handlers := if dispatcher.path = .synchronous then .restored else s.handlers }

def taskDone (forcing : Forcing) (rest : List Task) (s : State) : State :=
  match rest with
  | [] =>
    { s with
      forcing := none
      block := if forcing.caller = .block then .finished else s.block }
  | _ :: _ => { s with forcing := some { forcing with tasks := rest } }

def interrupt (active : Active) (s : State) : Option State :=
  match s.handlers with
  | .first => some { s with handlers := .force, block := .shuttingDown }
  | .force =>
    if active = .raised then
      some { s with handlers := if dispatcher.path = .synchronous then .restored else .force }
    else some (dispatcher.forceExit .handler s)
  | .restored => none

def deadline (active : Active) (s : State) : State :=
  if active = .some then
    if s.forceExitCalled then { s with block := .finished }
    else { dispatcher.forceExit .block s with block := .forcing }
  else { s with block := .finished }

def step (s : State) : Label → Option State
  | .interrupt _ active => dispatcher.interrupt active s
  | .shutdownForLabel outcome =>
    if s.block = .shuttingDown then
      some { s with block := if outcome = .returned then .waiting else .finished }
    else none
  | .poll active =>
    if s.block = .waiting then some (if active = .some then s else { s with block := .finished }) else none
  | .deadline active => if s.block = .waiting then some (dispatcher.deadline active s) else none
  | .shutdownAll outcome =>
    match s.forcing with
    | some ⟨caller, .shutdownAll :: rest⟩ =>
      some (if outcome = .returned then taskDone ⟨caller, .shutdownAll :: rest⟩ rest s
        else dispatcher.forceExitRaises caller s)
    | _ => none
  | .restoreTerminal =>
    match s.forcing with
    | some ⟨caller, .restoreTerminal :: rest⟩ => some (taskDone ⟨caller, .restoreTerminal :: rest⟩ rest s)
    | _ => none
  | .hardExit =>
    match s.forcing with
    | some ⟨caller, .hardExit :: rest⟩ =>
      some { taskDone ⟨caller, .hardExit :: rest⟩ rest s with exits := s.exits ++ [interruptExitCode] }
    | _ => none
  | .restoreHandlers =>
    match dispatcher.path with
    -- A handler of the main thread returns first.
    | .synchronous =>
      if s.block = .finished ∧ s.forcing = none ∧ s.handlers = .force then some { s with handlers := .restored } else none
    | .asyncio => some { s with handlers := .restored }

def after (labels : List Label) : Option State := Lib.Run.run dispatcher.step {} labels

end InterruptDispatcher

end RalphWorkflow.Interrupt
