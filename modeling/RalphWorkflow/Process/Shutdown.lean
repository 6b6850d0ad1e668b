import RalphWorkflow.Process.Escalation

/-! `shutdown_all` and `shutdown_all_for_label`: stale records are reconciled, and each record left active is terminated. Every call into a process
object, psutil or the system may raise; a `ProcessTerminationError` waits for the end of the loop, anything else ends it. -/
namespace RalphWorkflow.Shutdown
open Escalation (ProcessRecord ProcessStatus)
open Escalation.Machine (LivenessResult)

/-! ## What may be raised -/

inductive Raised
  /-- `psutil.NoSuchProcess` -/
  | noSuchProcess
  /-- `psutil.AccessDenied` -/
  | accessDenied
  | processLookup
  | permission
  | timeout
  /-- `subprocess.TimeoutExpired` -/
  | timeoutExpired
  /-- any other `OSError` -/
  | os
  | other
  deriving DecidableEq

def Raised.isOSError : Raised → Bool
  | .processLookup | .permission | .timeout | .os => true
  | _ => false

def Raised.isTimeout : Raised → Bool
  | .timeout | .timeoutExpired => true
  | _ => false

def Raised.isRefusal : Raised → Bool
  | .noSuchProcess | .accessDenied => true
  | _ => false

def Raised.isDenied : Raised → Bool
  | .accessDenied | .permission => true
  | _ => false

/-- What leaves a shutdown. -/
inductive Fault
  /-- `ProcessTerminationError` -/
  | termination (pid : Nat) (stage : String)
  | raised (exc : Raised)
  deriving DecidableEq

/-- `contextlib.suppress` -/
def suppress (caught : Raised → Bool) : Except Raised Unit → Except Raised Unit
  | .error exc => if caught exc then .ok () else .error exc
  | .ok () => .ok ()

/-! ## Records and the world -/

inductive Owner
  | sync
  | pty
  | async
  | none
  deriving DecidableEq

structure TrackedRecord extends ProcessRecord where
  owner : Owner
  terminal : Bool

inductive Site
  | reconcile
  | check
  | innerCheck
  | lookup
  | owned
  | terminate
  | graceWait
  | kill
  | killWait
  | survivors
  | descendant
  | descendantKill
  | marked
  deriving DecidableEq

/-- What each call comes to. -/
structure World where
  psutil : Bool
  /-- `verify_process_liveness` -/
  liveness : Nat → Site → LivenessResult
  /-- `process_from_pid` and its `children(recursive=True)` -/
  lookup : Nat → Site → Except Raised (List Nat)
  /-- `terminate`, `kill` or `wait` of a process, or a signal -/
  call : Nat → Site → Except Raised Unit
  /-- whether there is a return code -/
  poll : Nat → Site → Except Raised Bool
  /-- `psutil.wait_procs`: those still alive -/
  waitProcs : List Nat → Site → Except Raised (List Nat)
  descendants : Nat → List Nat

/-- What a termination makes of its record, and the stage of the `ProcessTerminationError` it raises. -/
structure Ended where
  status : Option ProcessStatus
  error : Option String
  deriving DecidableEq

def untouched : Ended := { status := none, error := none }

def killed : Ended := { status := some .killed, error := none }

def stillAlive : Ended := { status := some .failed, error := some "force_kill" }

def accessDenied : Ended := { status := some .failed, error := some "access_denied" }

def Ended.fault (ended : Ended) (pid : Nat) : Option Fault := ended.error.map (Fault.termination pid)

namespace World

variable (w : World)

/-! ## The paths -/

/-- A mark that reads `proc.poll()` first. -/
def polled (pid : Nat) (site : Site) (ended : Ended) : Except Raised Ended := do
  let _ ← w.poll pid site
  return ended

def safeWaitProcs (procs : List Nat) (site : Site) : Except Raised (List Nat) :=
  match w.waitProcs procs site with
  | .ok alive => .ok alive
  | .error exc =>
    if exc.isOSError then .ok (procs.filter fun pid => w.liveness pid site ∉ [LivenessResult.gone, .zombie]) else .error exc

def signalAll (procs : List Nat) (site : Site) : Except Raised Unit :=
  procs.forM fun pid => suppress Raised.isRefusal (w.call pid site)

/-- Terminate, wait, kill, wait: who is still alive. -/
def takeDown (procs : List Nat) : Except Raised (List Nat) := do
  w.signalAll procs .terminate
  let alive ← w.safeWaitProcs procs .graceWait
  w.signalAll alive .kill
  w.safeWaitProcs alive .killWait

def terminateRegisteredDescendant (pid : Nat) : Except Raised Unit :=
  if pid ≤ 0 then .ok ()
  else if w.psutil then
    match w.lookup pid .descendant with
    | .error exc => if exc.isRefusal then .ok () else .error exc
    | .ok _ => suppress Raised.isOSError do
      suppress Raised.isRefusal (w.call pid .descendant)
      let _ ← w.safeWaitProcs [pid] .descendant
      suppress Raised.isRefusal (w.call pid .descendantKill)
      let _ ← w.safeWaitProcs [pid] .descendantKill
      return ()
  else match w.call pid .descendant with
    | .error exc => if exc.isOSError then .ok () else .error exc
    | .ok () => suppress Raised.isOSError (w.call pid .descendantKill)

def terminateRegisteredDescendants (pid : Nat) : Except Raised Unit :=
  (w.descendants pid).forM w.terminateRegisteredDescendant

def reapSyncAndMark (pid : Nat) (site : Site) : Except Raised Ended :=
  match w.poll pid site with
  | .error exc => if exc.isOSError then .ok killed else .error exc
  | .ok true => .ok killed
  | .ok false =>
    match w.call pid site with
    | .error exc => if exc.isTimeout || exc.isOSError then .ok killed else .error exc
    | .ok () => .ok killed

def reapPsutilZombieAndMark (zombie : Nat) : Except Raised Ended := do
  suppress Raised.isOSError (w.waitProcs [zombie] .survivors >>= fun _ => .ok ())
  return killed

def isZombie (pid : Nat) : Bool := w.liveness pid .survivors = .zombie

def terminateRootOnlySync (pid : Nat) : Except Raised Ended := do
  if w.liveness pid .innerCheck = .gone then return killed
  suppress (· = .processLookup) (w.call pid .owned)
  match w.call pid .graceWait with
  | .ok () => return killed
  | .error exc =>
    if !exc.isTimeout then .error exc
    else
      suppress (· = .processLookup) (w.call pid .kill)
      match w.call pid .killWait with
      | .ok () => return killed
      | .error exc =>
        if !exc.isTimeout then .error exc
        else match w.liveness pid .survivors with
          | .zombie => w.reapSyncAndMark pid .survivors
          | .alive => w.polled pid .survivors stillAlive
          | _ => w.polled pid .survivors killed

def escalateTerminationSync (record : ProcessRecord) (masterFd : Bool) : Except Raised Ended :=
  let pid := record.pid
  if w.liveness pid .check = .gone then w.polled pid .check killed
  else if !w.psutil then w.terminateRootOnlySync pid
  else match w.lookup pid .lookup with
    | .error .noSuchProcess => w.polled pid .lookup killed
    | .error exc => if exc.isDenied then w.polled pid .lookup accessDenied else .error exc
    | .ok children => do
      suppress (· = .processLookup) (w.call pid .owned)
      let exited ← if record.invokes && !masterFd then w.poll pid .owned else .ok false
      if exited then
        w.terminateRegisteredDescendants pid
        w.polled pid .marked killed
      else
        let alive ← w.takeDown (pid :: children)
        let _ ← w.poll pid .marked
        if alive.isEmpty then
          w.terminateRegisteredDescendants pid
          return killed
        else if alive.any w.isZombie then w.reapSyncAndMark pid .survivors
        else return stillAlive

/-- What the PTY path closes at its end raises nothing. -/
def escalateTerminationPty (record : ProcessRecord) : Except Raised Ended :=
  if w.liveness record.pid .innerCheck = .gone then w.polled record.pid .innerCheck killed
  else w.escalateTerminationSync record true

def escalateWithPsutil (pid : Nat) : Except Raised Ended :=
  match w.lookup pid .lookup with
  | .error .noSuchProcess => .ok killed
  | .error exc => if exc.isDenied then .ok accessDenied else .error exc
  | .ok children => do
    let alive ← w.takeDown (pid :: children)
    match alive, alive.find? w.isZombie with
    | [], _ =>
      w.terminateRegisteredDescendants pid
      return killed
    | _, some zombie => w.reapPsutilZombieAndMark zombie
    | _, none => return stillAlive

/-- Once the record of a zombie is marked, it has no registered descendants. -/
def escalateWithoutPsutil (pid : Nat) : Except Raised Ended := do
  suppress Raised.isOSError (w.call pid .owned)
  suppress Raised.isOSError (w.call pid .kill)
  match w.liveness pid .survivors with
  | .zombie => return killed
  | .gone =>
    w.terminateRegisteredDescendants pid
    return killed
  | _ =>
    w.terminateRegisteredDescendants pid
    return stillAlive

def escalateAsyncInSyncContext (pid : Nat) : Except Raised Ended :=
  if w.liveness pid .check = .gone then .ok killed
  else if w.psutil then w.escalateWithPsutil pid
  else w.escalateWithoutPsutil pid

def terminateByPid (pid : Nat) : Except Raised Ended :=
  if !w.psutil then .ok untouched
  else if w.liveness pid .check = .gone then .ok killed
  else w.escalateWithPsutil pid

def terminate (record : TrackedRecord) : Except Raised Ended :=
  match record.owner with
  | .sync => w.escalateTerminationSync record.toProcessRecord false
  | .pty => w.escalateTerminationPty record.toProcessRecord
  | .async => w.escalateAsyncInSyncContext record.pid
  | .none => w.terminateByPid record.pid

/-! ## The shutdown -/

def reconcileEntry (record : TrackedRecord) : Except Raised TrackedRecord :=
  if record.terminal then .ok record
  else match w.liveness record.pid .reconcile with
    | .alive => .ok record
    | .zombie =>
      match record.owner with
      | .sync | .pty => do
        let _ ← w.reapSyncAndMark record.pid .reconcile
        return { record with terminal := true }
      | _ => .ok { record with terminal := true }
    | _ => .ok { record with terminal := true }

def reconcileStaleEntries : List TrackedRecord → Except Raised (List TrackedRecord)
  | [] => .ok []
  | record :: records => do
    let reconciled ← w.reconcileEntry record
    let rest ← reconcileStaleEntries records
    return reconciled :: rest

def terminateEach : List TrackedRecord → Option Fault → List (TrackedRecord × Ended) × Option Fault
  | [], first => ([], first)
  | record :: records, first =>
    match w.terminate record with
    | .error exc => ([(record, untouched)], some (.raised exc))
    | .ok ended =>
      let rest := terminateEach records (first <|> ended.fault record.pid)
      ((record, ended) :: rest.1, rest.2)

end World

structure ProcessManager where
  records : List TrackedRecord
  /-- the background reaper runs -/
  reaper : Bool

structure Outcome where
  attempts : List (TrackedRecord × Ended)
  raised : Option Fault
  reaper : Bool

/-- Nothing stops the reaper when the reconciliation raises. -/
def ProcessManager.shutdown (manager : ProcessManager) (w : World) (matched : TrackedRecord → Bool) : Outcome :=
  match w.reconcileStaleEntries manager.records with
  | .error exc => { attempts := [], raised := some (.raised exc), reaper := manager.reaper }
  | .ok records =>
    let loop := w.terminateEach (records.filter fun record => matched record && !record.terminal) none
    { attempts := loop.1, raised := loop.2, reaper := false }

def everyRecord (_ : TrackedRecord) : Bool := true

def labelled (labelPrefix : String) (record : TrackedRecord) : Bool :=
  record.label.any fun label => labelPrefix.toList.isPrefixOf label.toList

def ProcessManager.shutdownAll (manager : ProcessManager) (w : World) : Outcome := manager.shutdown w everyRecord

def ProcessManager.shutdownAllForLabel (manager : ProcessManager) (w : World) (labelPrefix : String) : Outcome :=
  manager.shutdown w (labelled labelPrefix)

/-! ## Reaching every sibling -/

/-- The records active at the call, less those found stale. -/
def ProcessManager.targets (manager : ProcessManager) (w : World) (matched : TrackedRecord → Bool) : List TrackedRecord :=
  manager.records.filter fun record => !record.terminal && w.liveness record.pid .reconcile = .alive && matched record

def firstTerminationError (attempts : List (TrackedRecord × Ended)) : Option Fault :=
  attempts.findSome? fun attempt => attempt.2.fault attempt.1.pid

structure Outcome.Reaches (outcome : Outcome) (targets : List TrackedRecord) : Prop where
  attempted : outcome.attempts.map Prod.fst = targets
  terminal : ∀ attempt ∈ outcome.attempts, attempt.2.status.isSome
  stopped : outcome.reaper = false
  reraised : outcome.raised = firstTerminationError outcome.attempts

/-- The termination ends in a mark, with or without a `ProcessTerminationError`. -/
def World.Settles (w : World) (record : TrackedRecord) : Prop := ∃ ended, w.terminate record = .ok ended ∧ ended.status.isSome

def World.Reconciles (w : World) (records : List TrackedRecord) : Prop := ∃ reconciled, w.reconcileStaleEntries records = .ok reconciled

variable {w : World} {records : List TrackedRecord}

theorem reconcileEntry_keeps {record reconciled : TrackedRecord} (h : w.reconcileEntry record = .ok reconciled) :
    reconciled = record ∧ (record.terminal = true ∨ w.liveness record.pid .reconcile = .alive) ∨
      reconciled.terminal = true ∧ w.liveness record.pid .reconcile ≠ .alive := by
  unfold World.reconcileEntry at h
  split at h
  · next hterminal => exact .inl ⟨(Except.ok.inj h).symm, .inl hterminal⟩
  · cases hlive : w.liveness record.pid .reconcile <;> rw [hlive] at h
    · exact .inl ⟨(Except.ok.inj h).symm, .inr rfl⟩
    · exact .inr ⟨by rw [← Except.ok.inj h], by simp⟩
    · refine .inr ⟨?_, by simp⟩
      cases howner : record.owner <;> rw [howner] at h
      case sync | pty =>
        cases hreap : w.reapSyncAndMark record.pid .reconcile <;> rw [hreap] at h
        · cases h
        · rw [← Except.ok.inj h]
      case async | none => rw [← Except.ok.inj h]
    · exact .inr ⟨by rw [← Except.ok.inj h], by simp⟩

theorem reconcile_filter (matched : TrackedRecord → Bool) {reconciled : List TrackedRecord} (h : w.reconcileStaleEntries records = .ok reconciled) :
    (reconciled.filter fun record => matched record && !record.terminal) =
      records.filter fun record => !record.terminal && w.liveness record.pid .reconcile = .alive && matched record := by
  induction records generalizing reconciled with
  | nil => rw [← Except.ok.inj h]; rfl
  | cons record records ih =>
    unfold World.reconcileStaleEntries at h
    cases hentry : w.reconcileEntry record with
    | error exc => rw [hentry] at h; cases h
    | ok entry =>
      cases hrest : w.reconcileStaleEntries records with
      | error exc => rw [hentry, hrest] at h; cases h
      | ok rest =>
        rw [hentry, hrest] at h
        rw [← Except.ok.inj h, List.filter_cons, List.filter_cons, ih hrest]
        obtain ⟨rfl, hkept⟩ | ⟨hterminal, hstale⟩ := reconcileEntry_keeps hentry
        · rcases hkept with hkept | hkept <;> simp [hkept, and_comm]
        · simp [hterminal, hstale]

theorem terminateEach_settled (first : Option Fault) (h : ∀ record ∈ records, w.Settles record) :
    (w.terminateEach records first).1.map Prod.fst = records ∧
      (∀ attempt ∈ (w.terminateEach records first).1, attempt.2.status.isSome) ∧
      (w.terminateEach records first).2 = (first <|> firstTerminationError (w.terminateEach records first).1) := by
  induction records generalizing first with
  | nil =>
    refine ⟨rfl, fun _ hattempt => ?_, ?_⟩
    · cases hattempt
    · cases first <;> rfl
  | cons record records ih =>
    obtain ⟨hhead, htail⟩ := List.forall_mem_cons.mp h
    obtain ⟨ended, hended, hmarked⟩ := hhead
    obtain ⟨hattempted, hterminal, hraised⟩ := ih (first <|> ended.fault record.pid) htail
    simp only [World.terminateEach, hended]
    refine ⟨congrArg (record :: ·) hattempted, List.forall_mem_cons.mpr ⟨hmarked, hterminal⟩, hraised.trans ?_⟩
    unfold firstTerminationError
    rw [List.findSome?_cons]
    cases first <;> cases ended.fault record.pid <;> rfl

theorem settles_of_attempted (first : Option Fault) (hattempted : (w.terminateEach records first).1.map Prod.fst = records)
    (hterminal : ∀ attempt ∈ (w.terminateEach records first).1, attempt.2.status.isSome) : ∀ record ∈ records, w.Settles record := by
  induction records generalizing first with
  | nil => exact fun _ hrecord => nomatch hrecord
  | cons record records ih =>
    unfold World.terminateEach at hattempted hterminal
    cases hended : w.terminate record with
    | error exc =>
      rw [hended] at hterminal
      exact absurd (hterminal _ List.mem_cons_self) Bool.false_ne_true
    | ok ended =>
      rw [hended] at hattempted hterminal
      obtain ⟨hmarked, hrest⟩ := List.forall_mem_cons.mp hterminal
      exact List.forall_mem_cons.mpr ⟨⟨ended, hended, hmarked⟩, ih _ (List.cons.inj hattempted).2 hrest⟩

theorem shutdown_reaches_iff (manager : ProcessManager) (w : World) (matched : TrackedRecord → Bool) :
    (manager.shutdown w matched).Reaches (manager.targets w matched) ↔
      w.Reconciles manager.records ∧ ∀ record ∈ manager.targets w matched, w.Settles record := by
  unfold ProcessManager.shutdown World.Reconciles
  cases hreconcile : w.reconcileStaleEntries manager.records with
  | error exc =>
    refine iff_of_false (fun h => ?_) fun ⟨⟨_, h⟩, _⟩ => nomatch h
    cases h.reraised
  | ok reconciled =>
    have htargets := reconcile_filter matched hreconcile
    dsimp only
    rw [htargets]
    constructor
    · intro h
      exact ⟨⟨_, rfl⟩, settles_of_attempted none h.attempted h.terminal⟩
    · rintro ⟨-, hsettles⟩
      obtain ⟨hattempted, hterminal, hraised⟩ := terminateEach_settled none hsettles
      exact ⟨hattempted, hterminal, rfl, hraised⟩

def forbidden : World where
  psutil := true
  liveness := fun _ _ => .alive
  lookup := fun _ _ => .ok []
  call := fun pid site => if pid = 1 ∧ site = .owned then .error .permission else .ok ()
  poll := fun _ _ => .ok true
  waitProcs := fun _ _ => .ok []
  descendants := fun _ => []

def siblings : ProcessManager where
  records := [⟨⟨1, some "run:a"⟩, .sync, false⟩, ⟨⟨2, some "run:b"⟩, .sync, false⟩]
  reaper := true

end RalphWorkflow.Shutdown
