import Mathlib.Data.List.DropRight
import RalphWorkflow.Lib.Run

/-! `RawOverflowLog` of `ralph/display/raw_overflow.py`, for the processes that write one path. Within `_write` the claim of the path, the open and
the write to the handle are steps of their own; a finalizer runs some time after its writer was dropped. -/
namespace RalphWorkflow.RawOverflow

structure Line where
  text : List UInt8
  deriving DecidableEq

def Line.bytes (line : Line) : List UInt8 :=
  line.text ++ [10]

/-- What `append_bytes` makes of the bytes it is given. -/
def Line.ofRaw (raw : List UInt8) : Line :=
  ⟨raw.rdropWhile (· == 10)⟩

def contents (lines : List Line) : List UInt8 :=
  (lines.map Line.bytes).flatten

inductive Mode
  | wb (offset : Nat)
  | ab
  deriving DecidableEq

structure Handle where
  mode : Mode
  buffer : List Line := []
  deriving DecidableEq

/-! ## The file -/

/-- The file, what was in it that none of these processes wrote, and the lines they have flushed. -/
structure Disk where
  file : Option (List UInt8)
  older : List UInt8
  flushed : List Line := []
  deriving DecidableEq

def Disk.bytes (disk : Disk) : List UInt8 :=
  disk.file.getD []

def writeAt (file : List UInt8) (offset : Nat) (bytes : List UInt8) : List UInt8 :=
  file.take offset ++ List.replicate (offset - file.length) 0 ++ bytes ++ file.drop (offset + bytes.length)

def Disk.create (disk : Disk) : Disk :=
  { disk with file := some disk.bytes }

def Disk.truncate (disk : Disk) : Disk :=
  { disk with file := some [], older := [] }

def Disk.write (disk : Disk) (handle : Handle) : Disk :=
  if handle.buffer = [] then disk
  else
    let bytes := contents handle.buffer
    let file :=
      match handle.mode with
      | .wb offset => writeAt disk.bytes offset bytes
      | .ab => disk.bytes ++ bytes
    { disk with file := some file, flushed := disk.flushed ++ handle.buffer }

def Handle.written (handle : Handle) : Handle :=
  match handle.mode with
  | .wb offset => ⟨.wb (offset + (contents handle.buffer).length), []⟩
  | .ab => ⟨.ab, []⟩

/-! ## The writers of a process -/

structure RawOverflowLog where
  firstWrite : Bool
  needsLiveClaim : Bool
  disabled : Bool := false
  maxBytes : Nat
  /-- Bytes on the file, as this writer has them. -/
  fileBytes : Nat
  handle : Option Handle := none
  /-- The line a `_write` in progress is about. -/
  pending : Option Line := none

/-- `_PATH_STATE` and `_OUR_PATHS` at the path, its entry of `_REGISTRY`, the handles without a writer. -/
structure Process where
  pathState : Option Nat := none
  ours : Bool := false
  writer : Option RawOverflowLog := none
  orphans : List Handle := []

/-- `RawOverflowLog.__init__`, with `_resume_path_state` -/
def Process.newLog (process : Process) (maxBytes : Nat) : RawOverflowLog where
  firstWrite := process.pathState.isNone
  needsLiveClaim := process.pathState.isNone
  maxBytes := maxBytes
  fileBytes := process.pathState.getD 0

inductive Action
  | acquire (maxBytes : Nat)
  | write (raw : List UInt8)
  /-- `_is_live_foreign_capture`; the exclusive create may fail for another reason than that the file is there. -/
  | claim (fails : Bool)
  | open (fails : Bool)
  | append
  | flush
  | close
  | disable
  | drop
  /-- The finalizer of one of the writers that were dropped. -/
  | finalize (orphan : Nat)
  deriving DecidableEq

/-- A process after a step, the file, and whether it found the byte cap reached. -/
structure Turn where
  disk : Disk
  process : Process
  reported : Bool := false

def Process.put (process : Process) (writer : RawOverflowLog) : Process :=
  { process with writer := some writer }

def closeLocked (disk : Disk) (writer : RawOverflowLog) : Disk × RawOverflowLog :=
  match writer.handle with
  | none => (disk, writer)
  | some handle => (disk.write handle, { writer with handle := none })

def beginWrite (disk : Disk) (process : Process) (writer : RawOverflowLog) (line : Line) : Turn :=
  if writer.disabled then { disk, process }
  else if writer.maxBytes < writer.fileBytes + line.bytes.length then
    let (disk, writer) := closeLocked disk writer
    { disk, process := process.put { writer with disabled := true }, reported := true }
  else { disk, process := process.put { writer with pending := some line } }

def isLiveForeignCapture (disk : Disk) (process : Process) (fails : Bool) : Bool × Disk :=
  if process.ours then (false, disk)
  else if disk.file.isSome then (true, disk)
  else if fails then (false, disk)
  else (false, disk.create)

def claimPath (disk : Disk) (process : Process) (writer : RawOverflowLog) (fails : Bool) : Turn :=
  let (foreign, disk) := isLiveForeignCapture disk process fails
  let writer := { writer with firstWrite := !foreign, needsLiveClaim := false }
  { disk, process := { process with ours := true }.put writer }

def openHandle (disk : Disk) (process : Process) (writer : RawOverflowLog) (fails : Bool) : Turn :=
  -- the file went away between writers
  let fileBytes := if !writer.firstWrite && disk.file.isNone then 0 else writer.fileBytes
  if fails then
    { disk, process := process.put { writer with fileBytes, disabled := true, pending := none } }
  else if writer.firstWrite then
    let writer := { writer with fileBytes, firstWrite := false, handle := some ⟨.wb 0, []⟩ }
    { disk := disk.truncate, process := process.put writer }
  else
    let writer := { writer with fileBytes, handle := some ⟨.ab, []⟩ }
    { disk := disk.create, process := process.put writer }

/-- The line goes to the buffer of the handle, and `_record_path_bytes` is told. -/
def appendLine (disk : Disk) (process : Process) (writer : RawOverflowLog) (handle : Handle) (line : Line) : Turn :=
  let fileBytes := writer.fileBytes + line.bytes.length
  let handle := { handle with buffer := handle.buffer ++ [line] }
  let process := { process with pathState := some fileBytes }
  { disk, process := process.put { writer with fileBytes, handle := some handle, pending := none } }

def actWriter (disk : Disk) (process : Process) (writer : RawOverflowLog) (action : Action) : Option Turn :=
  match writer.pending, writer.handle, action with
  | some _, none, .claim fails => if writer.needsLiveClaim then some (claimPath disk process writer fails) else none
  | some _, none, .open fails => if writer.needsLiveClaim then none else some (openHandle disk process writer fails)
  | some line, some handle, .append => some (appendLine disk process writer handle line)
  -- the writer's lock is free
  | none, _, .write raw => some (beginWrite disk process writer (Line.ofRaw raw))
  | none, none, .flush => some { disk, process }
  | none, some handle, .flush =>
    some { disk := disk.write handle, process := process.put { writer with handle := some handle.written } }
  | none, _, .close =>
    let (disk, writer) := closeLocked disk writer
    some { disk, process := process.put writer }
  | none, _, .disable =>
    let (disk, writer) := closeLocked disk writer
    some { disk, process := process.put { writer with disabled := true } }
  | none, handle, .drop =>
    some { disk, process := { process with writer := none, orphans := process.orphans ++ handle.toList } }
  | _, _, _ => none

def act (disk : Disk) (process : Process) : Action → Option Turn
  | .acquire maxBytes =>
    match process.writer with
    | some _ => some { disk, process }
    | none => some { disk, process := process.put (process.newLog maxBytes) }
  | .finalize orphan =>
    process.orphans[orphan]?.map fun handle =>
      { disk := disk.write handle, process := { process with orphans := process.orphans.eraseIdx orphan } }
  | action => process.writer.bind fun writer => actWriter disk process writer action

/-! ## The processes -/

structure State where
  disk : Disk
  processes : Nat → Process
  /-- A writer has reported its byte cap. -/
  reported : Bool := false

structure Label where
  process : Nat
  action : Action

def step (s : State) (label : Label) : Option State :=
  (act s.disk (s.processes label.process) label.action).map fun turn =>
    { disk := turn.disk
      processes := fun p => if p = label.process then turn.process else s.processes p
      reported := s.reported || turn.reported }

/-- With what older runs left at the path. -/
def start (file : Option (List UInt8)) : State where
  disk := { file, older := file.getD [] }
  processes := fun _ => {}

end RalphWorkflow.RawOverflow
