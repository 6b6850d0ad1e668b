import Mathlib.Data.List.Defs

/-! `ralph/workspace/_shared_awareness.py`: the sidecar file in which the process that watches a workspace publishes what changed,
and from which other processes read it. Documents are only written by owners, each whole, so none is corrupt; a write may fail. -/
namespace RalphWorkflow.Workspace

def maxPublishedPaths : Nat := 512

/-- The document on file; only `publish_error` writes one with an error. -/
structure SidecarDocument where
  ownerId : Option String
  epoch : Nat
  paths : List String
  overflowed : Bool
  error : Option String := none
  deriving DecidableEq

structure SharedAwarenessState where
  epoch : Nat
  paths : List String
  overflowed : Bool
  ownerId : String
  changed : Bool
  deriving DecidableEq

/-- The handle of one process, without the last polled epoch. -/
structure SharedAwarenessSidecar where
  ownerId : Option String := none
  epoch : Nat := 0
  paths : List String := []
  overflowed : Bool := false
  lastClaimedEpoch : Nat := 0
  deriving DecidableEq

namespace SharedAwarenessSidecar

/-! ## Owners -/

def resetLocked (sidecar : SharedAwarenessSidecar) : SharedAwarenessSidecar :=
  { sidecar with ownerId := none, epoch := 0, paths := [], overflowed := false }

def endOwnership (sidecar : SharedAwarenessSidecar) : SharedAwarenessSidecar := sidecar.resetLocked

def document (sidecar : SharedAwarenessSidecar) : SidecarDocument where
  ownerId := sidecar.ownerId
  epoch := sidecar.epoch
  paths := sidecar.paths
  overflowed := sidecar.overflowed

def retains (file : Option SidecarDocument) (ownerId : String) (priorHolder : Option String) : Bool :=
  match priorHolder, file with
  | some prior, some document => decide (prior ≠ ownerId) && document.ownerId = some prior
  | _, _ => false

def beginOwnership (sidecar : SharedAwarenessSidecar) (file : Option SidecarDocument) (ownerId : String)
    (priorHolder : Option String) : SharedAwarenessSidecar :=
  let begun :=
    match file with
    | some document =>
      if retains file ownerId priorHolder then
        { sidecar with
          ownerId := priorHolder
          epoch := document.epoch
          paths := document.paths.take maxPublishedPaths
          overflowed := document.overflowed }
      else sidecar.resetLocked
    | none => sidecar.resetLocked
  { begun with ownerId := some ownerId, epoch := begun.epoch + 1 }

def coalesce (known paths : List String) : List String :=
  paths.foldl (fun known path => if path ∈ known then known else known ++ [path]) known

/-- `publish_changes`, up to its publication; a handle without ownership raises. -/
def publishChanges (sidecar : SharedAwarenessSidecar) (paths : List String) (overflowed : Bool) : Option SharedAwarenessSidecar :=
  if sidecar.ownerId.isNone then none
  else
    let coalesced := coalesce sidecar.paths paths
    some { sidecar with
      paths := coalesced.drop (coalesced.length - maxPublishedPaths)
      overflowed := sidecar.overflowed || overflowed || decide (maxPublishedPaths < coalesced.length)
      epoch := sidecar.epoch + 1 }

/-- What `publish_error` writes, once it has counted the epoch up. -/
def errorDocument (sidecar : SharedAwarenessSidecar) (cause : String) : SidecarDocument where
  ownerId := sidecar.ownerId
  epoch := sidecar.epoch
  paths := []
  overflowed := true
  error := some cause

/-! ## Readers -/

def poll (sidecar : SharedAwarenessSidecar) (file : Option SidecarDocument) : Except String SharedAwarenessState :=
  match file with
  | none => .ok { epoch := 0, paths := [], overflowed := false, ownerId := "unknown", changed := false }
  | some document =>
    match document.error with
    | some cause => .error cause
    | none =>
      .ok
        { epoch := document.epoch
          paths := document.paths
          overflowed := document.overflowed
          ownerId := document.ownerId.getD "unknown"
          changed := sidecar.lastClaimedEpoch < document.epoch }

def claimEpoch (sidecar : SharedAwarenessSidecar) (epoch : Nat) : SharedAwarenessSidecar :=
  { sidecar with lastClaimedEpoch := max epoch sidecar.lastClaimedEpoch }

end SharedAwarenessSidecar

/-! ## A workspace with one watcher at a time and a reader -/

/-- The file, the handles of the last holder and of a reader, and what the reader has seen. -/
structure SharedAwareness where
  file : Option SidecarDocument := none
  owner : SharedAwarenessSidecar := {}
  reader : Option SharedAwarenessSidecar := none
  observed : List Nat := []
  published : List String := []
  deriving DecidableEq

inductive AwarenessMove
  | beginOwnership (ownerId : String) (priorHolder : Option String) (written : Bool)
  | publishChanges (paths : List String) (overflowed written : Bool)
  | publishError (cause : String) (written : Bool)
  | endOwnership
  | crash
  | removeSidecar
  | startReading
  | poll
  | claimEpoch (epoch : Nat)
  deriving DecidableEq

namespace SharedAwareness

def write (s : SharedAwareness) (written : Bool) (document : SidecarDocument) : Option SidecarDocument :=
  if written then some document else s.file

/-- Ownership begins while no process has it, and a reader claims only what it polled. -/
def step (s : SharedAwareness) : AwarenessMove → Option SharedAwareness
  | .beginOwnership ownerId priorHolder written =>
    if s.owner.ownerId.isSome then none
    else
      let owner := s.owner.beginOwnership s.file ownerId priorHolder
      some { s with owner, file := s.write written owner.document }
  | .publishChanges paths overflowed written =>
    (s.owner.publishChanges paths overflowed).map fun owner =>
      { s with
        owner
        file := s.write written owner.document
        published := if written && s.reader.isSome then s.published ++ paths else s.published }
  | .publishError cause written =>
    if s.owner.ownerId.isNone then some s
    else
      let owner := { s.owner with epoch := s.owner.epoch + 1 }
      some { s with owner, file := s.write written (owner.errorDocument cause) }
  | .endOwnership => some { s with owner := s.owner.endOwnership }
  | .crash => some { s with owner := {} }
  | .removeSidecar => some { s with file := none }
  | .startReading => some { s with reader := some {}, observed := [], published := [] }
  | .poll =>
    s.reader.map fun reader =>
      match reader.poll s.file with
      | .ok state => { s with observed := state.epoch :: s.observed }
      | .error _ => s
  | .claimEpoch epoch =>
    s.reader.bind fun reader =>
      if epoch ∈ s.observed then some { s with reader := some (reader.claimEpoch epoch), published := [] } else none

end SharedAwareness

end RalphWorkflow.Workspace
