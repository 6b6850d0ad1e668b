import RalphWorkflow.Lib.FileTree
import RalphWorkflow.Pipeline.WorkUnits

/-! Where `FsWorkspace` writes, removes and moves for a path string (`workspace/fs.py`): it takes the lexical normal form, compares that with its
roots and hands it to the system. `depth` is how many links the system follows inside one another. -/
namespace RalphWorkflow.Workspace
open Lib.FileTree Pipeline

/-! ## Path strings -/

def pathNames (path : String) : List String :=
  ((path.toList.splitOn '/').map String.ofList).filter fun part => part != "" && part != "."

def ProperName (name : String) : Prop :=
  name ≠ "" ∧ name ≠ "." ∧ '/' ∉ name.toList ∧ '\x00' ∉ name.toList

instance (name : String) : Decidable (ProperName name) :=
  inferInstanceAs (Decidable (name ≠ "" ∧ name ≠ "." ∧ '/' ∉ name.toList ∧ '\x00' ∉ name.toList))

abbrev ProperPlace := { place : Place // ∀ name ∈ place, ProperName name }

def joined (base : Place) (path : String) : List String :=
  if isAbsolute path then pathNames path else base ++ pathNames path

/-- `Path(path).resolve()` below the working directory; a NUL raises. -/
def resolve (tree : Tree) (cwd : Place) (path : String) : Option Place :=
  if path.toList.contains '\x00' then none
  else some (if isAbsolute path then realpath tree [] (pathNames path) else realpath tree cwd (pathNames path))

def resolveBelow (tree : Tree) (base : Place) (path : String) : Option Place :=
  if path.toList.contains '\x00' then none else some (realpath tree [] (joined base path))

/-! ## The roots of a worker -/

/-- `_UNIT_ID_RE` -/
def isUnitId (unitId : String) : Bool :=
  1 ≤ unitId.length && unitId.length ≤ 64 && unitId.toList.all fun c => c.isAlphanum || c == '_' || c == '-'

def workerNamespace (repoRoot : Place) (unit : WorkUnit) : Place := repoRoot ++ [".agent", "workers", unit.unitId]

/-- `WorkspaceScope.for_same_workspace_worker`: its `allowed_roots`; `none` where it raises. -/
def forSameWorkspaceWorker (tree : Tree) (repoRoot : Place) (allowedDirectories : List String) (namespace_ : Place) : Option (List Place) :=
  let root := realpath tree [] repoRoot
  (allowedDirectories.mapM fun directory =>
    if directory = "" then none else (resolveBelow tree root directory).filter (root.isPrefixOf ·)).map
      (· ++ [realpath tree [] namespace_])

/-! ## FsWorkspace -/

structure FsWorkspace where
  root : Place
  allowedRoots : List Place

def FsWorkspace.build (tree : Tree) (root : Place) (allowedRoots : List Place) : FsWorkspace :=
  { root, allowedRoots := (if allowedRoots.isEmpty then [root] else allowedRoots).map (realpath tree []) }

/-- `_normalize_absolute_path`. A candidate that starts with two slashes keeps both and is below no root. -/
def candidate (root : Place) (path : String) : Option Place :=
  if (pathParts path).head? = some "//" ∨ (isAbsolute path = false ∧ root = []) then none
  else some (normalize (joined root path))

/-- `_resolve_candidate`; `none` where it raises. -/
def FsWorkspace.abs (workspace : FsWorkspace) (path : String) : Option Place :=
  (candidate workspace.root path).filter fun place => workspace.allowedRoots.any (·.isPrefixOf place)

/-! ## What the system does with a path -/

section System

variable (tree : Tree) (depth : Nat)

def follow (lexical : Place) : Option Node := (locate tree depth [] lexical).bind tree.node

/-- The entry that the last name stands for, not followed if it is a link. -/
def entryAt (lexical : Place) : Option Place :=
  match lexical.getLast? with
  | none => some []
  | some name =>
    ((locate tree depth [] lexical.dropLast).filter tree.isDirectory).map fun holder => holder ++ [name]

def isLinkAt (place : Place) : Bool :=
  match tree.node place with
  | some (.link _) => true
  | _ => false

/-- The entry that `shutil.move` renames to: inside the destination where that is a directory. -/
def moveTarget (source dest : Place) : Option Place :=
  if follow tree depth dest = some .directory then
    if locate tree depth [] source = locate tree depth [] dest && !((entryAt tree depth dest).any (isLinkAt tree)) then
      none
    else
      (locate tree depth [] dest).bind fun holder =>
        source.getLast?.bind fun name =>
          if (follow tree depth (holder ++ [name])).isSome then none else some (holder ++ [name])
  else entryAt tree depth dest

/-- `none` where the move raises or leaves all as it is. -/
def moved (overwrite : Bool) (source dest : Place) : Option (Place × Place) :=
  if (follow tree depth dest).isSome && !overwrite then none
  else
    (entryAt tree depth source).bind fun entry =>
      (tree.node entry).bind fun node =>
        (moveTarget tree depth source dest).bind fun target =>
          if entry = [] ∨ target = [] ∨ entry <+: target ∨ (node = .directory ∧ (tree.node target).isSome) then none
          else some (entry, target)

/-- How a path string is used. `write` is `write` and `append`. -/
inductive Access where
  | write
  | remove
  | delete (recursive : Bool)
  | moveFrom (overwrite : Bool) (dest : Place)
  | moveTo (overwrite : Bool) (source : Place)
  deriving DecidableEq

/-- Where the file is that is written, removed or moved; `none` where nothing is. -/
def Access.place : Access → Place → Option Place
  | .write, lexical => (locateMaking tree depth [] lexical).filter fun place => !tree.isDirectory place
  | .remove, lexical =>
    (entryAt tree depth lexical).filter fun entry => (tree.node entry).any (· != .directory)
  | .delete recursive, lexical =>
    if follow tree depth lexical = some .directory then
      if recursive then (entryAt tree depth lexical).filter fun entry => !isLinkAt tree entry else none
    else (entryAt tree depth lexical).filter fun entry => (tree.node entry).any (· != .directory)
  | .moveFrom overwrite dest, lexical => (moved tree depth overwrite lexical dest).map (·.1)
  | .moveTo overwrite source, lexical => (moved tree depth overwrite source lexical).map (·.2)

end System

/-- The place that the call works at for `path`; the system refuses a NUL. -/
def FsWorkspace.place (tree : Tree) (depth : Nat) (workspace : FsWorkspace) (access : Access) (path : String) : Option Place :=
  if path.toList.contains '\x00' then none else (workspace.abs path).bind (access.place tree depth)

end RalphWorkflow.Workspace
