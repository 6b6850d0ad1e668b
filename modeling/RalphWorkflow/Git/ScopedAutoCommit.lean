import Mathlib.Data.List.Dedup
import RalphWorkflow.Lib.Dict
import RalphWorkflow.Lib.Text

/-! `commit_scoped_updates` on a repository of three trees. Every call out of it can fail, `Calls` says which ones do. The
lines of `git status` are given, the other git commands act on the trees as documented. -/
namespace RalphWorkflow.Git
open Lib Lib.Text

structure Entry where
  mode : String
  blob : String
  deriving DecidableEq

abbrev Entries := Dict String Entry

/-- The tree of `HEAD`, the index, and what staging a path of the working tree would store. -/
structure Trees where
  head : Entries
  index : Entries
  work : Entries

def Entries.takeFrom (source : Entries) (paths : List String) (index : Entries) : Entries :=
  paths.foldl (fun index path =>
    match source.get? path with
    | some entry => index.set path entry
    | none => index.erase path) index

structure Calls where
  /-- `Repo(repo_root)` -/
  opened : Bool
  /-- The lines of `git status` for a scope, `none` when it fails. -/
  status : String → Option (List String)
  diff : Bool
  lsFiles : Bool
  reset : Bool
  /-- `some done`: `stage_fn` raises after staging what `done` accepts. -/
  stageStops : Option (String → Bool)
  body : Bool
  commit : Bool
  /-- Each `git update-index` in turn. -/
  updateIndex : Nat → Bool
  /-- The deletions that `git diff` takes for the old side of a rename. -/
  renamedFrom : String → Bool
  /-- How git prints a path; special characters are quoted. -/
  printed : String → String
  printed_injective : Function.Injective printed

def pathInScope (path : String) (scopes : List String) : Bool :=
  scopes.any fun scope => if ['/'].isSuffixOf scope.toList then scope.toList.isPrefixOf path.toList else path == scope

def listDirtyPaths (calls : Calls) (scope : String) : Option (List String) :=
  (calls.status scope).map fun lines =>
    (((lines.filter fun line => 4 ≤ line.length).map fun line => strip (String.ofList (line.toList.drop 3))).filter
      fun path => pathInScope path [scope])

/-- A path is to be committed when it is in scope, not excluded, and accepted. -/
structure Chore where
  scopes : List String
  exclude : List String
  pathFilter : String → Bool

def Chore.takes (chore : Chore) (path : String) : Bool :=
  pathInScope path chore.scopes && !chore.exclude.contains path && chore.pathFilter path

def allDirty (calls : Calls) (chore : Chore) : Option (List String) :=
  ((sortedText chore.scopes).mapM (listDirtyPaths calls)).map fun dirty =>
    (sortedText ((dirty.flatten.filter fun path =>
      pathInScope path chore.scopes && !chore.exclude.contains path).dedup)).filter chore.pathFilter

/-- The lines of `git diff --cached --name-only`. -/
def cachedNames (calls : Calls) (trees : Trees) : List String :=
  ((trees.head.keys ++ trees.index.keys).dedup.filter fun path =>
    trees.head.get? path ≠ trees.index.get? path &&
      !(calls.renamedFrom path && (trees.index.get? path).isNone)).map calls.printed

def preStagedOutside (calls : Calls) (chore : Chore) (trees : Trees) : List String :=
  sortedText ((cachedNames calls trees).filter fun path => !pathInScope path chore.scopes)

/-- `_snapshot_pre_staged_index_entries`, from the lines of `git ls-files --stage -- paths`. -/
def snapshotPreStaged (calls : Calls) (trees : Trees) (paths : List String) : Entries :=
  Dict.ofList ((trees.index.entries.filter fun entry => paths.contains entry.1).map
    fun entry => (calls.printed entry.1, entry.2))

def restorePreStaged (calls : Calls) : Nat → List (String × Entry) → Entries → Entries
  | _, [], index => index
  | call, (path, entry) :: rest, index =>
    if calls.updateIndex call then restorePreStaged calls (call + 1) rest (index.set path entry) else index

def Calls.staged (calls : Calls) (paths : List String) : List String :=
  match calls.stageStops with
  | none => paths
  | some done => paths.filter done

def Calls.commits (calls : Calls) : Bool := calls.stageStops.isNone && calls.body && calls.commit

/-- The body of the inner `try`, up to and with the restore. -/
def commitDirty (calls : Calls) (chore : Chore) (trees : Trees) (dirty : List String) : Trees :=
  let outside := preStagedOutside calls chore trees
  let snapshots := snapshotPreStaged calls trees outside
  let staged := trees.work.takeFrom (calls.staged dirty) (trees.head.takeFrom outside trees.index)
  { trees with
    head := if calls.commits then staged else trees.head
    index := restorePreStaged calls 0 snapshots.entries staged }

/-- The call has found dirty paths, and its commands succeed up to the reset. -/
def reachesReset (calls : Calls) (chore : Chore) (trees : Trees) : Option (List String) :=
  if calls.opened then
    (allDirty calls chore).filter fun dirty =>
      !dirty.isEmpty && calls.diff &&
        ((preStagedOutside calls chore trees).isEmpty || (calls.lsFiles && calls.reset))
  else none

def commitScopedUpdates (calls : Calls) (chore : Chore) (trees : Trees) : Trees :=
  match reachesReset calls chore trees with
  | none => trees
  | some dirty => commitDirty calls chore trees dirty

end RalphWorkflow.Git
