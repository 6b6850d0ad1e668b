import RalphWorkflow.Lib.Dfs
import RalphWorkflow.Pipeline.State

/-! `ralph/pipeline/work_units.py`: the checks of the dependency graph, made when a plan is built, and those of the edit areas,
made before workers share a checkout. The recursion limit of the interpreter is not modelled. -/
namespace RalphWorkflow.Pipeline
open Lib Lib.Text

/-! ## The graph -/

/-- No id twice; `seen` are the ids met so far. -/
def checkUnique : List String → List String → Except String Unit
  | _, [] => .ok ()
  | seen, unitId :: rest =>
    if unitId ∈ seen then .error s!"Duplicate work unit id: {unitId}" else checkUnique (unitId :: seen) rest

def checkDependencies (known : List String) (unit : WorkUnit) : Except String Unit := do
  require (!unit.dependencies.contains unit.unitId) s!"Work unit '{unit.unitId}' depends on itself"
  unit.dependencies.forM fun dependency =>
    require (known.contains dependency) s!"Unknown dependency '{dependency}' in work unit '{unit.unitId}'"

def dependencyMap (units : List WorkUnit) : Dict String (List String) :=
  Dict.ofList (units.map fun unit => (unit.unitId, unit.dependencies))

/-- The path of the search is the set `visiting`, what it has finished the set `visited`. -/
def validateAcyclic (dependencies : Dict String (List String)) : Except String Unit :=
  let next := fun node => dependencies.getD node []
  match Dfs.visitAll (Dfs.visit next (dependencies.keys.length + 1) []) dependencies.keys [] with
  | .ok _ => .ok ()
  | .error node => .error s!"Dependency cycle detected at '{node}'"

def validateGraph (units : List WorkUnit) : Except String Unit := do
  checkUnique [] (units.map WorkUnit.unitId)
  units.forM (checkDependencies (units.map WorkUnit.unitId))
  validateAcyclic (dependencyMap units)

/-! ## The edit areas -/

def pathParts (path : String) : List String :=
  let chars := path.toList
  let root := if ['/', '/'].isPrefixOf chars && !(['/', '/', '/'].isPrefixOf chars) then ["//"]
    else if ['/'].isPrefixOf chars then ["/"] else []
  root ++ ((chars.splitOn '/').map String.ofList).filter fun part => part != "" && part != "."

def isAbsolute (path : String) : Bool := ['/'].isPrefixOf path.toList

def validateRelativeSubpath (path : String) : Except String String := do
  require (path != "") "allowed_directories entries must be non-empty"
  require (!path.toList.contains '\\') "allowed_directories entries must use '/' separators"
  require (!isAbsolute path) "allowed_directories entries must be relative paths"
  require (!(pathParts path).contains "..") "allowed_directories entries must not contain '..'"
  return path

def validateAllowedDirectories (paths : List String) : Except String (List String) := paths.mapM validateRelativeSubpath

def normalizedPath (path : String) : String :=
  match pathParts path with
  | [] => "."
  | "/" :: rest => "/" ++ String.intercalate "/" rest
  | "//" :: rest => "//" ++ String.intercalate "/" rest
  | parts => String.intercalate "/" parts

def reservedEditPaths : List String := [".agent", ".git", ".worktrees", ".", ""]

def checkReserved (unitId directory : String) : Except String Unit :=
  match pathParts directory with
  | [] =>
    .error (s!"Work unit '{unitId}' declares an empty allowed_directory. " ++
      "The empty string is a reserved path. Choose a specific subdirectory.")
  | firstPart :: _ =>
    if firstPart = ".worktrees" then
      .error (s!"Work unit '{unitId}' declares reserved path {pyRepr directory} as an edit area. " ++
        "Path '.worktrees' is reserved (defense-in-depth) and may not be used as an " ++
        "allowed_directory. Choose a project-owned subdirectory.")
    else if reservedEditPaths.contains (normalizedPath directory) || firstPart = ".agent" || firstPart = ".git" then
      .error (s!"Work unit '{unitId}' declares reserved path {pyRepr directory} as an edit area. " ++
        "Reserved paths (.agent, .git, .) may not be declared as " ++
        "allowed_directories. Choose a project-owned subdirectory.")
    else .ok ()

def pathPartsOverlap (a b : List String) : Bool :=
  if a.length ≤ b.length then b.take a.length == a else a.take b.length == b

def sortedById (units : List WorkUnit) : List WorkUnit := units.insertionSort fun a b => a.unitId ≤ b.unitId

structure EditArea where
  unitId : String
  directory : String
  deriving DecidableEq

def editAreas (units : List WorkUnit) : List EditArea :=
  (sortedById units).flatMap fun unit => (sortedText unit.allowedDirectories).map fun d => ⟨unit.unitId, d⟩

def checkOverlap (first second : EditArea) : Except String Unit :=
  require (first.unitId == second.unitId || !pathPartsOverlap (pathParts first.directory) (pathParts second.directory))
    (s!"Work unit '{first.unitId}' edit area '{first.directory}' overlaps with " ++
      s!"work unit '{second.unitId}' edit area '{second.directory}'. " ++
      "Choose disjoint subdirectories or merge the work units.")

def checkNoOverlap : List EditArea → Except String Unit
  | [] => .ok ()
  | area :: rest => do
    rest.forM (checkOverlap area)
    checkNoOverlap rest

def checkEditAreas (unit : WorkUnit) : Except String Unit := do
  require (!unit.allowedDirectories.isEmpty)
    (s!"Work unit '{unit.unitId}' does not declare any allowed_directories. " ++
      "Each unit must declare the subdirectories it is permitted to edit. " ++
      "Choose disjoint subdirectories or merge the work units.")
  unit.allowedDirectories.forM (checkReserved unit.unitId)

def validateForSameWorkspace (units : List WorkUnit) : Except String Unit := do
  units.forM checkEditAreas
  checkNoOverlap (editAreas units)

structure WorkUnitsPlan where
  workUnits : List WorkUnit
  built : ∀ unit ∈ workUnits, validateAllowedDirectories unit.allowedDirectories = .ok unit.allowedDirectories
  graph : validateGraph workUnits = .ok ()

/-- What building and validating the plan raises. -/
inductive PlanError
  | invalidModel (message : String)
  | rejected (message : String)
  deriving DecidableEq

def preflight (units : List WorkUnit) : Except PlanError Unit :=
  match validateGraph units with
  | .error message => .error (.invalidModel message)
  | .ok _ =>
    match validateForSameWorkspace units with
    | .error message => .error (.rejected message)
    | .ok _ => .ok ()

end RalphWorkflow.Pipeline
