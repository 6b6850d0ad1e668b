import RalphWorkflow.Lib.Dict
import RalphWorkflow.Lib.Text
import Mathlib.Data.List.Dedup
import Mathlib.Data.Prod.Lex
import Mathlib.Algebra.Order.Ring.Rat
import Mathlib.Data.String.Basic

/-! `ralph/mcp/explore/graph.py`, `_graph_path.py` and `_graph_neighbors.py`: the structure tables a query reads, the resolution of
a target, the path query and the neighbours query. The index generation, the staleness and the metadata of a result are left out. -/
namespace RalphWorkflow.Explore.Graph

open Lib Lib.Text

/-! ## Tables -/

structure SymbolRow where
  symbolId : String
  qualifiedName : String
  kind : String
  path : String
  spanId : String
  extractedFrom : String
  confidence : ℚ
  deriving DecidableEq

structure EdgeRow where
  edgeId : String
  sourceId : String
  targetId : String
  relation : String
  path : String
  provenance : String
  confidence : ℚ
  reason : Option String
  deriving DecidableEq

/-- The structure tables by their ids; edges stand as `iter_edges` yields them. -/
structure Tables where
  symbols : List SymbolRow
  edges : List EdgeRow
  symbolKeys : (symbols.map SymbolRow.symbolId).Nodup
  edgeKeys : (edges.map EdgeRow.edgeId).Nodup

def relationPriorities : List String :=
  ["defines", "imports", "calls_syntax", "tests", "references_text", "mentions", "inherits_syntax", "contains"]

/-! ## Results -/

structure GraphNode where
  id : String
  kind : String
  label : String
  path : String
  confidence : ℚ
  provenance : String
  evidenceIds : List String := []
  deriving DecidableEq

structure GraphEdge where
  source : String
  target : String
  relation : String
  path : String
  confidence : ℚ
  provenance : String
  reason : Option String
  evidenceId : Option String
  deriving DecidableEq

structure GraphResult where
  queryType : String
  nodes : List GraphNode := []
  edges : List GraphEdge := []
  paths : List (List String) := []
  confidence : ℚ := 0
  provenance : String := "extracted"
  evidenceIds : List String := []
  missingData : List String := []
  truncated : Bool := false
  deriving DecidableEq

/-! ## Reading the tables -/

def relationPriority (relation : String) : Nat := relationPriorities.idxOf relation

def resolveTarget (tables : Tables) (target : String) : Option String :=
  if target = "" then none
  else match tables.symbols.find? fun row => row.qualifiedName == target || row.symbolId == target with
    | some row => some row.symbolId
    | none =>
      if ".py".toList.isSuffixOf target.toList || ".md".toList.isSuffixOf target.toList then
        match (tables.symbols.filter fun row => row.path == target).insertionSort (·.qualifiedName ≤ ·.qualifiedName) with
        | row :: _ => some row.symbolId
        | [] => some ("file:" ++ target)
      else none

def rowToEdge (row : EdgeRow) : GraphEdge where
  source := row.sourceId
  target := row.targetId
  relation := row.relation
  path := row.path
  confidence := row.confidence
  provenance := row.provenance
  reason := row.reason
  evidenceId := some row.edgeId

theorem rowToEdge_injective : Function.Injective rowToEdge := by
  rintro ⟨⟩ ⟨⟩ h
  simpa [rowToEdge, and_assoc, and_comm, and_left_comm] using h

def rowToNodeFromSymbol (row : SymbolRow) : GraphNode where
  id := row.symbolId
  kind := row.kind
  label := row.qualifiedName
  path := row.path
  confidence := row.confidence
  provenance := row.extractedFrom
  evidenceIds := [row.spanId, row.symbolId]

def rowToNodeFromFile (fileId path : String) : GraphNode where
  id := fileId
  kind := "file"
  label := path
  path := path
  confidence := 1
  provenance := "file"

def unresolvedNode (id label : String) : GraphNode where
  id := id
  kind := "unresolved"
  label := label
  path := ""
  confidence := 1 / 2
  provenance := "inferred"

def relationsActual (relations : Option (List String)) : List String :=
  match relations with
  | none | some [] => relationPriorities
  | some (relation :: rest) => relation :: rest

def iterOutgoing (tables : Tables) (relations : List String) (sourceId : String) : List EdgeRow :=
  tables.edges.filter fun edge => edge.sourceId == sourceId && (relations.isEmpty || relations.contains edge.relation)

def iterIncoming (tables : Tables) (relations : List String) (targetId : String) : List EdgeRow :=
  tables.edges.filter fun edge => edge.targetId == targetId && (relations.isEmpty || relations.contains edge.relation)

def evidenceOf (edges : List GraphEdge) : List String := (edges.filterMap GraphEdge.evidenceId).filter (· ≠ "")

def minConfidence (confidences : List ℚ) : ℚ := confidences.min?.getD 0

def bounded (most n : Int) : Nat := (max 1 (min n most)).toNat

theorem bounded_pos (most n : Int) : 0 < bounded most n := by
  unfold bounded
  omega

/-! ## Paths -/

structure PathQuery where
  target : String
  targetB : String
  relations : Option (List String) := none
  maxPaths : Int := 3
  depth : Int := 4
  limit : Int := 25

structure Trail where
  current : String
  nodes : List String
  edges : List GraphEdge
  deriving DecidableEq

structure Search where
  queue : List Trail
  visited : List String
  found : List Trail := []
  truncated : Bool := false
  deriving DecidableEq

def enqueue (limit : Nat) (trail : Trail) : List EdgeRow → Search → Search
  | [], s => s
  | edge :: rest, s =>
    if edge.targetId ∈ s.visited then enqueue limit trail rest s
    else
      let s := { s with
        visited := s.visited ++ [edge.targetId]
        queue := s.queue ++ [⟨edge.targetId, trail.nodes ++ [edge.targetId], trail.edges ++ [rowToEdge edge]⟩] }
      if limit ≤ s.visited.length then { s with truncated := true } else enqueue limit trail rest s

def search (out : String → List EdgeRow) (goal : String) (maxPaths depth limit : Nat) : Nat → Search → Search
  | 0, s => s
  | fuel + 1, s =>
    match s.queue with
    | [] => s
    | trail :: queue =>
      if maxPaths ≤ s.found.length then s
      else if trail.current = goal then
        search out goal maxPaths depth limit fuel { s with queue, found := s.found ++ [trail] }
      else if depth + 1 ≤ trail.nodes.length then search out goal maxPaths depth limit fuel { s with queue }
      else
        let s := enqueue limit trail (out trail.current) { s with queue }
        if limit ≤ s.visited.length then { s with truncated := true }
        else search out goal maxPaths depth limit fuel s

def pathKey (trail : Trail) : ℕ ×ₗ ℚ ×ₗ String :=
  toLex (trail.nodes.length,
    toLex (-minConfidence (trail.edges.map GraphEdge.confidence), String.intercalate "," trail.nodes))

def pathNode (tables : Tables) (id : String) : GraphNode :=
  match tables.symbols.find? fun row => row.symbolId == id with
  | some row => rowToNodeFromSymbol row
  | none =>
    if "file:".toList.isPrefixOf id.toList then rowToNodeFromFile id (String.ofList (id.toList.drop 5))
    else unresolvedNode id id

def pathResult (tables : Tables) (found : List Trail) (truncated : Bool) : GraphResult where
  queryType := "path"
  nodes := ((found.flatMap Trail.nodes).dedup.map (pathNode tables)).insertionSort fun m n =>
    toLex (m.path, m.id) ≤ toLex (n.path, n.id)
  edges := found.flatMap Trail.edges
  paths := found.map Trail.nodes
  confidence := minConfidence ((found.flatMap Trail.edges).map GraphEdge.confidence)
  evidenceIds := evidenceOf (found.flatMap Trail.edges)
  truncated := truncated

/-- A node is queued once, so that the fuel is enough. -/
def pathSearch (tables : Tables) (query : PathQuery) (a b : String) : Search :=
  search (iterOutgoing tables (relationsActual query.relations)) b (bounded 10 query.maxPaths) (bounded 6 query.depth)
    (bounded 100 query.limit) (tables.edges.length + 2) { queue := [⟨a, [a], []⟩], visited := [a] }

def pathQuery (tables : Tables) (query : PathQuery) : GraphResult :=
  match resolveTarget tables query.target, resolveTarget tables query.targetB with
  | some a, some b =>
    let s := pathSearch tables query a b
    if s.found = [] then { queryType := "path", missingData := ["no_path"], truncated := s.truncated }
    else
      let found := (s.found.insertionSort fun s t => pathKey s ≤ pathKey t).take (bounded 10 query.maxPaths)
      pathResult tables found s.truncated
  | _, _ => { queryType := "path", missingData := ["endpoint_unresolved"] }

/-! ## Neighbours -/

structure NeighborsQuery where
  target : String
  relations : Option (List String) := none
  direction : String := "both"
  depth : Int := 1
  limit : Int := 25

/-- The variables of the walk; `frontier` is the next one. -/
structure Visit where
  visitedNodes : Dict String GraphNode := ∅
  visitedEdges : List GraphEdge := []
  visitedIds : List String
  frontier : List String := []
  truncated : Bool := false
  deriving DecidableEq

def Visit.full (limit : Nat) (visit : Visit) : Bool := limit ≤ visit.visitedNodes.entries.length

def nodeForSymbol (tables : Tables) (symbolId : String) (visit : Visit) : Option GraphNode × Visit :=
  match visit.visitedNodes.get? symbolId with
  | some node => (some node, visit)
  | none =>
    match tables.symbols.find? fun row => row.symbolId == symbolId with
    | some row =>
      (some (rowToNodeFromSymbol row), { visit with visitedNodes := visit.visitedNodes.set symbolId (rowToNodeFromSymbol row) })
    | none =>
      if "file:".toList.isPrefixOf symbolId.toList then
        (some (rowToNodeFromFile symbolId (String.ofList (symbolId.toList.drop 5))), visit)
      else if "unresolved:".toList.isPrefixOf symbolId.toList then
        (some (unresolvedNode symbolId (String.ofList (symbolId.toList.drop 11))), visit)
      else (none, visit)

def look (tables : Tables) (visit : Visit) (edge : EdgeRow) (far : String) : Visit :=
  (nodeForSymbol tables far { visit with visitedEdges := visit.visitedEdges ++ [rowToEdge edge] }).2

/-- One of the two loops over the edges of a node, `far` their other ends. -/
def followEdges (tables : Tables) (limit : Nat) (far : EdgeRow → String) : List EdgeRow → Visit → Visit
  | [], visit => visit
  | edge :: rest, visit =>
    let seen := look tables visit edge (far edge)
    if far edge ∈ seen.visitedIds then followEdges tables limit far rest seen
    else
      let seen := { seen with visitedIds := seen.visitedIds ++ [far edge], frontier := seen.frontier ++ [far edge] }
      if seen.full limit then { seen with truncated := true } else followEdges tables limit far rest seen

def followsOut (direction : String) : Bool := direction == "out" || direction == "both"

def followsIn (direction : String) : Bool := direction == "in" || direction == "both"

def expandNode (tables : Tables) (relations : List String) (direction : String) (limit : Nat) (current : String) (visit : Visit) : Visit :=
  let visit := if followsOut direction then
    followEdges tables limit EdgeRow.targetId (iterOutgoing tables relations current) visit else visit
  let visit := if followsIn direction then
    followEdges tables limit EdgeRow.sourceId (iterIncoming tables relations current) visit else visit
  if visit.full limit then { visit with truncated := true } else visit

def expandFrontier (tables : Tables) (relations : List String) (direction : String) (limit : Nat) : List String → Visit → Visit
  | [], visit => visit
  | current :: rest, visit =>
    let visit := expandNode tables relations direction limit current visit
    if visit.full limit then visit else expandFrontier tables relations direction limit rest visit

def walkLayers (tables : Tables) (relations : List String) (direction : String) (limit : Nat) : Nat → List String → Visit → Visit
  | 0, _, visit => visit
  | depth + 1, frontier, visit =>
    let visit := expandFrontier tables relations direction limit frontier { visit with frontier := [] }
    if visit.frontier = [] ∨ visit.truncated = true then visit
    else walkLayers tables relations direction limit depth visit.frontier visit

def nodeKey (node : GraphNode) : ℚ ×ₗ ℕ ×ₗ String := toLex (-node.confidence, toLex (relationPriority "defines", node.path))

def edgeKey (edge : GraphEdge) : ℚ ×ₗ ℕ ×ₗ String := toLex (-edge.confidence, toLex (relationPriority edge.relation, edge.path))

def neighborWalk (tables : Tables) (query : NeighborsQuery) (root : String) : Visit :=
  walkLayers tables (relationsActual query.relations) query.direction (bounded 100 query.limit) (bounded 3 query.depth) [root]
    { visitedIds := [root] }

def neighbors (tables : Tables) (query : NeighborsQuery) : GraphResult :=
  match resolveTarget tables query.target with
  | none => { queryType := "neighbors", missingData := ["target_unresolved"] }
  | some root =>
    let visit := neighborWalk tables query root
    let limit := bounded 100 query.limit
    let nodes := (visit.visitedNodes.values.insertionSort fun m n => nodeKey m ≤ nodeKey n).take limit
    let edges := (visit.visitedEdges.insertionSort fun e f => edgeKey e ≤ edgeKey f).take limit
    { queryType := "neighbors"
      nodes
      edges
      confidence := minConfidence (nodes.map GraphNode.confidence)
      evidenceIds := evidenceOf edges
      truncated := visit.truncated }

end RalphWorkflow.Explore.Graph
