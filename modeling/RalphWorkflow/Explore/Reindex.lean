import Mathlib.Data.List.Dedup
import Mathlib.Data.Rat.Defs
import Mathlib.Logic.Function.Basic
import RalphWorkflow.Lib.Dict
import RalphWorkflow.Lib.Text

/-! `ralph/mcp/explore/_pipeline_run.py`: one job over one store, in the steps between which the workspace can change. The rows of
one path are replaced in one step. A job stops where the deadline and the cancel callback are polled, and fails on an exception. -/
/-! ## The store of the exploration index

`ralph/mcp/explore/_store_types.py` and `_store_class.py`: the files that are indexed, the chunks of a text, and the rows kept for them, by path, a
derived id as what it is derived from. Writes of the database do not fail. -/

namespace RalphWorkflow.Explore


open Lib Lib.Text

variable {Content Fact : Type}

/-! ## Workspace files -/

structure DiskFile (Content : Type) where
  content : Content
  mtimeNs : Int
  readable : Bool := true
  deriving DecidableEq

abbrev Disk (Content : Type) := Dict String (DiskFile Content)

structure Extraction (Fact : Type) where
  spans : List Fact := []
  symbols : List Fact := []
  edges : List Fact := []
  deriving DecidableEq

/-- What is computed from the bytes of a file; `extract_structure` gives `none` for a syntax error. -/
structure Indexer (Content Fact : Type) where
  sha256 : Content → String
  size : Content → Nat
  readText : Content → String
  sha256Text : String → String
  extractStructure : String → String → String → Option (Extraction Fact)

def skipDirNames : List String :=
  [".git", ".hg", ".svn", ".agent", "__pycache__", ".venv", ".mypy_cache", ".ruff_cache", ".pytest_cache", "node_modules",
    "target", "build", "dist"]

/-- The directories on the way to a path, after the characters of the name so far, last first. -/
def directoriesFrom (name : List Char) : List Char → List String
  | [] => []
  | c :: rest => if c = '/' then String.ofList name.reverse :: directoriesFrom [] rest else directoriesFrom (c :: name) rest

/-- The walk of `iter_indexable_files` comes to the path. -/
def indexable (path : String) : Bool := (directoriesFrom [] path.toList).all fun name => !skipDirNames.contains name

structure ManifestRow where
  path : String
  sizeBytes : Nat
  mtimeNs : Int
  deriving DecidableEq

def collectWorkspaceFiles (x : Indexer Content Fact) (disk : Disk Content) : List ManifestRow :=
  ((sortedText disk.keys).filter indexable).filterMap fun path =>
    (disk.get? path).map fun file => { path, sizeBytes := x.size file.content, mtimeNs := file.mtimeNs }

/-! ## Chunks -/

structure Chunk where
  startLine : Nat
  endLine : Nat
  text : String
  deriving DecidableEq

def defaultChunkLines : Nat := 50

/-- `chunk_text` at the default length; one chunk for each step of its range. -/
def chunkText (text : String) : List Chunk :=
  let lines := splitLines text
  (List.range ((lines.length + defaultChunkLines - 1) / defaultChunkLines)).map fun i =>
    let start := i * defaultChunkLines
    { startLine := start + 1
      endLine := min (start + defaultChunkLines) lines.length
      text := String.intercalate "\n" ((lines.drop start).take defaultChunkLines) }

/-! ## Rows -/

structure FileRow where
  contentHash : String
  sizeBytes : Nat
  mtimeNs : Int
  indexedGeneration : Nat
  isDeleted : Bool
  deriving DecidableEq

structure ChunkId where
  startLine : Nat
  endLine : Nat
  textHash : String
  deriving DecidableEq

structure ChunkRow where
  id : ChunkId
  role : String := "body"
  generation : Nat
  deriving DecidableEq

structure FtsRow where
  id : ChunkId
  text : String
  deriving DecidableEq

structure EvidenceId where
  contentHash : String
  startLine : Nat
  endLine : Nat
  kind : String
  deriving DecidableEq

structure EvidenceRow where
  id : EvidenceId
  sourceTool : String
  generation : Nat
  deriving DecidableEq

structure FactRow (Fact : Type) where
  fact : Fact
  generation : Nat
  deriving DecidableEq

structure PathRows (Fact : Type) where
  chunks : List ChunkRow := []
  fts : List FtsRow := []
  evidence : List EvidenceRow := []
  spans : List (FactRow Fact) := []
  symbols : List (FactRow Fact) := []
  edges : List (FactRow Fact) := []
  deriving DecidableEq

namespace PathRows

def upsertChunk (rows : PathRows Fact) (chunk : ChunkRow) (text : String) : PathRows Fact :=
  { rows with
    chunks := rows.chunks.filter (fun row => row.id ≠ chunk.id) ++ [chunk]
    fts := rows.fts.filter (fun row => row.id ≠ chunk.id) ++ [{ id := chunk.id, text }] }

def deleteChunks (rows : PathRows Fact) : PathRows Fact := { rows with chunks := [], fts := [] }

def insertEvidence (rows : PathRows Fact) (row : EvidenceRow) : PathRows Fact :=
  { rows with evidence := rows.evidence.filter (fun other => other.id ≠ row.id) ++ [row] }

def replaceStructure (rows : PathRows Fact) (extraction : Extraction Fact) (generation : Nat) : PathRows Fact :=
  { rows with
    spans := extraction.spans.map fun fact => { fact, generation }
    symbols := extraction.symbols.map fun fact => { fact, generation }
    edges := extraction.edges.map fun fact => { fact, generation } }

end PathRows

/-! ## The store -/

/-- File rows and other rows by path, chunks by content hash, the dirty queue, `current_generation`. -/
structure Store (Fact : Type) where
  files : Dict String FileRow := ∅
  rows : String → PathRows Fact := fun _ => {}
  contentCache : Dict String (List Chunk) := ∅
  dirtyPaths : List String := []
  currentGeneration : Nat := 0

namespace Store

def iterFiles (store : Store Fact) : List (String × FileRow) := store.files.entries.filter fun entry => !entry.2.isDeleted

def Live (store : Store Fact) (path : String) : Prop := ∃ row, store.files.get? path = some row ∧ row.isDeleted = false

def upsertFile (store : Store Fact) (path : String) (row : FileRow) : Store Fact :=
  { store with files := store.files.set path row }

def setRows (store : Store Fact) (path : String) (rows : PathRows Fact) : Store Fact :=
  { store with rows := Function.update store.rows path rows }

def deleteFileRows (store : Store Fact) (path : String) : Store Fact :=
  { store with files := store.files.erase path }.setRows path { (store.rows path).deleteChunks with evidence := [] }

def insertContentCache (store : Store Fact) (contentHash : String) (chunks : List Chunk) : Store Fact :=
  { store with contentCache := store.contentCache.set contentHash chunks }

def markDirty (store : Store Fact) (path : String) : Store Fact :=
  { store with dirtyPaths := if path ∈ store.dirtyPaths then store.dirtyPaths else store.dirtyPaths ++ [path] }

def removeDirtyPath (store : Store Fact) (path : String) : Store Fact :=
  { store with dirtyPaths := store.dirtyPaths.filter fun other => other ≠ path }

def setCurrentGeneration (store : Store Fact) (generation : Nat) : Store Fact :=
  { store with currentGeneration := generation }

end Store

end RalphWorkflow.Explore

namespace RalphWorkflow.Explore


open Lib Lib.Text

variable {Content Fact : Type}

inductive Status
  | ok
  | skippedNoChanges
  | cancelled
  | timedOut
  | failed
  deriving DecidableEq

/-! ## Rows of one path -/

structure Found where
  path : String
  contentHash : String
  sizeBytes : Nat
  mtimeNs : Int
  deriving DecidableEq

/-- What the preflight of `_re_extract_path` leads to; `cached` when the chunks come from the content cache. -/
structure Prepared (Fact : Type) where
  chunks : List Chunk
  cached : Bool
  extraction : Extraction Fact
  deriving DecidableEq

def Extraction.isEmpty (extraction : Extraction Fact) : Bool :=
  extraction.spans.isEmpty && extraction.symbols.isEmpty && extraction.edges.isEmpty

namespace PathRows

def insertChunk (x : Indexer Content Fact) (contentHash : String) (generation : Nat) (rows : PathRows Fact) (chunk : Chunk) : PathRows Fact :=
  let id : ChunkId := { startLine := chunk.startLine, endLine := chunk.endLine, textHash := x.sha256Text chunk.text }
  (rows.upsertChunk { id, generation } chunk.text).insertEvidence
    { id := { contentHash, startLine := chunk.startLine, endLine := chunk.endLine, kind := "chunk" }
      sourceTool := "reindex"
      generation }

def clearForReplacement (rows : PathRows Fact) (generation : Nat) : PathRows Fact :=
  rows.deleteChunks.replaceStructure {} generation

/-- The replacement phase of `_re_extract_path`, but for the file row. -/
def replace (x : Indexer Content Fact) (contentHash : String) (prepared : Prepared Fact) (generation : Nat)
    (rows : PathRows Fact) : PathRows Fact :=
  let indexed := prepared.chunks.foldl (insertChunk x contentHash generation) (rows.clearForReplacement generation)
  if prepared.extraction.isEmpty then indexed else indexed.replaceStructure prepared.extraction generation

end PathRows

namespace Store

/-- The replacement phase of `_re_extract_path`. -/
def replacePath (x : Indexer Content Fact) (store : Store Fact) (found : Found) (prepared : Prepared Fact) (generation : Nat) : Store Fact :=
  (store.setRows found.path ((store.rows found.path).replace x found.contentHash prepared generation)).upsertFile found.path
    { contentHash := found.contentHash
      sizeBytes := found.sizeBytes
      mtimeNs := found.mtimeNs
      indexedGeneration := generation
      isDeleted := false }

def sweepPath (store : Store Fact) (path : String) (existing : FileRow) (generation : Nat) : Store Fact :=
  ((store.setRows path ((store.rows path).deleteChunks.replaceStructure {} generation)).deleteFileRows path).upsertFile path
    { existing with indexedGeneration := generation, isDeleted := true }

def pathInScope (path : String) (pathScope : List String) : Bool :=
  pathScope.isEmpty ||
    pathScope.any fun rawScope =>
      let normalizedScope := (rawScope.toList.reverse.dropWhile (· = '/')).reverse
      normalizedScope.isEmpty || path.toList = normalizedScope || (normalizedScope ++ ['/']).isPrefixOf path.toList

def outOfScope (store : Store Fact) (pathScope : List String) : List String :=
  if pathScope.isEmpty then [] else store.dirtyPaths.filter fun path => !pathInScope path pathScope

/-- The file row of the path is live and has the size and mtime of the manifest, and the path is not queued. -/
def prefilter (store : Store Fact) (row : ManifestRow) : Bool :=
  match store.files.get? row.path with
  | none => false
  | some previous =>
    !previous.isDeleted && previous.sizeBytes = row.sizeBytes && previous.mtimeNs = row.mtimeNs &&
      !store.dirtyPaths.contains row.path

end Store

/-! ## Jobs -/

inductive Phase (Fact : Type)
  | visiting (manifest : List ManifestRow)
  | hashing (path : String) (previous : Option FileRow) (manifest : List ManifestRow)
  | measuring (path : String) (previous : Option FileRow) (contentHash : String) (manifest : List ManifestRow)
  | extracting (found : Found) (manifest : List ManifestRow)
  | replacing (found : Found) (prepared : Prepared Fact) (manifest : List ManifestRow)
  | caching (found : Found) (chunks : List Chunk) (manifest : List ManifestRow)
  | sweeping (files : List (String × FileRow))
  | removing (paths : List String)
  | finished (status : Status)
  deriving DecidableEq

/-- The locals of `_run_reindex` and its `_ReindexState`. -/
structure Job (Fact : Type) where
  pathScope : List String
  targetGeneration : Nat
  seenPaths : List String := []
  failedPaths : List String := []
  changedPaths : List String := []
  phase : Phase Fact
  deriving DecidableEq

inductive Stop
  | cancelled
  | timedOut
  deriving DecidableEq

def Stop.status : Stop → Status
  | .cancelled => .cancelled
  | .timedOut => .timedOut

/-- A job goes on, is stopped at a poll, or meets an exception that ends it. -/
inductive JobMove
  | advance
  | stop (stop : Stop)
  | fail
  deriving DecidableEq

namespace Job

def start (x : Indexer Content Fact) (disk : Disk Content) (store : Store Fact) (pathScope : List String) : Job Fact where
  pathScope := pathScope
  targetGeneration := if store.currentGeneration = 0 then 1 else store.currentGeneration + 1
  phase := .visiting ((collectWorkspaceFiles x disk).filter fun row => pathScope.isEmpty || pathScope.contains row.path)

def goTo (job : Job Fact) (phase : Phase Fact) : Job Fact := { job with phase }

def failPath (job : Job Fact) (path : String) (manifest : List ManifestRow) : Job Fact :=
  { job with failedPaths := job.failedPaths ++ [path], phase := .visiting manifest }

def changePath (job : Job Fact) (path : String) (manifest : List ManifestRow) : Job Fact :=
  { job with changedPaths := job.changedPaths ++ [path], phase := .visiting manifest }

def visit (store : Store Fact) (job : Job Fact) (row : ManifestRow) (manifest : List ManifestRow) : Job Fact :=
  { job with
    seenPaths := job.seenPaths ++ [row.path]
    phase :=
      if store.prefilter row then .visiting manifest else .hashing row.path (store.files.get? row.path) manifest }

def hash (x : Indexer Content Fact) (disk : Disk Content) (job : Job Fact) (path : String) (previous : Option FileRow)
    (manifest : List ManifestRow) : Job Fact :=
  match disk.get? path with
  | none => job.failPath path manifest
  | some file =>
    if file.readable then job.goTo (.measuring path previous (x.sha256 file.content) manifest)
    else job.failPath path manifest

def sameHash (previous : Option FileRow) (contentHash : String) : Bool :=
  previous.any fun row => row.contentHash = contentHash && !row.isDeleted

/-- The end of `hash_workspace_file`, and the comparison with the stored hash. -/
def measure (x : Indexer Content Fact) (disk : Disk Content) (job : Job Fact) (path : String) (previous : Option FileRow)
    (contentHash : String) (manifest : List ManifestRow) : Job Fact :=
  match disk.get? path with
  | none => job.failPath path manifest
  | some file =>
    if sameHash previous contentHash then job.goTo (.visiting manifest)
    else
      job.goTo (.extracting { path, contentHash, sizeBytes := x.size file.content, mtimeNs := file.mtimeNs } manifest)

/-- The preflight of `_re_extract_path`. -/
def extract (x : Indexer Content Fact) (disk : Disk Content) (store : Store Fact) (job : Job Fact) (found : Found)
    (manifest : List ManifestRow) : Job Fact :=
  match disk.get? found.path with
  | none => job.goTo (.finished .failed)
  | some file =>
    if file.readable then
      let text := x.readText file.content
      match x.extractStructure found.path text found.contentHash with
      | none => job.failPath found.path manifest
      | some extraction =>
        match store.contentCache.get? found.contentHash with
        | some chunks => job.goTo (.replacing found { chunks, cached := true, extraction } manifest)
        | none => job.goTo (.replacing found { chunks := chunkText text, cached := false, extraction } manifest)
    else job.goTo (.finished .failed)

/-- The file is on record and was not met in the scan, and the scope does not name it. -/
def vanished (job : Job Fact) (path : String) : Bool := !job.seenPaths.contains path && !job.pathScope.contains path

def survivors (store : Store Fact) (job : Job Fact) : List String :=
  sortedText
    ((job.seenPaths ++ store.outOfScope job.pathScope).dedup.filter fun path => !job.failedPaths.contains path)

def endStatus (job : Job Fact) : Status :=
  if job.changedPaths.isEmpty && job.failedPaths.isEmpty then .skippedNoChanges else .ok

/-- The next step of `_run_reindex`. -/
def advance (x : Indexer Content Fact) (disk : Disk Content) (store : Store Fact) (job : Job Fact) : Store Fact × Job Fact :=
  match job.phase with
  | .visiting [] => (store, job.goTo (.sweeping store.iterFiles))
  | .visiting (row :: manifest) => (store, job.visit store row manifest)
  | .hashing path previous manifest => (store, job.hash x disk path previous manifest)
  | .measuring path previous contentHash manifest => (store, job.measure x disk path previous contentHash manifest)
  | .extracting found manifest => (store, job.extract x disk store found manifest)
  | .replacing found prepared manifest =>
    (store.replacePath x found prepared job.targetGeneration,
      if prepared.cached then job.changePath found.path manifest
      else job.goTo (.caching found prepared.chunks manifest))
  | .caching found chunks manifest =>
    (store.insertContentCache found.contentHash chunks, job.changePath found.path manifest)
  | .sweeping [] =>
    (store.setCurrentGeneration job.targetGeneration, job.goTo (.removing (job.survivors store)))
  | .sweeping ((path, existing) :: files) =>
    (if job.vanished path then store.sweepPath path existing job.targetGeneration else store, job.goTo (.sweeping files))
  | .removing [] => (store, job.goTo (.finished job.endStatus))
  | .removing (path :: paths) => (store.removeDirtyPath path, job.goTo (.removing paths))
  | .finished _ => (store, job)

def polls (job : Job Fact) : Bool :=
  match job.phase with
  | .visiting (_ :: _) | .sweeping (_ :: _) => true
  | _ => false

def mayFail (job : Job Fact) : Bool :=
  match job.phase with
  | .visiting _ | .hashing _ _ _ | .measuring _ _ _ _ | .extracting _ _ | .sweeping _ => true
  | _ => false

def status? (job : Job Fact) : Option Status :=
  match job.phase with
  | .finished status => some status
  | _ => none

def step (x : Indexer Content Fact) (disk : Disk Content) : Store Fact × Job Fact → JobMove → Option (Store Fact × Job Fact)
  | (store, job), .advance => if job.status?.isSome then none else some (job.advance x disk store)
  | (store, job), .stop stop => if job.polls then some (store, job.goTo (.finished stop.status)) else none
  | (store, job), .fail => if job.mayFail then some (store, job.goTo (.finished .failed)) else none

end Job

end RalphWorkflow.Explore

/-! ## The index of a workspace

`ralph/mcp/explore/pipeline.py` and `_pipeline_staged.py`: reindexes of one live store, while the files change and are marked. A call that
`ReindexWriter.claim` coalesces with an active one is no step. -/

/-! ## Dirty marks

`ralph/mcp/explore/dirty_paths.py` and `_burst_scheduler.py`: the marks of changed paths that wait for the debounce window, in one
table of the process, and the dirty queue of the store. Paths are normalized before they get here.
-/

namespace RalphWorkflow.Explore


variable {Fact : Type}

/-- How many closures are pending, and when the last one came. -/
structure BurstDebounceScheduler where
  pending : Nat := 0
  lastMarkAt : Option ℚ := none
  deriving DecidableEq

namespace BurstDebounceScheduler

def debounceWindow : ℚ := 1 / 20

def mark (scheduler : BurstDebounceScheduler) (now : ℚ) : BurstDebounceScheduler :=
  { pending := scheduler.pending + 1, lastMarkAt := some now }

def due (scheduler : BurstDebounceScheduler) (now : ℚ) : Bool :=
  match scheduler.lastMarkAt with
  | none => false
  | some lastMarkAt => scheduler.pending ≠ 0 && debounceWindow ≤ now - lastMarkAt

def releasePending (_ : BurstDebounceScheduler) : BurstDebounceScheduler := {}

end BurstDebounceScheduler

/-- `_PENDING_MARKS`, by handle and path, and `_dirty_scheduler`. -/
structure DirtyMarks where
  pendingMarks : List (Nat × String) := []
  scheduler : BurstDebounceScheduler := {}
  deriving DecidableEq

namespace DirtyMarks

def addPending (marks : DirtyMarks) (key : Nat × String) : DirtyMarks :=
  { marks with pendingMarks := if key ∈ marks.pendingMarks then marks.pendingMarks else marks.pendingMarks ++ [key] }

def fireIfDue (marks : DirtyMarks) (now : ℚ) : DirtyMarks :=
  if marks.scheduler.due now then { pendingMarks := [], scheduler := {} } else marks

/-- What `_enqueue_mark` leaves of both; it reads the clock twice. -/
def enqueue (marks : DirtyMarks) (handle : Nat) (path : String) (markedAt polledAt : ℚ) : DirtyMarks :=
  let added := marks.addPending (handle, path)
  { added with scheduler := added.scheduler.mark markedAt }.fireIfDue polledAt

end DirtyMarks

/-- Only a mark that is new to the table is persisted. -/
def Store.enqueueMark (store : Store Fact) (marks : DirtyMarks) (handle : Nat) (path : String) : Store Fact :=
  if (handle, path) ∈ marks.pendingMarks then store else store.markDirty path

end RalphWorkflow.Explore

namespace RalphWorkflow.Explore


open Lib

variable {Content Fact : Type}

inductive Mode
  | changed
  | full
  deriving DecidableEq

/-- A call of `reindex`. A full one runs its job over a staging store. -/
inductive Reindex (Fact : Type)
  | changed (job : Job Fact)
  | full (staging : Store Fact) (job : Job Fact)
  | done (status : Status)

namespace Reindex

def start (x : Indexer Content Fact) (disk : Disk Content) (live : Store Fact) (pathScope : List String) : Mode → Reindex Fact
  | .changed => .changed (Job.start x disk live pathScope)
  | .full => .full {} (Job.start x disk {} pathScope)

/-- What `_staged_full_reindex` makes of the status of its job, other than ok. -/
def refusal : Status → Status
  | .cancelled => .cancelled
  | .timedOut => .timedOut
  | .ok | .skippedNoChanges | .failed => .failed

def ofJob (job : Job Fact) : Reindex Fact :=
  match job.status? with
  | some status => .done status
  | none => .changed job

/-- A full reindex goes on to the swap when its job ends ok, and ends with any other status. -/
def ofStaged (staging : Store Fact) (job : Job Fact) : Reindex Fact :=
  match job.status? with
  | some .ok | none => .full staging job
  | some status => .done (refusal status)

def publish (live staging : Store Fact) : JobMove → Store Fact × Reindex Fact
  | .advance => (staging, .done .ok)
  | .stop stop => (live, .done stop.status)
  | .fail => (live, .done .failed)

def step (x : Indexer Content Fact) (disk : Disk Content) (live : Store Fact) (move : JobMove) : Reindex Fact → Option (Store Fact × Reindex Fact)
  | .changed job => (Job.step x disk (live, job) move).map fun next => (next.1, ofJob next.2)
  | .full staging job =>
    if job.status? = some .ok then some (publish live staging move)
    else (Job.step x disk (staging, job) move).map fun next => (live, ofStaged next.1 next.2)
  | .done _ => none

end Reindex

/-- The workspace, the live store, the calls of `reindex` in order, the marks with their last clock reading. -/
structure System (Content Fact : Type) where
  disk : Disk Content
  store : Store Fact
  reindexes : List (Reindex Fact) := []
  marks : DirtyMarks := {}
  clock : ℚ := 0

inductive SystemMove (Content : Type)
  | write (path : String) (file : DiskFile Content)
  | delete (path : String)
  | mark (handle : Nat) (path : String) (markedAt polledAt : ℚ)
  | workflowHook
  | begin (mode : Mode) (pathScope : List String)
  | reindex (index : Nat) (move : JobMove)
  deriving DecidableEq

namespace System

/-- Only a call that has begun and not ended takes a step. -/
def step (x : Indexer Content Fact) (s : System Content Fact) : SystemMove Content → Option (System Content Fact)
  | .write path file => some { s with disk := s.disk.set path file }
  | .delete path => some { s with disk := s.disk.erase path }
  | .mark handle path markedAt polledAt =>
    if s.clock ≤ markedAt ∧ markedAt ≤ polledAt then
      some { s with
        store := s.store.enqueueMark s.marks handle path
        marks := s.marks.enqueue handle path markedAt polledAt
        clock := polledAt }
    else none
  | .workflowHook => some { s with marks := { s.marks with scheduler := s.marks.scheduler.releasePending } }
  | .begin mode pathScope =>
    some { s with reindexes := s.reindexes ++ [.start x s.disk s.store pathScope mode] }
  | .reindex index move =>
    s.reindexes[index]?.bind fun call =>
      (call.step x s.disk s.store move).map fun next =>
        { s with store := next.1, reindexes := s.reindexes.set index next.2 }

end System

end RalphWorkflow.Explore
