import RalphWorkflow.Workspace.Fs

/-! `FileBackedSession` reads the session file on every question; `session_from_env` builds an `AgentSession` once from the payload. The answers of
both to `check_capability`, `is_parallel_worker` and `check_edit_area` (`runtime_session.py`, `session.py`). -/
/-! ## Capability names

The two vocabularies of capabilities, the map from one to the other, and the test whether a session holds a capability
(`capability_mapping.py`, `session_has_capability`). `lower` is `str.lower` of the Unicode version in use.
-/

namespace RalphWorkflow.Mcp

open Lib.Text


inductive Capability where
  | workspaceRead | workspaceWriteEphemeral | workspaceWriteTracked | workspaceMetadataRead | workspaceEdit
  | workspaceDelete | processExecBounded | processExecUnbounded | artifactSubmit | artifactPlanRead
  | artifactPlanWrite | runReportProgress | gitStatusRead | gitDiffRead | gitWrite | envRead | envWrite
  | upstreamToolUse | webSearch | webVisit | webDownload | mediaRead | mediaCapture | artifactPlanSubmit
  deriving DecidableEq

def Capability.value : Capability → String
  | .workspaceRead => "workspace.read"
  | .workspaceWriteEphemeral => "workspace.write_ephemeral"
  | .workspaceWriteTracked => "workspace.write_tracked"
  | .workspaceMetadataRead => "workspace.metadata_read"
  | .workspaceEdit => "workspace.edit"
  | .workspaceDelete => "workspace.delete"
  | .processExecBounded => "process.exec_bounded"
  | .processExecUnbounded => "process.exec_unbounded"
  | .artifactSubmit => "artifact.submit"
  | .artifactPlanRead => "artifact.plan_read"
  | .artifactPlanWrite => "artifact.plan_write"
  | .runReportProgress => "run.report_progress"
  | .gitStatusRead => "git.status_read"
  | .gitDiffRead => "git.diff_read"
  | .gitWrite => "git.write"
  | .envRead => "env.read"
  | .envWrite => "env.write"
  | .upstreamToolUse => "upstream.tool_use"
  | .webSearch => "web.search"
  | .webVisit => "web.visit"
  | .webDownload => "web.download"
  | .mediaRead => "media.read"
  | .mediaCapture => "media.capture"
  | .artifactPlanSubmit => "artifact.plan_submit"

inductive McpCapability where
  | fileRead | fileWrite | gitRead | processExec | artifactSubmit | artifactPlanRead | artifactPlanWrite
  | workspaceCoordination | workspaceRead | workspaceWriteEphemeral | workspaceWriteTracked | workspaceWriteAny
  | workspaceMetadataRead | workspaceEdit | workspaceDelete | gitStatusRead | gitDiffRead | gitWrite | envRead
  | envWrite | processExecBounded | processExecUnbounded | runReportProgress | upstreamToolUse | webSearch
  | webVisit | webDownload | mediaRead | mediaCapture | artifactPlanSubmit
  deriving DecidableEq

def McpCapability.value : McpCapability → String
  | .fileRead => "FileRead"
  | .fileWrite => "FileWrite"
  | .gitRead => "GitRead"
  | .processExec => "ProcessExec"
  | .artifactSubmit => "ArtifactSubmit"
  | .artifactPlanRead => "ArtifactPlanRead"
  | .artifactPlanWrite => "ArtifactPlanWrite"
  | .workspaceCoordination => "WorkspaceCoordination"
  | .workspaceRead => "WorkspaceRead"
  | .workspaceWriteEphemeral => "WorkspaceWriteEphemeral"
  | .workspaceWriteTracked => "WorkspaceWriteTracked"
  | .workspaceWriteAny => "WorkspaceWriteAny"
  | .workspaceMetadataRead => "WorkspaceMetadataRead"
  | .workspaceEdit => "WorkspaceEdit"
  | .workspaceDelete => "WorkspaceDelete"
  | .gitStatusRead => "GitStatusRead"
  | .gitDiffRead => "GitDiffRead"
  | .gitWrite => "GitWrite"
  | .envRead => "EnvRead"
  | .envWrite => "EnvWrite"
  | .processExecBounded => "ProcessExecBounded"
  | .processExecUnbounded => "ProcessExecUnbounded"
  | .runReportProgress => "RunReportProgress"
  | .upstreamToolUse => "UpstreamToolUse"
  | .webSearch => "WebSearch"
  | .webVisit => "WebVisit"
  | .webDownload => "WebDownload"
  | .mediaRead => "MediaRead"
  | .mediaCapture => "MediaCapture"
  | .artifactPlanSubmit => "ArtifactPlanSubmit"

def McpCapability.members : List McpCapability :=
  [.fileRead, .fileWrite, .gitRead, .processExec, .artifactSubmit, .artifactPlanRead, .artifactPlanWrite,
   .workspaceCoordination, .workspaceRead, .workspaceWriteEphemeral, .workspaceWriteTracked, .workspaceWriteAny,
   .workspaceMetadataRead, .workspaceEdit, .workspaceDelete, .gitStatusRead, .gitDiffRead, .gitWrite, .envRead,
   .envWrite, .processExecBounded, .processExecUnbounded, .runReportProgress, .upstreamToolUse, .webSearch,
   .webVisit, .webDownload, .mediaRead, .mediaCapture, .artifactPlanSubmit]

def mcpToRalphCapabilityMap : McpCapability → Option Capability
  | .fileRead => some .workspaceRead
  | .gitRead => some .gitStatusRead
  | .processExec => some .processExecBounded
  | .artifactSubmit => some .artifactSubmit
  | .artifactPlanRead => some .artifactPlanRead
  | .artifactPlanWrite => some .artifactPlanWrite
  | .workspaceRead => some .workspaceRead
  | .workspaceWriteEphemeral => some .workspaceWriteEphemeral
  | .workspaceWriteTracked => some .workspaceWriteTracked
  | .workspaceMetadataRead => some .workspaceMetadataRead
  | .workspaceEdit => some .workspaceEdit
  | .workspaceDelete => some .workspaceDelete
  | .gitStatusRead => some .gitStatusRead
  | .gitDiffRead => some .gitDiffRead
  | .gitWrite => some .gitWrite
  | .envRead => some .envRead
  | .envWrite => some .envWrite
  | .processExecBounded => some .processExecBounded
  | .processExecUnbounded => some .processExecUnbounded
  | .runReportProgress => some .runReportProgress
  | .upstreamToolUse => some .upstreamToolUse
  | .webSearch => some .webSearch
  | .webVisit => some .webVisit
  | .webDownload => some .webDownload
  | .mediaRead => some .mediaRead
  | .mediaCapture => some .mediaCapture
  | .artifactPlanSubmit => some .artifactPlanWrite
  | .fileWrite | .workspaceCoordination | .workspaceWriteAny => none

def mcpCapabilityAliases : List (String × McpCapability) :=
  [("workspace.read", .workspaceRead), ("workspace.write_ephemeral", .workspaceWriteEphemeral),
   ("workspace.write_tracked", .workspaceWriteTracked), ("artifact.submit", .artifactSubmit),
   ("artifact.plan_read", .artifactPlanRead), ("artifact.plan_write", .artifactPlanWrite),
   ("workspace.coordination", .workspaceCoordination), ("git.read", .gitRead), ("git.status.read", .gitStatusRead),
   ("git.status_read", .gitStatusRead), ("git.write", .gitWrite), ("env.read", .envRead), ("env.write", .envWrite),
   ("process.exec", .processExec), ("process.exec_bounded", .processExecBounded),
   ("process.exec_unbounded", .processExecUnbounded), ("process_exec_bounded", .processExecBounded),
   ("process_exec_unbounded", .processExecUnbounded), ("run.report_progress", .runReportProgress),
   ("file.read", .fileRead), ("file.write", .fileWrite), ("upstream.tool_use", .upstreamToolUse),
   ("upstream_tool_use", .upstreamToolUse), ("web.search", .webSearch), ("web_search", .webSearch),
   ("web.visit", .webVisit), ("web_visit", .webVisit), ("web.download", .webDownload),
   ("web_download", .webDownload), ("media.read", .mediaRead), ("media_read", .mediaRead),
   ("media.capture", .mediaCapture), ("media_capture", .mediaCapture),
   ("workspace.metadata_read", .workspaceMetadataRead), ("workspace.edit", .workspaceEdit),
   ("workspace.delete", .workspaceDelete), ("artifact.plan_submit", .artifactPlanWrite)]

section

variable (lower : String → String)

def underscored (character : Char) (text : String) : String :=
  String.ofList (text.toList.map fun c => if c = character then '_' else c)

def normalizeToken (value : String) : String := lower (underscored ' ' (underscored '-' (strip value)))

/-- `None` where the source raises for an unknown name. -/
def coerceMcpCapability (value : String) : Option McpCapability :=
  (McpCapability.members.find? fun capability => normalizeToken lower capability.value == normalizeToken lower value).or
    (mcpCapabilityAliases.lookup (normalizeToken lower value))

def lookupRalphCapability (capability : String) : Option Capability :=
  (coerceMcpCapability lower capability).bind mcpToRalphCapabilityMap

def normalizeCapabilityToken (value : String) : String := lower (underscored '.' (underscored '-' (strip value)))

def capabilityTokens (name : String) : List String :=
  [normalizeCapabilityToken lower name] ++
    ((lookupRalphCapability lower name).map fun mapped => normalizeCapabilityToken lower mapped.value).toList ++
    (if ["WorkspaceWriteAny", "FileWrite"].contains name then
      ["workspace_write_ephemeral", "workspace_write_tracked"] else [])

def sessionHasCapability (granted : List String) (requested : String) : Bool :=
  (capabilityTokens lower requested).any fun candidate => (granted.flatMap (capabilityTokens lower)).contains candidate

end

end RalphWorkflow.Mcp

namespace RalphWorkflow.Mcp

open Lib Lib.FileTree Workspace


/-- What `json.loads` returns; of a number only whether it is zero is asked. -/
inductive Json where
  | null
  | bool (value : Bool)
  | number (nonzero : Bool)
  | str (text : String)
  | list (items : List Json)
  | dict (items : List (String × Json))

def Json.truthy : Json → Bool
  | .null => false
  | .bool value => value
  | .number nonzero => nonzero
  | .str text => !text.isEmpty
  | .list items => !items.isEmpty
  | .dict items => !items.isEmpty

def Json.str? : Json → Option String
  | .str text => some text
  | _ => none

def Json.list? : Json → Option (List Json)
  | .list items => some items
  | _ => none

abbrev Payload := Dict String Json

def Payload.strings? (payload : Payload) (key : String) : Option (List String) :=
  ((payload.get? key).bind Json.list?).map fun items => items.filterMap Json.str?

/-- `payload["capabilities"]`; both sessions read it alike. -/
def Payload.capabilities (payload : Payload) : List String := (payload.strings? "capabilities").getD []

/-- `payload["allowed_roots"]`, resolved; `none` where a NUL makes that raise. -/
def Payload.allowedRoots (tree : Tree) (cwd : Place) (payload : Payload) : Option (List Place) :=
  ((payload.strings? "allowed_roots").getD []).mapM (resolve tree cwd)

def Payload.parallelWorker (payload : Payload) : Bool := (payload.get? "parallel_worker").any Json.truthy

inductive Answer where
  | approved
  | denied
  deriving DecidableEq

/-! ## FileBackedSession -/

/-- `payload` is what the session file holds when asked, beside the environment's `WORKER_ARTIFACT_DIR`. -/
structure FileBackedSession where
  payload : Payload
  workerArtifactDirEnv : Option String
  workspaceRoot : ProperPlace

namespace FileBackedSession

def workerArtifactDir (session : FileBackedSession) : Option String :=
  session.workerArtifactDirEnv.or
    (((session.payload.get? "worker_artifact_dir").bind Json.str?).filter fun text => !text.isEmpty)

def allowedRoots (tree : Tree) (cwd : Place) (session : FileBackedSession) : Option (List Place) :=
  session.payload.allowedRoots tree cwd

def checkCapability (lower : String → String) (session : FileBackedSession) (capability : String) : Answer :=
  if sessionHasCapability lower session.payload.capabilities capability then .approved else .denied

def isParallelWorker (session : FileBackedSession) : Bool :=
  session.payload.parallelWorker || session.workerArtifactDir.isSome

def checkEditArea (tree : Tree) (cwd : Place) (session : FileBackedSession) (path : String) : Option Answer :=
  if session.isParallelWorker then
    (session.allowedRoots tree cwd).map fun allowedRoots =>
      if allowedRoots.isEmpty then .denied
      else
        match resolveBelow tree session.workspaceRoot.1 path with
        | none => .denied
        | some resolved => if allowedRoots.any (·.isPrefixOf resolved) then .approved else .denied
  else some .approved

end FileBackedSession

/-! ## AgentSession -/

structure AgentSession where
  capabilities : List String
  parallelWorker : Bool
  editAreaResult : Option Answer
  workerArtifactDir : Option String
  allowedRoots : List Place

namespace AgentSession

/-- What `session_from_env` builds of a payload; `none` where the roots raise. -/
def ofPayload (tree : Tree) (cwd : Place) (payload : Payload) : Option AgentSession :=
  (payload.allowedRoots tree cwd).map fun allowedRoots =>
    { capabilities := payload.capabilities
      parallelWorker := payload.parallelWorker
      editAreaResult := none
      workerArtifactDir := (payload.get? "worker_artifact_dir").bind Json.str?
      allowedRoots }

def checkCapability (lower : String → String) (session : AgentSession) (capability : String) : Answer :=
  if sessionHasCapability lower session.capabilities capability then .approved else .denied

def isParallelWorker (session : AgentSession) : Bool := session.parallelWorker

def checkEditArea (session : AgentSession) (_path : String) : Answer := session.editAreaResult.getD .approved

end AgentSession

end RalphWorkflow.Mcp
