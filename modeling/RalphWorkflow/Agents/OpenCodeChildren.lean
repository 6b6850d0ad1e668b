import RalphWorkflow.Agents.IdleWatchdog.SubagentOutput
import RalphWorkflow.Agents.Parsers.Template

/-! What `observe_line` of `ralph/agents/execution_state/opencode_execution_strategy.py` makes of a line that decodes to an object: whether
it goes to the sink of subagent activity, and the calls of the registry of children. -/
namespace RalphWorkflow.Agents.OpenCodeChildren
open Lib.Json (Text)
open Lib.JsonValue (Json getField isDigit)
open Lib.Text (isSpace)
open Parsers.Template (dropCaseless)
open SubagentOutput (ChildLivenessRegistry)

abbrev Fields : Type := List (Text × Json)

/-- `str` of what is no string, the literals of zero, `str.lower`, the word characters of `re`. -/
structure Python where
  str : Json → Text
  isZero : Text → Bool
  lower : Text → Text
  isWord : Char → Bool

/-- A line with the object it decodes to; a text that is an object begins with its brace. -/
structure Line where
  text : Text
  fields : Fields
  /-- `json.loads` takes it without `strict=False` too. -/
  strict : Bool
  opens : (text.dropWhile isSpace).head? = some '{'

inductive AgentActivityKind
  | childProcess
  | childProgress
  | childHeartbeat
  | childTerminalAck
  | toolUse
  | toolResult
  deriving DecidableEq

def named (names : List String) (text : Text) : Bool := names.any fun name => name.toList = text

variable (python : Python) (fields : Fields)

/-! ## Names -/

def childSpawnTypes : List String := ["child_started", "child.spawned"]
def childProgressTypes : List String := ["child_progress"]
def childHeartbeatTypes : List String := ["child_heartbeat"]
def childTerminalTypes : List String := ["child_complete", "child_failed", "child.terminal"]
def scopedProgressTypes : List String := ["progress", "tool_call", "writing_artifact"]
def scopedHeartbeatTypes : List String := ["heartbeat"]
def childScopeKeys : List String := ["child_id", "childId", "subagent_id", "subagentId"]
def subagentTools : List String := ["agent", "delegate", "spawn_agent", "subagent", "task"]
def toolEventTypes : List String := ["tool_use", "tool_result"]

def genericProgressKind : List String := ["child_progress", "subagent_progress"]
def genericHeartbeatKind : List String := ["child_heartbeat", "subagent_heartbeat", "child_alive", "subagent_alive"]
def genericTerminalKind : List String :=
  ["child_complete", "child_failed", "child_terminal", "child_cancelled", "subagent_complete", "subagent_failed", "subagent_cancelled",
    "subagent_terminal"]
def genericScopePrefixes : List String := ["child_", "subagent_"]

/-! ## Values -/

def strip (text : Text) : Text := ((text.dropWhile isSpace).reverse.dropWhile isSpace).reverse

/-- `str(obj.get(key, default))` -/
def strField (key default : String) : Text :=
  match getField key.toList fields with
  | none => default.toList
  | some (.str text) => text
  | some value => python.str value

def nonEmptyStr (key : String) : Option Text := ((getField key.toList fields).bind Json.str?).filter fun text => !text.isEmpty

def dictField (key : String) : Option Fields := (getField key.toList fields).bind Json.obj?

def truthy : Json → Bool
  | .null => false
  | .bool value => value
  | .num literal => !python.isZero literal
  | .str text => !text.isEmpty
  | .arr items => !items.isEmpty
  | .obj fields => !fields.isEmpty

def unhashable : Json → Bool
  | .arr _ | .obj _ => true
  | _ => false

def eventType : Text := strField python fields "type" ""

/-! ## The classifier of OpenCode -/

def childKind (eventType : Text) : Option AgentActivityKind :=
  if named childSpawnTypes eventType then some .childProcess
  else if named childProgressTypes eventType then some .childProgress
  else if named childHeartbeatTypes eventType then some .childHeartbeat
  else if named childTerminalTypes eventType then some .childTerminalAck
  else none

def scopedChildKind : Option AgentActivityKind :=
  if !named (scopedProgressTypes ++ scopedHeartbeatTypes) (eventType python fields) then none
  else if !childScopeKeys.any fun key => (getField key.toList fields).any (truthy python) then none
  else if named scopedHeartbeatTypes (eventType python fields) then some .childHeartbeat
  else some .childProgress

def toolName : Option Text :=
  if !named toolEventTypes (eventType python fields) then none
  else
    (dictField fields "part").bind fun part =>
      let name := some (strip (strField python part "tool" ""))
      match getField "type".toList part with
      | none | some .null => name.filter fun name => !name.isEmpty
      | some (.str type) => name.filter fun name => type = "tool".toList && !name.isEmpty
      | some _ => none

def isSubagentTool (toolName : Option Text) : Bool := toolName.any fun name => named subagentTools (python.lower name)

def taskState : Option Fields := (dictField fields "part").bind fun part => dictField part "state"

/-- Without a result it raises `TypeError`: the status is looked for in a set. -/
def toolSignal : Option (Option AgentActivityKind) :=
  if isSubagentTool python (toolName python fields) then
    match (taskState fields).bind (getField "status".toList) with
    | some (.str status) => some (some (if named ["completed", "error"] status then .childTerminalAck else .childProgress))
    | some value => if unhashable value then none else some (some .childProgress)
    | none => some (some .childProgress)
  else
    some ((toolName python fields).map fun _ => if eventType python fields = "tool_result".toList then .toolResult else .toolUse)

def classifyChildSignal : Option (Option AgentActivityKind) :=
  match childKind (eventType python fields), scopedChildKind python fields with
  | some kind, _ => some (some kind)
  | none, some kind => some (some kind)
  | none, none => toolSignal python fields

/-! ## The classifier of all transports -/

def extractEventKind : Option Text :=
  ((nonEmptyStr fields "type").or (nonEmptyStr fields "event")).map fun kind => python.lower (strip kind)

def classifyGenericFromJson : Option AgentActivityKind :=
  (extractEventKind python fields).bind fun kind =>
    if named genericTerminalKind kind then none
    else if named genericHeartbeatKind kind then some .childHeartbeat
    else if named genericProgressKind kind then some .childProgress
    else if genericScopePrefixes.any fun start => start.toList.isPrefixOf kind then some .childProgress
    else none

def afterMarker (text : Text) (marker : String) : Option Text := dropCaseless marker.toList (text.dropWhile isSpace)

/-- A marker that ends in `\b`. -/
def markedWord (text : Text) (marker : String) : Bool := (afterMarker text marker).any fun rest => !rest.head?.any python.isWord

def classifyGenericFromText (text : Text) : Option AgentActivityKind :=
  if ["subagent heartbeat", "child heartbeat"].any (markedWord python text) then some .childHeartbeat
  else if (["[child]", "[subagent]"].any fun marker => (afterMarker text marker).isSome) ||
      ["subagent progress", "child progress"].any (markedWord python text) then
    some .childProgress
  else none

def classifyGenericChildSignal (line : Line) : Option AgentActivityKind :=
  (classifyGenericFromJson python line.fields).or (classifyGenericFromText python line.text)

/-! ## The child of a line -/

def explicitId : Json → Option Text
  | .str text => if text.isEmpty then none else some text
  | .num literal => if literal.all fun c => isDigit c || c == '-' then some (python.str (.num literal)) else none
  | _ => none

def childIdFromObject : Option Text :=
  (childScopeKeys ++ ["id"]).findSome? fun key => (getField key.toList fields).bind (explicitId python)

def nativeTaskCallId : Option Text :=
  if !isSubagentTool python (toolName python fields) then none
  else (dictField fields "part").bind fun part => ["callID", "callId"].findSome? (nonEmptyStr part)

def parseChildId : Option Text := (nativeTaskCallId python fields).or (childIdFromObject python fields)

/-! ## Routing -/

inductive RegistryCall
  | registerChild (childId : Text) (phase : String)
  | recordProgress (childId : Text) (phase : Option Text)
  | recordHeartbeat (childId : Text)
  | recordTerminalAck (childId terminalState : Text)

def RegistryCall.perform (scopePrefix : String) (now : ℚ) (registry : ChildLivenessRegistry) : RegistryCall → ChildLivenessRegistry
  | .registerChild childId phase => registry.registerChild (.ofList childId) now scopePrefix phase
  | .recordProgress childId phase => registry.recordProgress (.ofList childId) now (phase.map String.ofList)
  | .recordHeartbeat childId => registry.recordHeartbeat (.ofList childId) now
  | .recordTerminalAck childId terminalState => registry.recordTerminalAck (.ofList childId) now (.ofList terminalState)

def routeLifecycleEvent (childId eventType : Text) : List RegistryCall :=
  if named childSpawnTypes eventType then [.registerChild childId "spawned"]
  else if named childProgressTypes eventType then
    match getField "phase".toList fields with
    | none | some .null => [.recordProgress childId none]
    | some _ => [.recordProgress childId (some (strField python fields "phase" ""))]
  else if named childHeartbeatTypes eventType then [.recordHeartbeat childId]
  else if named childTerminalTypes eventType then [.recordTerminalAck childId (strField python fields "terminal_state" "complete")]
  else []

def nativeTaskSessionId (state : Fields) : Option Text := (dictField state "metadata").bind fun metadata => nonEmptyStr metadata "sessionId"

def routeNativeTask (callId : Text) : List RegistryCall :=
  match taskState fields with
  | none => []
  | some state =>
    let status := strField python state "status" ""
    if !named ["pending", "running", "completed", "error"] status then []
    else
      .registerChild callId "spawned" :: .recordProgress callId (some status) ::
        if named ["completed", "error"] status then
          .recordTerminalAck callId status :: ((nativeTaskSessionId state).map fun session => .recordTerminalAck session status).toList
        else []

def routeLine : List RegistryCall :=
  match nativeTaskCallId python fields, childIdFromObject python fields with
  | some callId, _ => routeNativeTask python fields callId
  | none, some childId => routeLifecycleEvent python fields childId (eventType python fields)
  | none, none => []

/-! ## A line is observed -/

def isWork (kind : AgentActivityKind) : Bool := kind = .childProgress || kind = .childHeartbeat

def handsToSink (line : Line) : Option Bool :=
  (classifyChildSignal python line.fields).map fun
    | some kind => isWork kind && (parseChildId python line.fields).isSome
    | none => (classifyGenericChildSignal python line).any isWork

structure Observed where
  handed : Bool
  calls : List RegistryCall
  registry : ChildLivenessRegistry

/-- Without a result `TypeError` is raised, by the strict test for a step frame or by the classifier. -/
def observeLine (hasSink : Bool) (scopePrefix : String) (now : ℚ) (registry : ChildLivenessRegistry) (line : Line) : Option Observed :=
  if line.strict && (getField "type".toList line.fields).any unhashable then none
  else
    (if hasSink then handsToSink python line else some false).map fun handed =>
      let calls := routeLine python line.fields
      { handed, calls, registry := calls.foldl (RegistryCall.perform scopePrefix now) registry }

end RalphWorkflow.Agents.OpenCodeChildren
