import Mathlib.Data.List.Basic

/-! `tool_use` events of `ralph/agents/parsers/opencode.py`. Other events neither read nor write the memory of dispatched calls. -/
namespace RalphWorkflow.Parsers.OpenCode

/-- `part.state`; what the tool returned comes as `stringify_text_blocks` gives it. -/
structure ToolState where
  status : String := ""
  output : String := ""
  error : String := "tool error"
  deriving DecidableEq

/-- A field that is no string is as good as missing. -/
structure Part where
  callID : Option String := none
  callId : Option String := none
  /-- `str(part.get("tool", obj.get("tool", "unknown")))` -/
  tool : String := "unknown"
  state : Option ToolState := none
  deriving DecidableEq

inductive LineType
  | toolUse
  | toolResult
  | error
  deriving DecidableEq

structure Line where
  type : LineType
  content : String
  callId : Option String
  deriving DecidableEq

inductive Event
  | toolUse (part : Part)
  /-- any event but `tool_use` -/
  | other
  deriving DecidableEq

def maxDispatched : Nat := 256

def canonicalToolName (rawToolName : String) : String :=
  if "ralph_".toList.isPrefixOf rawToolName.toList then String.ofList (rawToolName.toList.drop 6) else rawToolName

def toolCallId (part : Part) : Option String :=
  (part.callID.filter (· ≠ "")).or (part.callId.filter (· ≠ ""))

def append (dispatched : List String) (callId : String) : List String :=
  let appended := dispatched ++ [callId]
  appended.drop (appended.length - maxDispatched)

def recordToolDispatch (dispatched : List String) (part : Part) : List String :=
  match toolCallId part with
  | some callId => if callId ∈ dispatched then dispatched else append dispatched callId
  | none => dispatched

def toolCallWasDispatched (dispatched : List String) (part : Part) : Bool :=
  (toolCallId part).any fun callId => callId ∈ dispatched

def finishToolCall (dispatched : List String) (part : Part) : List String :=
  match toolCallId part with
  | some callId => dispatched.erase callId
  | none => dispatched

def useLine (part : Part) : Line :=
  { type := .toolUse, content := canonicalToolName part.tool, callId := toolCallId part }

/-- A terminal frame: the dispatch, unless shown, and what came of the call. -/
def finished (dispatched : List String) (part : Part) (type : LineType) (content : String) : List Line × List String :=
  let shown := if toolCallWasDispatched dispatched part then [] else [useLine part]
  (shown ++ [{ type := type, content := content, callId := toolCallId part }], finishToolCall dispatched part)

def parseToolUse (dispatched : List String) (part : Part) : List Line × List String :=
  match part.state with
  | none => ([useLine part], dispatched)
  | some state =>
    if state.status = "completed" then finished dispatched part .toolResult state.output
    else if state.status = "error" then finished dispatched part .error state.error
    else ([useLine part], recordToolDispatch dispatched part)

structure Shown where
  part : Part
  lines : List Line

structure State where
  dispatched : List String := []
  log : List Shown := []

def step (s : State) : Event → Option State
  | .other => some s
  | .toolUse part =>
    let parsed := parseToolUse s.dispatched part
    some { dispatched := parsed.2, log := { part := part, lines := parsed.1 } :: s.log }

end RalphWorkflow.Parsers.OpenCode
