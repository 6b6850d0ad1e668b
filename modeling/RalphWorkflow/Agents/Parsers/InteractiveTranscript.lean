import RalphWorkflow.Lib.Json
import RalphWorkflow.Lib.TextMode

/-! `ClaudeInteractiveTranscriptParser` of `ralph/agents/parsers/claude_interactive_transcript_parser.py`, with the envelopes of
`_assistant_envelope.py` and the text buffer of `ralph/agents/_bounded_text_buffer.py`. The patterns that tell what a terminal shows are a parameter. -/
namespace RalphWorkflow.Parsers.Interactive
open Lib.Json (Text)
open Lib.JsonValue (Json getField loadsObject)
open Lib.Text (isSpace)

inductive Kind
  | session
  | toolUse
  | toolResult
  | lifecycle
  | error
  | thinking
  | output
  | text
  deriving DecidableEq

structure InteractiveTranscriptEvent where
  kind : Kind
  text : Text
  tool : Option Text := none
  toolUseId : Option Text := none
  input : Option (List (Text × Json)) := none
  isError : Bool := false

inductive ContentMode
  | thinking
  | output
  | toolUse
  deriving DecidableEq

structure ParserState where
  sessionId : Option Text := none
  lastEmittedSignature : Option (Kind × Text × Option Text) := none
  buffer : Text := []
  currentContentMode : Option ContentMode := none

/-- The patterns, and the `str` of a value that is no string. -/
structure Screen where
  /-- `_event_for_text` in a mode: the event, and the session id the text names. -/
  eventForText : Option ContentMode → Text → Option InteractiveTranscriptEvent × Option Text
  isTuiThinkingGarbage : Text → Bool
  isZero : Text → Bool
  str : Json → Text
  /-- The events of a buffer that has line ends, and the parser after them. -/
  bufferedEvents : ParserState → List InteractiveTranscriptEvent × ParserState

/-! ## Values -/

def strip (text : Text) : Text := ((text.dropWhile isSpace).reverse.dropWhile isSpace).reverse

def fieldStr (fields : List (Text × Json)) (key : String) : Option Text := (getField key.toList fields).bind Json.str?

def fieldName (fields : List (Text × Json)) (key : String) : Option Text := (fieldStr fields key).filter fun text => !text.isEmpty

def truthy (screen : Screen) : Json → Bool
  | .null => false
  | .bool value => value
  | .num literal => !screen.isZero literal
  | .str text => !text.isEmpty
  | .arr items => !items.isEmpty
  | .obj fields => !fields.isEmpty

def fieldTruthy (screen : Screen) (fields : List (Text × Json)) (key : String) : Bool := (getField key.toList fields).any (truthy screen)

def fieldText (screen : Screen) (fields : List (Text × Json)) (key : String) : Text :=
  match getField key.toList fields with
  | none => []
  | some (.str text) => text
  | some value => screen.str value

def fieldsOf (value : Option Json) : List (Text × Json) := (value.bind Json.obj?).getD []

def extractMessageText : Option Json → Text
  | some (.str text) => text
  | some (.arr items) => (items.filterMap fun item => item.obj?.bind fun fields => fieldStr fields "text").flatten
  | _ => []

def extractErrorText : Option Json → Text
  | some (.str text) => strip text
  | some (.obj fields) =>
    match (fieldStr fields "message").filter fun text => !(strip text).isEmpty with
    | some message => strip message
    | none => ((fieldStr fields "type").map strip).getD []
  | _ => []

/-! ## Envelopes -/

inductive AssistantEnvelope
  | normal
  | synthetic (text : Text)
  | apiError (text : Text)

def isSyntheticMessage (screen : Screen) (message : List (Text × Json)) : Bool :=
  fieldStr message "model" = some "<synthetic>".toList ||
    (match (getField "usage".toList message).bind Json.obj?, fieldStr message "stop_reason" with
    | some usage, some reason =>
      (match getField "output_tokens".toList usage with
      | some (.num literal) => screen.isZero literal
      | some (.bool value) => !value
      | _ => false) && reason = "stop_sequence".toList
    | _, _ => false)

def classifyAssistantRecord (screen : Screen) (record : List (Text × Json)) : AssistantEnvelope :=
  let message := fieldsOf (getField "message".toList record)
  if fieldTruthy screen record "isApiErrorMessage" || fieldTruthy screen message "isApiErrorMessage" then
    let errorText := extractErrorText (getField "error".toList record)
    .apiError (if errorText.isEmpty then extractMessageText (getField "content".toList message) else errorText)
  else if isSyntheticMessage screen message then .synthetic (extractMessageText (getField "content".toList message))
  else .normal

/-! ## Events of a record -/

section

variable (screen : Screen)

def appendIfNew (state : ParserState) (event : InteractiveTranscriptEvent) : List InteractiveTranscriptEvent × ParserState :=
  let signature := (event.kind, event.text, event.toolUseId)
  if state.lastEmittedSignature = some signature then ([], state) else ([event], { state with lastEmittedSignature := some signature })

def appendAllNew (state : ParserState) : List InteractiveTranscriptEvent → List InteractiveTranscriptEvent × ParserState
  | [] => ([], state)
  | event :: events =>
    let first := appendIfNew state event
    let rest := appendAllNew first.2 events
    (first.1 ++ rest.1, rest.2)

def toolResultEvent (item : List (Text × Json)) : Option InteractiveTranscriptEvent :=
  let text := strip (extractMessageText (getField "content".toList item))
  if text.isEmpty then none
  else some { kind := .toolResult, text := "claude result: ".toList ++ text, toolUseId := fieldName item "tool_use_id",
              isError := fieldTruthy screen item "is_error" }

def toolUseEvent (item : List (Text × Json)) : InteractiveTranscriptEvent :=
  let named := ((fieldStr item "name").map strip).filter fun name => !name.isEmpty
  let tool := named.getD "tool".toList
  { kind := .toolUse, text := "claude tool: ".toList ++ tool, tool := some tool, toolUseId := fieldName item "id",
    input := (getField "input".toList item).bind Json.obj? }

def textEvent (state : ParserState) (text : Text) : List InteractiveTranscriptEvent × ParserState :=
  let classified := screen.eventForText state.currentContentMode text
  (classified.1.toList, { state with sessionId := classified.2.orElse fun _ => state.sessionId })

def eventsFromAssistantContentItem (state : ParserState) (item : List (Text × Json)) : List InteractiveTranscriptEvent × ParserState :=
  let itemType := fieldText screen item "type"
  if itemType = "tool_use".toList then ([toolUseEvent item], { state with currentContentMode := some .toolUse })
  else if itemType = "thinking".toList then
    let text := strip (fieldText screen item "thinking")
    (if text.isEmpty || screen.isTuiThinkingGarbage text then [] else [{ kind := .thinking, text := text }],
      { state with currentContentMode := some .thinking })
  else if itemType = "tool_result".toList then ((toolResultEvent screen item).toList, state)
  else if itemType = "text".toList then
    let state := { state with currentContentMode := some .output }
    let text := strip (fieldText screen item "text")
    if text.isEmpty then ([], state) else textEvent screen state text
  else ([], state)

def eventsFromAssistantContent (state : ParserState) : List Json → List InteractiveTranscriptEvent × ParserState
  | [] => ([], state)
  | .obj item :: items =>
    let first := eventsFromAssistantContentItem screen state item
    let rest := eventsFromAssistantContent first.2 items
    (first.1 ++ rest.1, rest.2)
  | _ :: items => eventsFromAssistantContent state items

def eventsFromAssistantMessage (state : ParserState) (message : Option Json) : List InteractiveTranscriptEvent × ParserState :=
  match getField "content".toList (fieldsOf message) with
  | some (.str content) =>
    let text := strip content
    if text.isEmpty then ([], state) else textEvent screen { state with currentContentMode := some .output } text
  | some (.arr items) => eventsFromAssistantContent screen state items
  | _ => ([], state)

def eventsFromUserMessage (message : Option Json) : List InteractiveTranscriptEvent :=
  (((getField "content".toList (fieldsOf message)).bind Json.arr?).getD []).filterMap fun item =>
    item.obj?.bind fun fields => if fieldStr fields "type" = some "tool_result".toList then toolResultEvent screen fields else none

def recordEvents (state : ParserState) (record : List (Text × Json)) : List InteractiveTranscriptEvent × ParserState :=
  let eventType := fieldText screen record "type"
  if eventType = "assistant".toList then
    match classifyAssistantRecord screen record with
    | .apiError text => (if text.isEmpty then [] else [{ kind := .error, text := text }], state)
    | .synthetic text => ([{ kind := .lifecycle, text := if text.isEmpty then "synthetic bookkeeping turn".toList else text }], state)
    | .normal => eventsFromAssistantMessage screen state (getField "message".toList record)
  else if eventType = "user".toList then (eventsFromUserMessage screen (getField "message".toList record), state)
  else if eventType = "error".toList then
    let text := extractErrorText (getField "error".toList record)
    (if text.isEmpty then [] else [{ kind := .error, text := text }], state)
  else ([], state)

/-- `obj.get("sessionId") or obj.get("session_id")`, where it is a session that is new. -/
def newSession (state : ParserState) (record : List (Text × Json)) : Option Text :=
  let named := if fieldTruthy screen record "sessionId" then fieldName record "sessionId" else fieldName record "session_id"
  named.filter fun session => state.sessionId ≠ some session

def eventsFromJson (state : ParserState) (rawText : Text) : Option (List InteractiveTranscriptEvent × ParserState) :=
  (loadsObject rawText).map fun record =>
    let opened := match newSession screen state record with
      | none => ([], state)
      | some session => appendIfNew { state with sessionId := some session } { kind := .session, text := session }
    let found := recordEvents screen opened.2 record
    let appended := appendAllNew found.2 found.1
    (opened.1 ++ appended.1, appended.2)

/-! ## Feeding -/

def maxBufferChars : Nat := 1048576

def clampTail (text : Text) (maxChars : Nat) : Text := text.drop (text.length - maxChars)

def feed (state : ParserState) (rawText : Text) : List InteractiveTranscriptEvent × ParserState :=
  match eventsFromJson screen state rawText with
  | some events => events
  | none =>
    let state := { state with buffer := clampTail (state.buffer ++ rawText) maxBufferChars }
    if state.buffer.contains '\n' then screen.bufferedEvents state else ([], state)

end

end RalphWorkflow.Parsers.Interactive

/-! ## Tails of subagent transcripts

`ClaudeSubagentTranscriptTails` of `ralph/agents/invoke/_subagent_transcript.py`, for one child transcript from its discovery on: the polls of
the tail, and what the child writes before, between and inside them.
-/

namespace RalphWorkflow.SubagentTranscript

open Lib.TextMode (Bytes Text readText)
open Parsers.Interactive (InteractiveTranscriptEvent Kind ParserState Screen feed strip)


def summaryTruncateLength : Nat := 80

def summarizeToolKind (event : InteractiveTranscriptEvent) (kind : Text) : Text := kind ++ ':' :: event.tool.getD "Subagent".toList

def summarizeTextKind (event : InteractiveTranscriptEvent) (kind : Text) : Option Text :=
  let text := strip event.text
  if text.isEmpty then none else some (kind ++ ':' :: text.take summaryTruncateLength)

def summarizeEvent (event : InteractiveTranscriptEvent) : Option Text :=
  match event.kind with
  | .toolUse => some (summarizeToolKind event "tool_use".toList)
  | .toolResult => some (summarizeToolKind event "tool_result".toList)
  | .text => summarizeTextKind event "text".toList
  | .thinking => summarizeTextKind event "thinking".toList
  | _ => none

structure Tail where
  parser : ParserState
  offset : Nat

structure World where
  file : Bytes
  tail : Tail
  sent : List Text

/-- A poll takes the size of the file first: `late` is written before it reads. -/
inductive Step
  | append (bytes : Bytes)
  | poll (late : Bytes)

variable (screen : Screen)

def forwardLines (parser : ParserState) : List Text → List Text × ParserState
  | [] => ([], parser)
  | rawLine :: lines =>
    let events := feed screen parser rawLine
    let rest := forwardLines events.2 lines
    (events.1.filterMap (fun event => if event.kind = .session then none else summarizeEvent event) ++ rest.1, rest.2)

def forwardChunk (parser : ParserState) (chunk : Text) : List Text × ParserState :=
  forwardLines screen parser (Lib.Text.splitLinesFrom [] chunk)

/-- `_advance_all_tails`: the offset counts bytes, and as many characters are read. -/
def advance (world : World) (late : Bytes) : World :=
  let size := world.file.length
  let offset := if size < world.tail.offset then 0 else world.tail.offset
  let file := world.file ++ late
  if offset < size then
    let forwarded := forwardChunk screen world.tail.parser ((readText (file.drop offset)).take (size - offset))
    { file := file, tail := { parser := forwarded.2, offset := size }, sent := world.sent ++ forwarded.1 }
  else { file := file, tail := { parser := world.tail.parser, offset := offset }, sent := world.sent }

def step (world : World) : Step → World
  | .append bytes => { world with file := world.file ++ bytes }
  | .poll late => advance screen world late

def discovered : World := { file := [], tail := { parser := {}, offset := 0 }, sent := [] }

end RalphWorkflow.SubagentTranscript
