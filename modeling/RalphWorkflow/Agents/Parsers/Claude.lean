import RalphWorkflow.Agents.Parsers.TextAccumulator
import RalphWorkflow.Lib.Dict

/-! The text and thinking of `ralph/agents/parsers/claude.py`, from decoded events. An assistant frame is one that is neither synthetic nor an API
error. A line carries the content block that it was streamed for, which the line of the program does not. -/
namespace RalphWorkflow.Parsers.Claude
open Lib (Dict)
open Lib.Json (Text)
open Lib.Text (isSpace)

inductive BlockType
  | text
  | thinking
  | toolUse (name : Text)
  deriving DecidableEq

structure ContentBlock where
  type : BlockType
  text : Text
  deriving DecidableEq

inductive Delta
  | text (text : Text)
  | thinking (text : Text)
  | inputJson
  deriving DecidableEq

inductive StreamEvent
  | messageStart (id : Text)
  | messageStop
  | contentBlockStart (index : Int) (block : ContentBlock)
  | contentBlockDelta (index : Int) (delta : Delta)
  | contentBlockStop (index : Int)
  deriving DecidableEq

inductive Event
  /-- a streamed event, bare or in a `stream_event` -/
  | streamed (wrapped : Bool) (event : StreamEvent)
  | assistant (messageId : Text) (content : List ContentBlock)
  | result (result : Text)
  deriving DecidableEq

inductive LineType
  | text
  | thinking
  | toolUse
  deriving DecidableEq

abbrev BlockKey := Text × Int

structure Line where
  type : LineType
  content : Text
  block : Option BlockKey
  deriving DecidableEq

structure ClaudeParser where
  textAccumulator : Dict BlockKey TextAccumulator
  thinkingAccumulator : Dict BlockKey TextAccumulator
  fallbackAccumulator : Option TextAccumulator
  fallbackThinkingAccumulator : Option TextAccumulator
  currentMessageId : Option Text
  seenContentBlocks : List BlockKey
  emittedText : List Text
  streamedBlockFingerprints : List ContentBlock

namespace ClaudeParser

def new : ClaudeParser where
  textAccumulator := ∅
  thinkingAccumulator := ∅
  fallbackAccumulator := none
  fallbackThinkingAccumulator := none
  currentMessageId := none
  seenContentBlocks := []
  emittedText := []
  streamedBlockFingerprints := []

def textLine (block : Option BlockKey) (content : Text) : Line := { type := .text, content := content, block := block }

def thinkingLine (block : Option BlockKey) (content : Text) : Line := { type := .thinking, content := content, block := block }

/-! ## Flushing -/

def flushTextAccumulator (parser : ClaudeParser) (key : BlockKey) : List Line × ClaudeParser :=
  match parser.textAccumulator.get? key with
  | none => ([], parser)
  | some acc =>
    ((acc.flush false).map (textLine (some key)),
      { parser with textAccumulator := parser.textAccumulator.erase key, emittedText := acc.flush false ++ parser.emittedText })

def flushThinkingAccumulator (parser : ClaudeParser) (key : BlockKey) : List Line × ClaudeParser :=
  match parser.thinkingAccumulator.get? key with
  | none => ([], parser)
  | some acc => ((acc.flush true).map (thinkingLine (some key)), { parser with thinkingAccumulator := parser.thinkingAccumulator.erase key })

def flushFallbackAccumulator (parser : ClaudeParser) : List Line × ClaudeParser :=
  match parser.fallbackAccumulator with
  | none => ([], parser)
  | some acc =>
    ((acc.flush false).map (textLine none), { parser with fallbackAccumulator := none, emittedText := acc.flush false ++ parser.emittedText })

def flushFallbackThinkingAccumulator (parser : ClaudeParser) : List Line × ClaudeParser :=
  match parser.fallbackThinkingAccumulator with
  | none => ([], parser)
  | some acc => ((acc.flush true).map (thinkingLine none), { parser with fallbackThinkingAccumulator := none })

def flushKeys (flush : ClaudeParser → BlockKey → List Line × ClaudeParser) (parser : ClaudeParser) : List BlockKey → List Line × ClaudeParser
  | [] => ([], parser)
  | key :: keys =>
    let first := flush parser key
    let rest := flushKeys flush first.2 keys
    (first.1 ++ rest.1, rest.2)

def flushAccumulators (parser : ClaudeParser) : List Line × ClaudeParser :=
  let texts := flushKeys flushTextAccumulator parser parser.textAccumulator.keys
  let thoughts := flushKeys flushThinkingAccumulator texts.2 texts.2.thinkingAccumulator.keys
  let fallback := thoughts.2.flushFallbackAccumulator
  let fallbackThinking := fallback.2.flushFallbackThinkingAccumulator
  (texts.1 ++ thoughts.1 ++ fallback.1 ++ fallbackThinking.1, fallbackThinking.2)

def flushContentBlock (parser : ClaudeParser) (index : Int) : List Line × ClaudeParser :=
  match parser.currentMessageId with
  | none => ([], parser)
  | some id =>
    let text := parser.flushTextAccumulator (id, index)
    let thinking := text.2.flushThinkingAccumulator (id, index)
    (text.1 ++ thinking.1, thinking.2)

/-! ## Streamed events -/

def recordMessageStart (parser : ClaudeParser) (id : Text) : ClaudeParser :=
  if id.isEmpty then parser
  else { parser with seenContentBlocks := [], emittedText := [], streamedBlockFingerprints := [], currentMessageId := some id }

def handleMessageStop (parser : ClaudeParser) : List Line × ClaudeParser :=
  let flushed := parser.flushAccumulators
  (flushed.1, { flushed.2 with currentMessageId := none })

def trackContentBlockStart (parser : ClaudeParser) (index : Int) (block : ContentBlock) : ClaudeParser :=
  match parser.currentMessageId with
  | none => parser
  | some id =>
    let parser := { parser with seenContentBlocks := (id, index) :: parser.seenContentBlocks }
    match block.type with
    | .text =>
      if parser.textAccumulator.contains (id, index) then parser
      else { parser with textAccumulator := parser.textAccumulator.set (id, index) {} }
    | .thinking =>
      if parser.thinkingAccumulator.contains (id, index) then parser
      else { parser with thinkingAccumulator := parser.thinkingAccumulator.set (id, index) {} }
    | .toolUse _ => parser

def parseContentBlock (key : Option BlockKey) (block : ContentBlock) : List Line :=
  match block.type with
  | .text => if block.text.isEmpty then [] else [textLine key block.text]
  | .toolUse name => [{ type := .toolUse, content := name, block := key }]
  | .thinking => []

def parseContentBlockStart (parser : ClaudeParser) (wrapped : Bool) (index : Int) (block : ContentBlock) : List Line × ClaudeParser :=
  let tracked := parser.trackContentBlockStart index block
  (parseContentBlock (parser.currentMessageId.map fun id => (id, index)) block,
    if wrapped then { tracked with streamedBlockFingerprints := block :: tracked.streamedBlockFingerprints } else tracked)

def accumulateTextDelta (parser : ClaudeParser) (index : Int) (text : Text) : List Line × ClaudeParser :=
  if text.isEmpty then ([], parser)
  else
    let own := parser.currentMessageId.bind fun id => (parser.textAccumulator.get? (id, index)).map fun acc => (((id, index) : BlockKey), acc)
    match own with
    | some (key, acc) =>
      ((acc.accumulate text false).1.map (textLine (some key)),
        { parser with textAccumulator := parser.textAccumulator.set key (acc.accumulate text false).2 })
    | none =>
      let accumulated := (parser.fallbackAccumulator.getD {}).accumulate text true
      (accumulated.1.map (textLine none), { parser with fallbackAccumulator := some accumulated.2 })

/-- White space without a paragraph break is no thinking. -/
def isDropped (text : Text) : Bool := text.all isSpace && (splitBreak text).isNone

def accumulateThinkingDelta (parser : ClaudeParser) (index : Int) (text : Text) : List Line × ClaudeParser :=
  if isDropped text then ([], parser)
  else
    let own := parser.currentMessageId.bind fun id => (parser.thinkingAccumulator.get? (id, index)).map fun acc => (((id, index) : BlockKey), acc)
    match own with
    | some (key, acc) =>
      ((acc.accumulate text false).1.map (thinkingLine (some key)),
        { parser with thinkingAccumulator := parser.thinkingAccumulator.set key (acc.accumulate text false).2 })
    | none =>
      let accumulated := (parser.fallbackThinkingAccumulator.getD {}).accumulate text true
      (accumulated.1.map (thinkingLine none), { parser with fallbackThinkingAccumulator := some accumulated.2 })

def parseContentBlockDelta (parser : ClaudeParser) (index : Int) : Delta → List Line × ClaudeParser
  | .text text => parser.accumulateTextDelta index text
  | .thinking text => parser.accumulateThinkingDelta index text
  | .inputJson => ([], parser)

/-- `_handle_lifecycle_event` and `_parse_stream_inner`, which differ in the fingerprints. -/
def parseStreamed (parser : ClaudeParser) (wrapped : Bool) : StreamEvent → List Line × ClaudeParser
  | .messageStart id => ([], parser.recordMessageStart id)
  | .messageStop => parser.handleMessageStop
  | .contentBlockStart index block => parser.parseContentBlockStart wrapped index block
  | .contentBlockDelta index delta => parser.parseContentBlockDelta index delta
  | .contentBlockStop index => parser.flushContentBlock index

/-! ## Frames and the result -/

def parseMessageContent (parser : ClaudeParser) (messageId : Text) (index : Int) : List ContentBlock → List Line
  | [] => []
  | block :: blocks =>
    let rest := parser.parseMessageContent messageId (index + 1) blocks
    if !messageId.isEmpty && parser.seenContentBlocks.contains (messageId, index) then rest
    else if parser.streamedBlockFingerprints.contains block then rest
    else
      match block.type with
      | .text => if block.text.isEmpty then rest else textLine none block.text :: rest
      | .toolUse name => { type := .toolUse, content := name, block := none } :: rest
      | .thinking => if block.text.all isSpace then rest else thinkingLine none block.text :: rest

def parseResultEvent (parser : ClaudeParser) (result : Text) : List Line :=
  if result.isEmpty || parser.emittedText.contains result then [] else [textLine none result]

def dispatch (parser : ClaudeParser) : Event → List Line × ClaudeParser
  | .streamed wrapped event => parser.parseStreamed wrapped event
  | .assistant messageId content => (parser.parseMessageContent messageId 0 content, parser)
  | .result result => (parser.parseResultEvent result, parser)

def parseFrom (parser : ClaudeParser) : List Event → List Line × ClaudeParser
  | [] => ([], parser)
  | event :: events =>
    let first := parser.dispatch event
    let rest := first.2.parseFrom events
    (first.1 ++ rest.1, rest.2)

def parse (events : List Event) : List Line :=
  let parsed := new.parseFrom events
  parsed.1 ++ parsed.2.flushAccumulators.1

end ClaudeParser

end RalphWorkflow.Parsers.Claude
