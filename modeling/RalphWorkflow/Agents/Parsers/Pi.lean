import RalphWorkflow.Agents.Parsers.TextAccumulator
import RalphWorkflow.Lib.Dict

/-! The text and thinking of `ralph/agents/parsers/pi.py`, from decoded events. A line carries the content block that it shows, which the line of
the program does not. -/
namespace RalphWorkflow.Parsers.Pi
open Lib (Dict)
open Lib.Json (Text)
open Lib.Text (isSpace)

inductive Kind
  | text
  | thinking
  deriving DecidableEq

abbrev AccumulatorKey := Kind × Int

inductive LineType
  | content (kind : Kind)
  | error
  | stop
  deriving DecidableEq

structure Line where
  type : LineType
  content : Text
  block : Option AccumulatorKey
  deriving DecidableEq

def contentLine (key : AccumulatorKey) (content : Text) : Line := { type := .content key.1, content := content, block := some key }

structure Block where
  kind : Kind
  content : Text
  deriving DecidableEq

inductive SubEvent
  | textStart (contentIndex : Int)
  | textDelta (contentIndex : Int) (delta : Text)
  | textEnd (contentIndex : Int) (content : Text)
  | thinkingStart (contentIndex : Int)
  | thinkingDelta (contentIndex : Int) (delta : Text)
  | thinkingEnd (contentIndex : Int) (content : Text)
  | done (stopReason : Option Text)
  deriving DecidableEq

structure FinalMessage where
  content : List Block
  stopReason : Option Text
  errorMessage : Option Text

inductive Event
  | messageStart
  | messageUpdate (sub : SubEvent)
  | messageEnd (message : FinalMessage)

structure PiParser where
  accumulators : Dict AccumulatorKey TextAccumulator
  sawTextEndByIndex : List Int
  sawThinkingEndByIndex : List Int

def PiParser.new : PiParser := { accumulators := ∅, sawTextEndByIndex := [], sawThinkingEndByIndex := [] }

namespace PiParser

def sawEnd (parser : PiParser) : AccumulatorKey → Bool
  | (.text, contentIndex) => parser.sawTextEndByIndex.contains contentIndex
  | (.thinking, contentIndex) => parser.sawThinkingEndByIndex.contains contentIndex

def addEnd (parser : PiParser) : AccumulatorKey → PiParser
  | (.text, contentIndex) => { parser with sawTextEndByIndex := contentIndex :: parser.sawTextEndByIndex }
  | (.thinking, contentIndex) => { parser with sawThinkingEndByIndex := contentIndex :: parser.sawThinkingEndByIndex }

def pop (parser : PiParser) (key : AccumulatorKey) : PiParser := { parser with accumulators := parser.accumulators.erase key }

def resetEmissionFlags (parser : PiParser) : PiParser := { parser with sawTextEndByIndex := [], sawThinkingEndByIndex := [] }

def flushKey (key : AccumulatorKey) (acc : TextAccumulator) : List Line := (acc.flush (key.1 = .thinking)).map (contentLine key)

def flushAccumulators (parser : PiParser) : List Line × PiParser :=
  (parser.accumulators.entries.flatMap fun entry => flushKey entry.1 entry.2, { parser with accumulators := ∅ })

/-! ## Streamed blocks -/

def handleDelta (parser : PiParser) (key : AccumulatorKey) (delta : Text) : List Line × PiParser :=
  if delta.isEmpty || parser.sawEnd key then ([], parser)
  else
    let accumulated := (parser.accumulators.getD key {}).accumulate delta true
    (accumulated.1.map (contentLine key), { parser with accumulators := parser.accumulators.set key accumulated.2 })

def handleTextDelta (parser : PiParser) (contentIndex : Int) (delta : Text) : List Line × PiParser :=
  parser.handleDelta (.text, contentIndex) delta

def handleThinkingDelta (parser : PiParser) (contentIndex : Int) (delta : Text) : List Line × PiParser :=
  parser.handleDelta (.thinking, contentIndex) delta

def handleEnd (parser : PiParser) (key : AccumulatorKey) (content : Text) (unshown : Bool) : List Line × PiParser :=
  let held := parser.accumulators.get? key
  (if unshown then (held.map (flushKey key)).getD [] else [contentLine key content], (parser.addEnd key).pop key)

def handleTextEnd (parser : PiParser) (contentIndex : Int) (content : Text) : List Line × PiParser :=
  parser.handleEnd (.text, contentIndex) content content.isEmpty

def handleThinkingEnd (parser : PiParser) (contentIndex : Int) (content : Text) : List Line × PiParser :=
  parser.handleEnd (.thinking, contentIndex) content (content.all isSpace)

def casefoldIs (text : Text) (word : String) : Bool := text.map Char.toLower = word.toList

def handleDone (parser : PiParser) (stopReason : Option Text) : List Line × PiParser :=
  let flushed := parser.flushAccumulators
  let exhausted := stopReason.any fun reason => casefoldIs reason "length"
  (flushed.1 ++ (if exhausted then [{ type := .error, content := "context length exhausted".toList, block := none }] else []) ++
      [{ type := .stop, content := [], block := none }],
    flushed.2.resetEmissionFlags)

def handleUpdate (parser : PiParser) : SubEvent → List Line × PiParser
  | .textStart _ => ([], parser)
  | .thinkingStart _ => ([], parser)
  | .textDelta contentIndex delta => parser.handleTextDelta contentIndex delta
  | .textEnd contentIndex content => parser.handleTextEnd contentIndex content
  | .thinkingDelta contentIndex delta => parser.handleThinkingDelta contentIndex delta
  | .thinkingEnd contentIndex content => parser.handleThinkingEnd contentIndex content
  | .done stopReason => parser.handleDone stopReason

/-! ## Final messages -/

def emitMessageContent (parser : PiParser) (blockIndex : Int) : List Block → List Line × PiParser
  | [] => ([], parser)
  | block :: blocks =>
    let key : AccumulatorKey := (block.kind, blockIndex)
    if parser.sawEnd key then parser.emitMessageContent (blockIndex + 1) blocks
    else
      let rest := ((parser.pop key).addEnd key).emitMessageContent (blockIndex + 1) blocks
      ((if block.content.isEmpty then [] else [contentLine key block.content]) ++ rest.1, rest.2)

def messageFailureText (message : FinalMessage) : Option Text :=
  if message.stopReason.any fun reason => casefoldIs reason "error" then
    some ((message.errorMessage.filter fun text => !text.all isSpace).getD "model turn failed (stopReason=error)".toList)
  else none

def handleMessageEnd (parser : PiParser) (message : FinalMessage) : List Line × PiParser :=
  let emitted := ({ parser with accumulators := ∅ } : PiParser).emitMessageContent 0 message.content
  let failure := (messageFailureText message).map fun text => ({ type := .error, content := text, block := none } : Line)
  (emitted.1 ++ failure.toList, emitted.2.resetEmissionFlags)

def dispatch (parser : PiParser) : Event → List Line × PiParser
  | .messageStart => ([], parser)
  | .messageUpdate sub => parser.handleUpdate sub
  | .messageEnd message => parser.handleMessageEnd message

def parseFrom (parser : PiParser) : List Event → List Line × PiParser
  | [] => ([], parser)
  | event :: events =>
    let first := parser.dispatch event
    let rest := first.2.parseFrom events
    (first.1 ++ rest.1, rest.2)

end PiParser

end RalphWorkflow.Parsers.Pi
