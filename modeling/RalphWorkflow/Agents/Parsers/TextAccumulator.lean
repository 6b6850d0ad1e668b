import RalphWorkflow.Lib.Json
import RalphWorkflow.Lib.Text

/-! `TextAccumulator` of `ralph/agents/parsers/text_accumulator.py`: deltas are held until a paragraph break, a cap or a flush. Of the raw lines
behind the buffer only their number is kept. -/
namespace RalphWorkflow.Parsers
open Lib.Json (Text)
open Lib.Text (isSpace)

structure TextAccumulator where
  buffer : Text := []
  rawLines : Nat := 0
  deriving DecidableEq

def maxRawLines : Nat := 512

def splitBreak : Text → Option (Text × Text)
  | '\n' :: '\n' :: rest => some ([], rest)
  | c :: rest => (splitBreak rest).map fun parts => (c :: parts.1, parts.2)
  | [] => none

namespace TextAccumulator

def takeParagraph (acc : TextAccumulator) (keepCurrentWhenEmpty : Bool) : List Text × TextAccumulator :=
  match splitBreak acc.buffer with
  | none => ([], acc)
  | some (flushed, remaining) =>
    (if flushed.isEmpty then [] else [flushed],
      { buffer := remaining, rawLines := if !remaining.isEmpty || keepCurrentWhenEmpty then 1 else 0 })

def accumulate (acc : TextAccumulator) (text : Text) (keepCurrentWhenEmpty : Bool) : List Text × TextAccumulator :=
  let grown : TextAccumulator := { buffer := acc.buffer ++ text, rawLines := acc.rawLines + 1 }
  if maxRawLines < grown.rawLines then
    let rest := takeParagraph {} keepCurrentWhenEmpty
    (grown.buffer :: rest.1, rest.2)
  else grown.takeParagraph keepCurrentWhenEmpty

def flush (acc : TextAccumulator) (requireStrip : Bool) : List Text :=
  if (if requireStrip then acc.buffer.all isSpace else acc.buffer.isEmpty) then [] else [acc.buffer]

end TextAccumulator

end RalphWorkflow.Parsers
