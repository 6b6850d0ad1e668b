import RalphWorkflow.Lib.Text

/-! `apply_text_edits` of `ralph/mcp/tools/text_edits/_engine.py` with an anchor. A text is its characters; the diffs in a payload are left out. -/
namespace RalphWorkflow.TextEdits
open Lib.Text (isLineBreak)

abbrev Text := List Char

/-- The parser refuses an empty `oldText`. -/
structure TextEdit where
  oldText : Text
  newText : Text
  oldText_ne : oldText ≠ []

inductive MatchStrategy
  | exact
  | withinTarget
  | allInTarget
  deriving DecidableEq

structure TextEditAnchor where
  startLine : Int
  endLine : Int
  matchStrategy : MatchStrategy

inductive RejectedTextEdits
  | noMatch (editIndex : Nat)
  | ambiguousTarget (reason : String) (editIndex : Nat)
  | ambiguousMatches (reason : String) (editIndex firstMatchIndex : Nat) (firstMatchInTarget : Bool)
  deriving DecidableEq

/-! ## Strings -/

/-- `str.splitlines(keepends=True)`, after the characters of the line so far, last first. -/
def keepLinesFrom (line : Text) : Text → List Text
  | [] => if line.isEmpty then [] else [line.reverse]
  | '\r' :: '\n' :: rest => ('\n' :: '\r' :: line).reverse :: keepLinesFrom [] rest
  | c :: rest => if isLineBreak c then (c :: line).reverse :: keepLinesFrom [] rest else keepLinesFrom (c :: line) rest

def splitLinesKeepEnds (text : Text) : List Text := keepLinesFrom [] text

def findFrom (needle : Text) (position : Nat) : Text → Option Nat
  | [] => if needle.isEmpty then some position else none
  | c :: rest => if needle.isPrefixOf (c :: rest) then some position else findFrom needle (position + 1) rest

def find (text needle : Text) : Option Nat := findFrom needle 0 text

def lengthOfLines (count : Nat) (lines : List Text) : Nat := ((lines.take count).map List.length).sum

def lineRangeToByteOffsets (text : Text) (startLine endLine : Int) : Nat × Nat :=
  let lines := splitLinesKeepEnds text
  let startIndex := max 0 (min (lines.length : Int) (startLine - 1))
  let endIndex := max startIndex (min (lines.length : Int) endLine)
  (lengthOfLines startIndex.toNat lines, lengthOfLines endIndex.toNat lines)

def occurrenceStarts (needle text : Text) : Nat → Nat → List Nat
  | 0, _ => []
  | searches + 1, position =>
    match findFrom needle position (text.drop position) with
    | none => []
    | some found => found :: occurrenceStarts needle text searches (found + needle.length)

/-! ## Edits -/

def checkAllInTarget (current : Text) (edit : TextEdit) (index anchorStart anchorEnd matchIndex : Nat) : Option RejectedTextEdits :=
  let oldLength := edit.oldText.length
  let starts := occurrenceStarts edit.oldText current (current.length + 1) 0
  if starts.isEmpty then some (.noMatch index)
  else if starts.any fun occurrence => occurrence < anchorStart || anchorEnd < occurrence + oldLength then
    some (.ambiguousMatches "match_strategy_all_in_target_violation" index matchIndex
      (anchorStart ≤ matchIndex && matchIndex + oldLength ≤ anchorEnd))
  else none

def checkAnchor (current : Text) (edit : TextEdit) (index : Nat) (anchor : TextEditAnchor) (matchIndex : Nat) : Option RejectedTextEdits :=
  let span := lineRangeToByteOffsets current anchor.startLine anchor.endLine
  let matchEnd := matchIndex + edit.oldText.length
  match anchor.matchStrategy with
  | .exact =>
    if matchIndex ≠ span.1 ∨ matchEnd ≠ span.2 then some (.ambiguousTarget "match_strategy_exact_violation" index) else none
  | .withinTarget =>
    if matchIndex < span.1 ∨ span.2 < matchEnd then some (.ambiguousTarget "match_strategy_within_target_violation" index) else none
  | .allInTarget => checkAllInTarget current edit index span.1 span.2 matchIndex

def replaceAt {α : Type} (current : List α) (matchIndex oldLength : Nat) (newText : List α) : List α :=
  current.take matchIndex ++ newText ++ current.drop (matchIndex + oldLength)

def locate (anchor : TextEditAnchor) (current : Text) (index : Nat) (edit : TextEdit) : Except RejectedTextEdits Nat :=
  match find current edit.oldText with
  | none => .error (.noMatch index)
  | some matchIndex =>
    match checkAnchor current edit index anchor matchIndex with
    | some rejection => .error rejection
    | none => .ok matchIndex

def applyFrom (anchor : TextEditAnchor) (current : Text) (index : Nat) : List TextEdit → Except RejectedTextEdits Text
  | [] => .ok current
  | edit :: edits =>
    match locate anchor current index edit with
    | .error rejection => .error rejection
    | .ok matchIndex => applyFrom anchor (replaceAt current matchIndex edit.oldText.length edit.newText) (index + 1) edits

def applyTextEdits (original : Text) (edits : List TextEdit) (anchor : TextEditAnchor) : Except RejectedTextEdits Text :=
  applyFrom anchor original 0 edits

def written (original : Text) (edits : List TextEdit) (anchor : TextEditAnchor) : Text :=
  match applyTextEdits original edits anchor with
  | .error _ => original
  | .ok content => content

end RalphWorkflow.TextEdits
