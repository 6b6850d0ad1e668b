import RalphWorkflow.Agents.Parsers.Template

/-! The line that `handle_declare_complete` of `ralph/mcp/tools/coordination.py` reports a completion in, and the test for whole session
lines of `ralph/agents/invoke/_session.py`. In the patterns of the test no part can take a character of the next one. -/
namespace RalphWorkflow.Agents.CompletionLine
open Lib.Json (Text)
open Lib.Text (isSpace containsChars)
open Parsers.Template (dropCaseless)

/-! ## The message -/

def isControl (c : Char) : Bool := c.toNat < 32 || c = '\x7f'

/-- `_CONTROL_RUN.sub(" ", summary)` -/
def flattenControls : Text → Text
  | [] => []
  | c :: text =>
    if !isControl c then c :: flattenControls text
    else if text.head?.any isControl then flattenControls text
    else ' ' :: flattenControls text

def quotableSummary (summary : Text) : Text := (flattenControls summary).map fun c => if c = '\'' then '"' else c

/-- With its sentinel written; `summary` is the parameter, if it is a string. -/
def completionMessage (sessionId : Text) (summary : Option Text) (timestamp : Text) : Text :=
  "Task declared complete: session_id=".toList ++ (sessionId ++ (", summary=".toList ++ '\'' ::
    (quotableSummary (summary.getD "No summary provided".toList) ++ '\'' :: (", timestamp=".toList ++ (timestamp ++
      "\n[Completion event emitted to pipeline]".toList)))))

def firstLine (text : Text) : Text := text.takeWhile (· ≠ '\n')

/-! ## The parts of the patterns -/

/-- The decimal digits of Unicode, which `\d` matches. -/
structure Digits where
  isDecimal : Char → Bool
  isDecimal_ascii : ∀ c : Char, c.toNat < 128 → isDecimal c = c.isDigit

variable (digits : Digits)

def skip (text : Text) : Text := text.dropWhile isSpace

def isIdChar (c : Char) : Bool := c.isAlphanum || ['.', '_', ':', '-'].contains c

/-- With `re.IGNORECASE` four characters fold to letters. -/
def isIdCharCaseless (c : Char) : Bool := isIdChar c || ['İ', 'ı', 'ſ', '\u212A'].contains c

def dropId (isId : Char → Bool) (text : Text) : Option Text := if text.head?.any isId then some (text.dropWhile isId) else none

def dropSeparator : Text → Option Text
  | c :: text => if c = ':' ∨ c = '=' then some text else none
  | [] => none

/-- `$` -/
def atEnd (text : Text) : Bool := text = [] || text = ['\n']

/-! ## Completion lines -/

def idAndSummary (text : Text) : Option Text := do
  let text ← dropId isIdCharCaseless text
  let text ← dropCaseless [','] (skip text)
  let text ← dropCaseless "summary".toList (skip text)
  dropCaseless ['='] (skip text)

/-- `_COMPLETION_HEAD_PATTERN`: what follows its match. -/
def completionHead (text : Text) : Option Text := do
  let text ← dropCaseless "task declared complete:".toList text
  let text ← dropCaseless "session".toList (skip text)
  let text ← dropCaseless "id".toList (if text.head? = some '_' then text.tail else text)
  let text ← dropSeparator (skip text)
  idAndSummary (skip text)

def maxTimestampDigits : Nat := 10

def timestampEnds (text : Text) : Bool :=
  let run := text.takeWhile digits.isDecimal
  0 < run.length && run.length ≤ maxTimestampDigits && atEnd (text.dropWhile digits.isDecimal)

/-- `_COMPLETION_TAIL_PATTERN` behind its quote. -/
def isTail (text : Text) : Bool :=
  let value := do
    let text ← dropCaseless [','] (skip text)
    let text ← dropCaseless "timestamp".toList (skip text)
    dropSeparator (skip text)
  value.any fun text => timestampEnds digits (skip text)

/-- What is before the first match of the tail. -/
def searchTail : Text → Option Text
  | [] => none
  | c :: text => if c = '\'' ∧ isTail digits text = true then some [] else (searchTail text).map (c :: ·)

def isWholeCompletionLine (text : Text) : Bool :=
  match completionHead text, searchTail digits text with
  | some rest, some before =>
    let headEnd := text.length - rest.length
    let summary := before.drop headEnd
    headEnd ≤ before.length && summary.head? = some '\'' && !summary.tail.contains '\''
  | _, _ => false

/-! ## Session lines -/

/-- The opening, whether its case counts, and whether white space must follow. -/
def transportPatterns : List (String × Bool × Bool) :=
  [("Claude session ready. Session ID:", true, false), ("session id:", false, false), ("Resume this session with --resume", true, true),
    ("--resume", true, true), ("--session", true, true)]

def matchesTransport (text : Text) (pattern : String × Bool × Bool) : Bool :=
  let isId := if pattern.2.1 then isIdChar else isIdCharCaseless
  let opened := if pattern.2.1 then text.dropPrefix? pattern.1.toList else dropCaseless pattern.1.toList text
  opened.any fun rest => (!pattern.2.2 || rest.head?.any isSpace) && (dropId isId (skip rest)).any atEnd

def isWholeCanonicalSessionLine (text : Text) : Bool := transportPatterns.any (matchesTransport text) || isWholeCompletionLine digits text

/-! ## Openings and ids -/

/-- `str.lower` of a character. -/
structure Lower where
  lower : Char → Text
  lower_ascii : ∀ c : Char, c.toNat < 128 → lower c = [c.toLower]
  lower_special : lower '\u212A' = ['k'] ∧ lower 'ſ' = ['ſ'] ∧ lower 'ı' = ['ı'] ∧ lower 'İ' = ['i', '\u0307']

def canonicalLineOpenings : List Text :=
  ["claude session ready.".toList, "session id:".toList, "resume this session with --resume".toList, "--resume".toList, "--session".toList,
    "task declared complete:".toList]

def maxCanonicalOpeningChars : Nat := 64

def startsWithCanonicalSessionMarker (lower : Lower) (text : Text) : Bool :=
  let opening := (text.take maxCanonicalOpeningChars).flatMap lower.lower
  canonicalLineOpenings.any (·.isPrefixOf opening)

/-- A match of one of `_COMPLETION_SESSION_ID_PATTERNS` at the beginning. -/
def sessionIdAt (name text : Text) : Option Text := do
  let text ← dropCaseless name text
  let text ← dropSeparator (skip text)
  let id := (skip text).takeWhile isIdCharCaseless
  if id = [] then none else some id

def searchSessionId (name : Text) : Text → Option Text
  | [] => none
  | c :: text => (sessionIdAt name (c :: text)).or (searchSessionId name text)

def transportSessionId (text : Text) (pattern : String × Bool × Bool) : Option Text :=
  let isId := if pattern.2.1 then isIdChar else isIdCharCaseless
  let opened := if pattern.2.1 then text.dropPrefix? pattern.1.toList else dropCaseless pattern.1.toList text
  opened.bind fun rest =>
    if (!pattern.2.2 || rest.head?.any isSpace) && (dropId isId (skip rest)).any atEnd then some ((skip rest).takeWhile isId) else none

def extractTransportTextSessionId (text : Text) : Option Text :=
  let marked := if containsChars "Task declared complete:".toList text then
      (searchSessionId "session_id".toList text).or (searchSessionId "sessionid".toList text)
    else none
  marked.or (transportPatterns.findSome? (transportSessionId text))

end RalphWorkflow.Agents.CompletionLine
