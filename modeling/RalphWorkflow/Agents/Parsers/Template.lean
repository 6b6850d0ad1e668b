import RalphWorkflow.Lib.Json
import RalphWorkflow.Lib.Replace
import RalphWorkflow.Lib.Text

/-! `emit_subagent_activity` of `ralph/agents/parsers/_template.py`, with the passes that take sensitive values out of a summary. -/
namespace RalphWorkflow.Parsers.Template
open Lib.Json (Text)
open Lib.JsonValue
open Lib.Replace (replaceAll)
open Lib.Text (isSpace)

inductive LineType
  | toolUse
  | toolResult
  | text
  | thinking
  | other (name : Text)
  deriving DecidableEq

def LineType.name : LineType → Text
  | .toolUse => "tool_use".toList
  | .toolResult => "tool_result".toList
  | .text => "text".toList
  | .thinking => "thinking".toList
  | .other name => name

inductive MetaValue
  | text (value : Text)
  | other (truthy : Bool)
  deriving DecidableEq

def MetaValue.truthy : MetaValue → Bool
  | .text value => !value.isEmpty
  | .other truthy => truthy

structure Metadata where
  tool : Option MetaValue := none
  toolName : Option MetaValue := none
  toolNameCamel : Option MetaValue := none
  name : Option MetaValue := none
  deriving DecidableEq

structure AgentOutputLine where
  type : LineType
  content : Text
  metadata : Metadata := {}
  deriving DecidableEq

def maxSummaryLength : Nat := 200

def maxPrefixLength : Nat := 80

def strip (text : Text) : Text := ((text.dropWhile isSpace).reverse.dropWhile isSpace).reverse

def redacted : Text := "<redacted>".toList

/-! ## Control characters -/

def isControl (c : Char) : Bool := c.toNat < 32 || c.toNat == 127

/-- `_CONTROL_CHARS_RE`: an escape character alone is taken before a sequence could be. -/
def removeControlChars (text : Text) : Text := text.filter fun c => !isControl c

/-! ## Fragments of JSON -/

def sensitiveJsonKeys : List Text :=
  ["arguments".toList, "args".toList, "file_path".toList, "input".toList, "prompt".toList, "content".toList]

def isSensitive (key : Text) : Bool := sensitiveJsonKeys.contains (key.map Char.toLower)

mutual

def redactJsonValues : Json → Json
  | .arr items => .arr (redactItems items)
  | .obj fields => .obj (redactFields fields)
  | value => value

def redactItems : List Json → List Json
  | [] => []
  | item :: items => redactJsonValues item :: redactItems items

def redactFields : List (Text × Json) → List (Text × Json)
  | [] => []
  | (key, value) :: fields => (key, if isSensitive key then .str redacted else redactJsonValues value) :: redactFields fields

end

def findFragment (floatRepr : Text → Text) (text : Text) : Option (Text × Text) :=
  (rawDecode text).map fun decoded => (write floatRepr (redactJsonValues decoded.1), decoded.2)

def redactJsonFragments (floatRepr : Text → Text) (text : Text) : Text := replaceAll (findFragment floatRepr) text

/-! ## Markers -/

/-- Ignoring case, as Unicode patterns do: two more characters are an `i`, one is an `s`, and one a `k`. -/
def caseless (c letter : Char) : Bool :=
  c.toLower == letter || (letter == 'i' && (c == 'İ' || c == 'ı')) || (letter == 's' && c == 'ſ') || (letter == 'k' && c == '\u212A')

def dropCaseless : Text → Text → Option Text
  | [], text => some text
  | _ :: _, [] => none
  | letter :: word, c :: text => if caseless c letter then dropCaseless word text else none

def isSensitiveWord (word : Text) : Bool := sensitiveJsonKeys.any fun key => dropCaseless key word == some []

def isColon (text : Text) : Bool :=
  match text.dropWhile isSpace with
  | ':' :: rest => rest.all isSpace
  | _ => false

def isBoundary (c : Char) : Bool := c == ',' || c == '}' || c == ']' || c == '\n'

/-- `_SENSITIVE_MARKER_FALLBACK_RE`: a quoted sensitive word, colon and quote, and all before the first boundary. -/
def findMarker : Text → Option (Text × Text)
  | '"' :: text =>
    match text.dropWhile (· ≠ '"') with
    | '"' :: rest =>
      match rest.dropWhile (· ≠ '"') with
      | '"' :: value =>
        if isSensitiveWord (text.takeWhile (· ≠ '"')) && isColon (rest.takeWhile (· ≠ '"')) then
          some (redacted, value.dropWhile fun c => !isBoundary c)
        else none
      | _ => none
    | _ => none
  | _ => none

/-! ## Paths, tokens and keys -/

def sensitiveRoots : List Text := ["/etc/".toList, "/proc/".toList, "/sys/".toList, "/root/".toList, "~/.ssh/".toList]

def dropRoot (text : Text) : Option Text :=
  (sensitiveRoots.findSome? fun root => text.dropPrefix? root).map fun rest => rest.dropWhile fun c => !(isSpace c || c == '\x1b' || c == '\n')

def dropBearer (text : Text) : Option Text := do
  let rest ← dropCaseless "authorization".toList text
  let rest ← (rest.dropWhile isSpace).dropPrefix? [':']
  let rest ← dropCaseless "bearer".toList (rest.dropWhile isSpace)
  some (rest.dropWhile (· ≠ '\n'))

def isPrivateKey (text : Text) : Bool :=
  match text.dropPrefix? "PRIVATE".toList with
  | some rest => rest.head?.any isSpace && "KEY-----".toList.isPrefixOf (rest.dropWhile isSpace)
  | none => false

def isKeyLabel : Text → Bool
  | [] => false
  | c :: text => isPrivateKey (c :: text) || (('A' ≤ c && c ≤ 'Z' || c == ' ') && isKeyLabel text)

def dropPem (text : Text) : Option Text := do
  let rest ← text.dropPrefix? "-----BEGIN".toList
  if rest.head?.any isSpace && isKeyLabel (rest.dropWhile isSpace) then some (rest.dropWhile (· ≠ '\n')) else none

def findSensitive (text : Text) : Option (Text × Text) :=
  ((dropRoot text).or ((dropBearer text).or (dropPem text))).map fun rest => (redacted, rest)

/-! ## Summaries -/

def sanitize (floatRepr : Text → Text) (line : Text) : Text :=
  let cleaned := redactJsonFragments floatRepr (removeControlChars line)
  let cleaned := replaceAll findSensitive (replaceAll findMarker cleaned)
  (strip cleaned).take maxSummaryLength

def toolNameFromLine (line : AgentOutputLine) : Text :=
  let fields : List (Option MetaValue) := [line.metadata.tool, line.metadata.toolName, line.metadata.toolNameCamel, line.metadata.name]
  match fields.findSome? (Option.filter MetaValue.truthy) with
  | some (MetaValue.text candidate) => if (strip candidate).isEmpty then "unknown".toList else strip candidate
  | _ => "unknown".toList

def summaryOf (line : AgentOutputLine) : Option Text :=
  match line.type with
  | .toolUse | .toolResult => some (line.type.name ++ ':' :: toolNameFromLine line)
  | .text | .thinking => some (line.type.name ++ ':' :: (strip line.content).take maxPrefixLength)
  | .other _ => none

def emitSubagentActivity (floatRepr : Text → Text) (line : AgentOutputLine) : Option Text :=
  ((summaryOf line).map (sanitize floatRepr)).filter fun summary => !summary.isEmpty

end RalphWorkflow.Parsers.Template
