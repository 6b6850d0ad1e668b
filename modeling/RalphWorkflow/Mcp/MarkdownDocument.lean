import RalphWorkflow.Lib.Text

/-! `parse_markdown_document` of `ralph/mcp/artifacts/markdown/_parser.py`. Lines are numbered from 1, as `str.splitlines` finds them. -/
namespace RalphWorkflow.Markdown
open Lib.Text (isSpace pyRepr splitLinesFrom)

abbrev Text := List Char

structure ParsedLine where
  line : Nat
  text : Text

structure ParsedItem where
  identifier : Text
  text : Text
  line : Nat
  checked : Option Bool
  fields : List ParsedLine

structure ParsedBlock where
  identifier : Text
  title : Text
  line : Nat
  lines : List ParsedLine

structure ParsedSection where
  name : Text
  line : Nat
  level : Nat
  lines : List ParsedLine
  items : List ParsedItem
  blocks : List ParsedBlock

structure Diagnostic where
  line : Nat
  sectionName : Option Text
  ruleId : String
  message : String

structure ParsedDocument where
  frontmatter : List (Text × Text)
  frontmatterLines : List (Text × Nat)
  sections : List ParsedSection

/-! ## Patterns -/

def strip (text : Text) : Text := ((text.dropWhile isSpace).reverse.dropWhile isSpace).reverse

def isLetter (c : Char) : Bool := ('A' ≤ c && c ≤ 'Z') || ('a' ≤ c && c ≤ 'z')

def isIdentifierChar (c : Char) : Bool := isLetter c || ('0' ≤ c && c ≤ '9') || c == '_' || c == '-'

def isNamed (text : Text) : Bool :=
  text.head?.any (fun c => !isSpace c) && text.getLast?.any (fun c => !isSpace c) && !text.contains '\n'

def matchIdentified : Text → Option (Text × Text)
  | '[' :: text =>
    let identifier := text.takeWhile isIdentifierChar
    match text.dropWhile isIdentifierChar with
    | ']' :: ' ' :: title => if identifier.head?.any isLetter && isNamed title then some (identifier, title) else none
    | _ => none
  | _ => none

def matchMarks (line : Text) : Option (Nat × Text) :=
  match line.dropWhile (· == '#') with
  | ' ' :: text => some ((line.takeWhile (· == '#')).length, text)
  | _ => none

def matchBlockHeading (line : Text) : Option (Nat × Text × Text) :=
  (matchMarks line).bind fun marked =>
    if 3 ≤ marked.1 ∧ marked.1 ≤ 6 then (matchIdentified marked.2).map fun found => (marked.1, found) else none

def matchHeading (line : Text) : Option (Nat × Text) :=
  (matchMarks line).filter fun marked => 1 ≤ marked.1 && marked.1 ≤ 6 && isNamed marked.2

def matchCheckbox : Text → Option (Bool × Text)
  | '[' :: mark :: ']' :: ' ' :: text => if mark = ' ' then some (false, text) else if mark = 'x' ∨ mark = 'X' then some (true, text) else none
  | _ => none

/-- A checkbox is one only where an identifier follows it. -/
def matchItem : Text → Option (Option Bool × Text × Text)
  | '-' :: ' ' :: text =>
    let checked := (matchCheckbox text).bind fun box => (matchIdentified box.2).map fun found => (some box.1, found)
    checked.orElse fun _ => (matchIdentified text).map fun found => (none, found)
  | _ => none

def matchFrontmatterField (line : Text) : Option (Text × Text) :=
  let key := line.takeWhile isIdentifierChar
  match line.dropWhile isIdentifierChar with
  | ':' :: ' ' :: value => if key.head?.any isLetter && isNamed value then some (key, value) else none
  | _ => none

/-! ## Frontmatter -/

def parserRoutingConsumer : String :=
  "blocking because the artifact spec registry (ralph/mcp/artifacts/markdown/registry.py) routes the parsed markdown " ++
    "structure to the registered validator and a parser-level error blocks routing"

structure Frontmatter where
  fields : List (Text × Text)
  lines : List (Text × Nat)
  diagnostics : List Diagnostic

def malformedField (lineNumber : Nat) : Diagnostic where
  line := lineNumber
  sectionName := none
  ruleId := "MD005"
  message := "frontmatter fields must use 'key: value'; " ++ parserRoutingConsumer ++
    "; resolve by rewriting the line as 'key: value' with no leading spaces and a single space after the colon so the " ++
    "parser can route the field to the validator"

def duplicateField (lineNumber : Nat) (key : Text) : Diagnostic where
  line := lineNumber
  sectionName := none
  ruleId := "MD006"
  message := "duplicate frontmatter field " ++ pyRepr (String.ofList key) ++ "; " ++ parserRoutingConsumer ++
    "; resolve by removing the duplicate " ++ pyRepr (String.ofList key) ++ " field so the parser can route the remaining value to the validator"

def unterminatedFrontmatter : Diagnostic where
  line := 1
  sectionName := none
  ruleId := "MD007"
  message := "unterminated frontmatter block; " ++ parserRoutingConsumer ++
    "; resolve by adding the closing '---' line after the frontmatter fields so the parser can route the document to the validator"

/-- The loop of `_parse_frontmatter`: what it has found, and the next index. -/
def parseFrontmatterFrom (front : Frontmatter) (index : Nat) : List Text → Frontmatter × Nat
  | [] => ({ front with diagnostics := front.diagnostics ++ [unterminatedFrontmatter] }, index)
  | line :: lines =>
    if line = "---".toList then (front, index + 1)
    else
      match matchFrontmatterField line with
      | none => parseFrontmatterFrom { front with diagnostics := front.diagnostics ++ [malformedField (index + 1)] } (index + 1) lines
      | some (key, value) =>
        if front.fields.any (fun field => field.1 = key) then
          parseFrontmatterFrom { front with diagnostics := front.diagnostics ++ [duplicateField (index + 1) key] } (index + 1) lines
        else
          parseFrontmatterFrom { front with fields := front.fields ++ [(key, value)], lines := front.lines ++ [(key, index + 1)] } (index + 1) lines

def parseFrontmatter (lines : List Text) : Frontmatter × Nat :=
  let empty : Frontmatter := { fields := [], lines := [], diagnostics := [] }
  match lines with
  | [] => (empty, 0)
  | line :: rest => if line = "---".toList then parseFrontmatterFrom empty 1 rest else (empty, 0)

/-! ## Sections -/

structure SectionBuilder where
  name : Text
  line : Nat
  level : Nat
  lines : List ParsedLine
  items : List ParsedItem
  blocks : List ParsedBlock
  block : Option ParsedBlock
  blockLines : List ParsedLine

def SectionBuilder.finishBlock (builder : SectionBuilder) : SectionBuilder :=
  { builder with
    blocks := builder.blocks ++ (builder.block.map fun block => { block with lines := builder.blockLines }).toList
    block := none
    blockLines := [] }

def SectionBuilder.startBlock (builder : SectionBuilder) (identifier title : Text) (line : Nat) : SectionBuilder :=
  { builder.finishBlock with block := some { identifier := identifier, title := title, line := line, lines := [] } }

def SectionBuilder.finish (builder : SectionBuilder) : ParsedSection :=
  let builder := builder.finishBlock
  { name := builder.name, line := builder.line, level := builder.level, lines := builder.lines, items := builder.items, blocks := builder.blocks }

structure State where
  diagnostics : List Diagnostic
  sections : List ParsedSection
  current : Option SectionBuilder
  lastItem : Option ParsedItem
  itemFields : List ParsedLine

def State.finishItem (state : State) : State :=
  { state with
    current := state.current.map fun builder =>
      { builder with items := builder.items ++ (state.lastItem.map fun item => { item with fields := state.itemFields }).toList }
    lastItem := none
    itemFields := [] }

def State.diagnose (state : State) (diagnostic : Diagnostic) : State := { state with diagnostics := state.diagnostics ++ [diagnostic] }

def State.finishSection (state : State) : List ParsedSection := state.sections ++ (state.current.map SectionBuilder.finish).toList

def misplacedBlock (lineNumber : Nat) : Diagnostic where
  line := lineNumber
  sectionName := none
  ruleId := "MD002"
  message := "step blocks must follow a markdown heading"

def misplacedContent (lineNumber : Nat) : Diagnostic where
  line := lineNumber
  sectionName := none
  ruleId := "MD002"
  message := "content must be inside a '## Heading' section; " ++ parserRoutingConsumer ++
    "; resolve by moving the line into a '## Heading' section so the parser can route it to a validator"

def malformedHeading (lineNumber : Nat) (name : Text) : Diagnostic where
  line := lineNumber
  sectionName := some name
  ruleId := "MD001"
  message := "headings must use '## Section' or '### [ID] Title'"

def stepContent (state : State) (lineNumber : Nat) (line : Text) : State :=
  match state.current with
  | none => state.diagnose (misplacedContent lineNumber)
  | some builder =>
    if line.head? = some '#' then state.diagnose (malformedHeading lineNumber builder.name)
    else
      match matchItem line with
      | some (checked, identifier, text) =>
        let state := state.finishItem
        { state with
          current := state.current.map SectionBuilder.finishBlock
          lastItem := some { identifier := identifier, text := text, line := lineNumber, checked := checked, fields := [] } }
      | none =>
        let parsed : ParsedLine := { line := lineNumber, text := strip line }
        if builder.block.isSome then { state with current := some { builder with blockLines := builder.blockLines ++ [parsed] } }
        else if line.head?.any isSpace && state.lastItem.isSome then { state with itemFields := state.itemFields ++ [parsed] }
        else
          let state := state.finishItem
          { state with current := state.current.map fun builder => { builder with lines := builder.lines ++ [parsed] } }

def step (allowNestedHeadings : Bool) (state : State) (lineNumber : Nat) (line : Text) : State :=
  match (matchBlockHeading line).filter fun found => allowNestedHeadings || found.1 == 3 with
  | some (_, identifier, title) =>
    let state := state.finishItem
    match state.current with
    | none => state.diagnose (misplacedBlock lineNumber)
    | some builder => { state with current := some (builder.startBlock identifier title lineNumber) }
  | none =>
    match (matchHeading line).filter fun found => allowNestedHeadings || found.1 == 2 with
    | some (level, name) =>
      let state := state.finishItem
      { state with
        sections := state.finishSection
        current := some { name := name, line := lineNumber, level := level, lines := [], items := [], blocks := [], block := none, blockLines := [] } }
    | none => if line.all isSpace then state else stepContent state lineNumber line

def parseFrom (allowNestedHeadings : Bool) (state : State) (lineNumber : Nat) : List Text → State
  | [] => state
  | line :: lines => parseFrom allowNestedHeadings (step allowNestedHeadings state lineNumber line) (lineNumber + 1) lines

def parseLines (allowNestedHeadings : Bool) (lines : List Text) : ParsedDocument × List Diagnostic :=
  let front := parseFrontmatter lines
  let initial : State := { diagnostics := front.1.diagnostics, sections := [], current := none, lastItem := none, itemFields := [] }
  let final := (parseFrom allowNestedHeadings initial (front.2 + 1) (lines.drop front.2)).finishItem
  ({ frontmatter := front.1.fields, frontmatterLines := front.1.lines, sections := final.finishSection }, final.diagnostics)

def parseMarkdownDocument (text : Text) (allowNestedHeadings : Bool) : ParsedDocument × List Diagnostic :=
  parseLines allowNestedHeadings (splitLinesFrom [] text)

end RalphWorkflow.Markdown
