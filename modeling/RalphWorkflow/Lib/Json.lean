import Mathlib.Data.List.Basic

/-! `json.loads` as a machine with a stack of open objects and arrays, and the `json.dumps` of a flat object. Of what is nested in the outer object
only the brackets are kept. A lone surrogate is refused; how numbers are spelled is a parameter. -/
namespace RalphWorkflow.Lib.Json

abbrev Text := List Char

def isBare (c : Char) : Bool := c.isAlphanum || c == '+' || c == '-' || c == '.'

/-- What `json.dumps` writes for a number and `json.loads` makes of a bare word. -/
class Spelling (Number : Type) where
  word : Number → Text
  ofWord : Text → Option Number
  ofWord_word : ∀ number, ofWord (word number) = some number
  ofWord_null : ofWord "null".toList = none
  word_ne_nil : ∀ number, word number ≠ []
  word_bare : ∀ number, ∀ c ∈ word number, isBare c = true

section

variable (Number : Type)

inductive Scalar where
  | null
  | str (text : Text)
  | num (number : Number)

/-- `other` is a nested object or array. -/
inductive Value where
  | null
  | str (text : Text)
  | num (number : Number)
  | other
  deriving DecidableEq

inductive Frame where
  | object (fields : List (Text × Value Number)) (key : Text)
  | array

inductive Role where
  | key
  | value

inductive Mode where
  | value
  | firstKey
  | nextKey
  | colon
  | after
  | firstItem
  | string (role : Role) (text : Text)
  | escape (role : Role) (text : Text)
  | hex (role : Role) (text : Text) (digits : List Nat) (high : Option Nat)
  | lowEscape (role : Role) (text : Text) (high : Nat)
  | lowHex (role : Role) (text : Text) (high : Nat)
  | word (text : Text)

/-- Inside a document, or after it; `none` when the document is no object. -/
inductive State where
  | running (stack : List (Frame Number)) (mode : Mode)
  | finished (fields : Option (List (Text × Value Number)))

end

variable {Number : Type}

def Scalar.toValue : Scalar Number → Value Number
  | .null => .null
  | .str text => .str text
  | .num number => .num number

def Value.str? : Value Number → Option Text
  | .str text => some text
  | _ => none

def Value.num? : Value Number → Option Number
  | .num number => some number
  | _ => none

def Value.strOrNull? : Value Number → Option (Option Text)
  | .null => some none
  | .str text => some (some text)
  | _ => none

def Value.ofOption : Option Text → Value Number
  | none => .null
  | some text => .str text

@[simp] theorem Value.str?_ofOption (text : Option Text) : (Value.ofOption text : Value Number).str? = text := by
  cases text <;> rfl

@[simp] theorem Value.strOrNull?_ofOption (text : Option Text) : (Value.ofOption text : Value Number).strOrNull? = some text := by
  cases text <;> rfl

/-! ## Reading -/

def isBlank (c : Char) : Bool := c == ' ' || c == '\t' || c == '\n' || c == '\r'

def push (value : Value Number) : List (Frame Number) → State Number
  | [] => .finished none
  | .object fields key :: stack => .running (.object (fields ++ [(key, value)]) key :: stack) .after
  | .array :: stack => .running (.array :: stack) .after

def close : List (Frame Number) → Option (State Number)
  | [] => none
  | [.object fields _] => some (.finished (some fields))
  | _ :: stack => some (push .other stack)

def closeObject : List (Frame Number) → Option (State Number)
  | .object fields key :: stack => close (.object fields key :: stack)
  | _ => none

def closeArray : List (Frame Number) → Option (State Number)
  | .array :: stack => close (.array :: stack)
  | _ => none

def startValue (stack : List (Frame Number)) (c : Char) : Option (State Number) :=
  if c = '{' then some (.running (.object [] [] :: stack) .firstKey)
  else if c = '[' then some (.running (.array :: stack) .firstItem)
  else if c = '"' then some (.running stack (.string .value []))
  else if isBare c then some (.running stack (.word [c]))
  else none

def endString (stack : List (Frame Number)) : Role → Text → Option (State Number)
  | .value, text => some (push (.str text) stack)
  | .key, text =>
    match stack with
    | .object fields _ :: stack => some (.running (.object fields text :: stack) .colon)
    | _ => none

def endWord [Spelling Number] (stack : List (Frame Number)) (text : Text) : Option (State Number) :=
  if text = "null".toList then some (push .null stack)
  else (Spelling.ofWord text).map fun number => push (.num number) stack

def stepAfter : State Number → Char → Option (State Number)
  | .finished fields, c => if isBlank c then some (.finished fields) else none
  | .running stack mode, c =>
    if isBlank c then some (.running stack mode)
    else if c = ',' then
      match stack with
      | .object _ _ :: _ => some (.running stack .nextKey)
      | .array :: _ => some (.running stack .value)
      | [] => none
    else if c = '}' then closeObject stack
    else if c = ']' then closeArray stack
    else none

def escapedChar : Char → Option Char
  | '"' => some '"'
  | '\\' => some '\\'
  | '/' => some '/'
  | 'b' => some '\x08'
  | 'f' => some '\x0c'
  | 'n' => some '\n'
  | 'r' => some '\r'
  | 't' => some '\t'
  | _ => none

def hexValue (c : Char) : Option Nat :=
  if '0' ≤ c ∧ c ≤ '9' then some (c.toNat - 48)
  else if 'a' ≤ c ∧ c ≤ 'f' then some (c.toNat - 87)
  else if 'A' ≤ c ∧ c ≤ 'F' then some (c.toNat - 55)
  else none

def isHigh (n : Nat) : Bool := 0xD800 ≤ n && n ≤ 0xDBFF

def isLow (n : Nat) : Bool := 0xDC00 ≤ n && n ≤ 0xDFFF

def ofHexDigits (digits : List Nat) : Nat := digits.foldl (fun n digit => 16 * n + digit) 0

/-- The four digits of an escape are read: a character, or half of a pair. -/
def endHex (role : Role) (text : Text) (n : Nat) : Option Nat → Option Mode
  | none =>
    if isHigh n then some (.lowEscape role text n)
    else if isLow n then none
    else some (.string role (text ++ [Char.ofNat n]))
  | some high =>
    if isLow n then some (.string role (text ++ [Char.ofNat (0x10000 + (high - 0xD800) * 0x400 + (n - 0xDC00))]))
    else none

def stepString (stack : List (Frame Number)) (role : Role) (text : Text) (c : Char) : Option (State Number) :=
  if c = '"' then endString stack role text
  else if c = '\\' then some (.running stack (.escape role text))
  else if c.toNat < 32 then none
  else some (.running stack (.string role (text ++ [c])))

def stepEscape (stack : List (Frame Number)) (role : Role) (text : Text) (c : Char) : Option (State Number) :=
  if c = 'u' then some (.running stack (.hex role text [] none))
  else (escapedChar c).map fun own => .running stack (.string role (text ++ [own]))

def stepHex (stack : List (Frame Number)) (role : Role) (text : Text) (digits : List Nat) (high : Option Nat) (c : Char) : Option (State Number) :=
  match hexValue c with
  | none => none
  | some digit =>
    let digits := digits ++ [digit]
    if digits.length < 4 then some (.running stack (.hex role text digits high))
    else (endHex role text (ofHexDigits digits) high).map fun mode => .running stack mode

def step [Spelling Number] : State Number → Char → Option (State Number)
  | .finished fields, c => stepAfter (.finished fields) c
  | .running stack mode, c =>
    match mode with
    | .value => if isBlank c then some (.running stack .value) else startValue stack c
    | .firstItem =>
      if isBlank c then some (.running stack .firstItem)
      else if c = ']' then closeArray stack
      else startValue stack c
    | .firstKey =>
      if isBlank c then some (.running stack .firstKey)
      else if c = '}' then closeObject stack
      else if c = '"' then some (.running stack (.string .key []))
      else none
    | .nextKey =>
      if isBlank c then some (.running stack .nextKey)
      else if c = '"' then some (.running stack (.string .key []))
      else none
    | .colon =>
      if isBlank c then some (.running stack .colon)
      else if c = ':' then some (.running stack .value)
      else none
    | .after => stepAfter (.running stack .after) c
    | .string role text => stepString stack role text c
    | .escape role text => stepEscape stack role text c
    | .hex role text digits high => stepHex stack role text digits high c
    | .lowEscape role text high => if c = '\\' then some (.running stack (.lowHex role text high)) else none
    | .lowHex role text high => if c = 'u' then some (.running stack (.hex role text [] (some high))) else none
    | .word text =>
      if isBare c then some (.running stack (.word (text ++ [c])))
      else (endWord stack text).bind fun state => stepAfter state c

def run [Spelling Number] : State Number → Text → Option (State Number)
  | state, [] => some state
  | state, c :: text => (step state c).bind fun state => run state text

/-- `json.loads`, of a text that is an object: its fields in order. -/
def loads [Spelling Number] (text : Text) : Option (List (Text × Value Number)) :=
  match run (.running [] .value) text with
  | some (.finished fields) => fields
  | _ => none

/-! ## Writing -/

def hexDigit (n : Nat) : Char := if n < 10 then Char.ofNat (48 + n) else Char.ofNat (87 + n)

def hex4 (n : Nat) : Text :=
  [hexDigit (n / 4096 % 16), hexDigit (n / 256 % 16), hexDigit (n / 16 % 16), hexDigit (n % 16)]

def unicodeEscape (n : Nat) : Text := '\\' :: 'u' :: hex4 n

def escapeChar (c : Char) : Text :=
  if c = '"' then ['\\', '"']
  else if c = '\\' then ['\\', '\\']
  else if c = '\n' then ['\\', 'n']
  else if c = '\r' then ['\\', 'r']
  else if c = '\t' then ['\\', 't']
  else if c = '\x0c' then ['\\', 'f']
  else if c = '\x08' then ['\\', 'b']
  else if 32 ≤ c.toNat ∧ c.toNat ≤ 126 then [c]
  else if c.toNat < 0x10000 then unicodeEscape c.toNat
  else unicodeEscape (0xD800 + (c.toNat - 0x10000) / 0x400) ++ unicodeEscape (0xDC00 + (c.toNat - 0x10000) % 0x400)

def dumpsString (text : Text) : Text := '"' :: (text.flatMap escapeChar ++ ['"'])

def dumpsScalar [Spelling Number] : Scalar Number → Text
  | .null => "null".toList
  | .str text => dumpsString text
  | .num number => Spelling.word number

def dumpsField [Spelling Number] (field : Text × Scalar Number) : Text :=
  dumpsString field.1 ++ ':' :: ' ' :: dumpsScalar field.2

def dumpsRest [Spelling Number] (fields : List (Text × Scalar Number)) : Text :=
  fields.flatMap fun field => ',' :: ' ' :: dumpsField field

def dumps [Spelling Number] : List (Text × Scalar Number) → Text
  | [] => ['{', '}']
  | field :: fields => '{' :: (dumpsField field ++ (dumpsRest fields ++ ['}']))

end RalphWorkflow.Lib.Json

/-! ## JSON values

`json.loads` and `raw_decode` of the texts that begin an object or an array, with all that is nested in them: a machine with a stack of what
is open. A string is read as the code units its escapes and characters give. A number stays its literal.
-/

namespace RalphWorkflow.Lib.JsonValue

open Lib.Json (Text isBlank isBare hexValue escapedChar isHigh isLow ofHexDigits)
open Lib.Json (Text unicodeEscape)


inductive Json
  | null
  | bool (value : Bool)
  | num (literal : Text)
  | str (text : Text)
  | arr (items : List Json)
  | obj (fields : List (Text × Json))

/-! ## Values -/

/-- A field of a `dict` keeps its place when it is set again. -/
def setField (key : Text) (value : Json) : List (Text × Json) → List (Text × Json)
  | [] => [(key, value)]
  | field :: fields => if field.1 = key then (key, value) :: fields else field :: setField key value fields

def getField (key : Text) (fields : List (Text × Json)) : Option Json := (fields.find? fun field => field.1 = key).map Prod.snd

def Json.str? : Json → Option Text
  | .str text => some text
  | _ => none

def Json.arr? : Json → Option (List Json)
  | .arr items => some items
  | _ => none

def Json.obj? : Json → Option (List (Text × Json))
  | .obj fields => some fields
  | _ => none

/-! ## Literals -/

def isDigit (c : Char) : Bool := '0' ≤ c && c ≤ '9'

def isExponent : Text → Bool
  | [] => true
  | mark :: text =>
    let digits := match text with
      | '+' :: digits => digits
      | '-' :: digits => digits
      | digits => digits
    (mark == 'e' || mark == 'E') && !digits.isEmpty && digits.all isDigit

def isFraction : Text → Bool
  | '.' :: text => isDigit (text.headD ' ') && isExponent (text.dropWhile isDigit)
  | text => isExponent text

def isNumber (word : Text) : Bool :=
  match (if word.head? = some '-' then word.tail else word) with
  | '0' :: text => isFraction text
  | c :: text => isDigit c && isFraction (text.dropWhile isDigit)
  | [] => false

def ofWord (word : Text) : Option Json :=
  if word = "null".toList then some .null
  else if word = "true".toList then some (.bool true)
  else if word = "false".toList then some (.bool false)
  else if isNumber word || ["NaN".toList, "Infinity".toList, "-Infinity".toList].contains word then some (.num word)
  else none

/-! ## Strings -/

def ofUnit (unit : Nat) : Char := if isHigh unit || isLow unit then '\uFFFD' else Char.ofNat unit

def joinUnits : List Nat → Text
  | [] => []
  | [unit] => [ofUnit unit]
  | high :: low :: units =>
    if isHigh high && isLow low then Char.ofNat (0x10000 + (high - 0xD800) * 0x400 + (low - 0xDC00)) :: joinUnits units
    else ofUnit high :: joinUnits (low :: units)

/-! ## Reading -/

inductive Frame
  | object (fields : List (Text × Json)) (key : Text)
  | array (items : List Json)

inductive Role
  | key
  | value
  deriving DecidableEq

inductive Mode
  | value
  | firstKey
  | nextKey
  | colon
  | after
  | firstItem
  | string (role : Role) (units : List Nat)
  | escape (role : Role) (units : List Nat)
  | hex (role : Role) (units : List Nat) (digits : List Nat)
  | word (text : Text)

inductive State
  | running (stack : List Frame) (mode : Mode)
  | finished (value : Json)

def push (value : Json) : List Frame → State
  | [] => .finished value
  | .object fields key :: stack => .running (.object (setField key value fields) key :: stack) .after
  | .array items :: stack => .running (.array (items ++ [value]) :: stack) .after

def closeObject : List Frame → Option State
  | .object fields _ :: stack => some (push (.obj fields) stack)
  | _ => none

def closeArray : List Frame → Option State
  | .array items :: stack => some (push (.arr items) stack)
  | _ => none

def startValue (stack : List Frame) (c : Char) : Option State :=
  if c = '{' then some (.running (.object [] [] :: stack) .firstKey)
  else if c = '[' then some (.running (.array [] :: stack) .firstItem)
  else if c = '"' then some (.running stack (.string .value []))
  else if isBare c then some (.running stack (.word [c]))
  else none

def endString (stack : List Frame) : Role → List Nat → Option State
  | .value, units => some (push (.str (joinUnits units)) stack)
  | .key, units =>
    match stack with
    | .object fields _ :: stack => some (.running (.object fields (joinUnits units) :: stack) .colon)
    | _ => none

def stepAfter (stack : List Frame) (c : Char) : Option State :=
  if isBlank c then some (.running stack .after)
  else if c = ',' then
    match stack with
    | .object _ _ :: _ => some (.running stack .nextKey)
    | .array _ :: _ => some (.running stack .value)
    | [] => none
  else if c = '}' then closeObject stack
  else if c = ']' then closeArray stack
  else none

def stepString (stack : List Frame) (role : Role) (units : List Nat) (c : Char) : Option State :=
  if c = '"' then endString stack role units
  else if c = '\\' then some (.running stack (.escape role units))
  else if c.toNat < 32 then none
  else some (.running stack (.string role (units ++ [c.toNat])))

def stepEscape (stack : List Frame) (role : Role) (units : List Nat) (c : Char) : Option State :=
  if c = 'u' then some (.running stack (.hex role units []))
  else (escapedChar c).map fun own => .running stack (.string role (units ++ [own.toNat]))

def stepHex (stack : List Frame) (role : Role) (units digits : List Nat) (c : Char) : Option State :=
  (hexValue c).map fun digit =>
    if digits.length < 3 then .running stack (.hex role units (digits ++ [digit]))
    else .running stack (.string role (units ++ [ofHexDigits (digits ++ [digit])]))

/-- The character after a bare word ends it; a document on its own is none that is asked for. -/
def stepWord (stack : List Frame) (text : Text) (c : Char) : Option State :=
  if isBare c then some (.running stack (.word (text ++ [c])))
  else
    match ofWord text, stack with
    | some value, frame :: stack =>
      match push value (frame :: stack) with
      | .running stack _ => stepAfter stack c
      | .finished _ => none
    | _, _ => none

def step (stack : List Frame) (mode : Mode) (c : Char) : Option State :=
  match mode with
  | .value => if isBlank c then some (.running stack .value) else startValue stack c
  | .firstItem =>
    if isBlank c then some (.running stack .firstItem)
    else if c = ']' then closeArray stack
    else startValue stack c
  | .firstKey =>
    if isBlank c then some (.running stack .firstKey)
    else if c = '}' then closeObject stack
    else if c = '"' then some (.running stack (.string .key []))
    else none
  | .nextKey =>
    if isBlank c then some (.running stack .nextKey)
    else if c = '"' then some (.running stack (.string .key []))
    else none
  | .colon =>
    if isBlank c then some (.running stack .colon)
    else if c = ':' then some (.running stack .value)
    else none
  | .after => stepAfter stack c
  | .string role units => stepString stack role units c
  | .escape role units => stepEscape stack role units c
  | .hex role units digits => stepHex stack role units digits c
  | .word text => stepWord stack text c

def decodeFrom : List Frame → Mode → Text → Option (Json × Text)
  | _, _, [] => none
  | stack, mode, c :: text =>
    match step stack mode c with
    | none => none
    | some (.finished value) => some (value, text)
    | some (.running stack mode) => decodeFrom stack mode text

def rawDecode : Text → Option (Json × Text)
  | [] => none
  | c :: text =>
    if c = '{' then decodeFrom [.object [] []] .firstKey text
    else if c = '[' then decodeFrom [.array []] .firstItem text
    else none

def loadsObject (text : Text) : Option (List (Text × Json)) :=
  match rawDecode (text.dropWhile isBlank) with
  | some (.obj fields, rest) => if rest.all isBlank then some fields else none
  | _ => none

/-! ## Writing JSON values

`json.dumps` with `ensure_ascii=False`. How a floating-point literal is written again is given by `floatRepr`.
-/

/-- A character in a string: only quotes, backslashes and control characters are escaped. -/
def escapeRaw (c : Char) : Text :=
  if c = '"' then "\\\"".toList
  else if c = '\\' then "\\\\".toList
  else if c = '\n' then "\\n".toList
  else if c = '\r' then "\\r".toList
  else if c = '\t' then "\\t".toList
  else if c = '\x08' then "\\b".toList
  else if c = '\x0c' then "\\f".toList
  else if c.toNat < 32 then unicodeEscape c.toNat
  else [c]

def writeString (text : Text) : Text := '"' :: (text.flatMap escapeRaw ++ ['"'])

def writeNumber (floatRepr : Text → Text) (literal : Text) : Text :=
  if ["NaN".toList, "Infinity".toList, "-Infinity".toList].contains literal then literal
  else if literal.all fun c => isDigit c || c == '-' then if literal = "-0".toList then "0".toList else literal
  else floatRepr literal

mutual

def write (floatRepr : Text → Text) : Json → Text
  | .null => "null".toList
  | .bool value => if value then "true".toList else "false".toList
  | .num literal => writeNumber floatRepr literal
  | .str text => writeString text
  | .arr items => '[' :: ((writeItems floatRepr items).drop 2 ++ [']'])
  | .obj fields => '{' :: ((writeFields floatRepr fields).drop 2 ++ ['}'])

def writeItems (floatRepr : Text → Text) : List Json → Text
  | [] => []
  | item :: items => ',' :: ' ' :: (write floatRepr item ++ writeItems floatRepr items)

def writeFields (floatRepr : Text → Text) : List (Text × Json) → Text
  | [] => []
  | (key, value) :: fields => ',' :: ' ' :: (writeString key ++ ':' :: ' ' :: (write floatRepr value ++ writeFields floatRepr fields))

end

end RalphWorkflow.Lib.JsonValue
