import RalphWorkflow.Lib.Json
import RalphWorkflow.Lib.Run
import RalphWorkflow.Lib.Text

/-! `mcp/server/_wire_ledger.py`: one row for each `tools/call` frame, sealed with an HMAC over its fields and the HMAC
of the row before it. A row is a JSON object; of its values the ledger tells strings, numbers and `null` apart. -/
namespace RalphWorkflow.Mcp.WireLedger
open Lib.Json (Text Value)

/-- A text with neither a line feed nor an equals sign, as hex digests and the `repr` of numbers are. -/
structure Token where
  text : Text
  plain : ∀ c ∈ text, c ≠ '\n' ∧ c ≠ '='
  deriving DecidableEq

/-- Python's numbers (`int`, with `bool`, and `float`), told apart by their `repr`. -/
class PyNumber (Number : Type) where
  repr : Number → Token
  repr_injective : Function.Injective repr

/-- The HMAC under the broker secret: injective, and never the text an empty ledger starts from. -/
structure Mac where
  hexdigest : Text → Token
  injective : Function.Injective hexdigest
  ne_genesis : ∀ msg, (hexdigest msg).text ≠ List.replicate 64 '0'

def genesisHmac : Token := ⟨List.replicate 64 '0', by simp⟩

/-- The fields a row may leave out, in the order `_record_hmac` looks at them. -/
inductive OptionalField where
  | deliveryMode
  | provider
  | modelId
  | agentId
  | capabilityProfileDigest
  deriving DecidableEq

def OptionalField.name : OptionalField → Text
  | .deliveryMode => "delivery_mode".toList
  | .provider => "provider".toList
  | .modelId => "model_id".toList
  | .agentId => "agent_id".toList
  | .capabilityProfileDigest => "capability_profile_digest".toList

def OptionalField.all : List OptionalField := [.deliveryMode, .provider, .modelId, .agentId, .capabilityProfileDigest]

inductive Field where
  | method
  | toolName
  | paramsDigest
  | runId
  | timestamp
  | priorHmac
  | hmac
  | optional (field : OptionalField)
  deriving DecidableEq

def Field.name : Field → Text
  | .method => "method".toList
  | .toolName => "tool_name".toList
  | .paramsDigest => "params_digest".toList
  | .runId => "run_id".toList
  | .timestamp => "timestamp".toList
  | .priorHmac => "prior_hmac".toList
  | .hmac => "hmac".toList
  | .optional field => field.name

section

variable (Number : Type)

/-- A parsed row, read with `row.get`: an absent field is `null`. -/
abbrev Row := Field → Value Number

structure Signed where
  method : Text
  toolName : Option Text
  paramsDigest : Text
  runId : Text
  timestamp : Number
  priorHmac : Text
  optional : OptionalField → Option Text

structure WireLedgerRecord extends Signed Number where
  recordHmac : Text

/-- The arguments of `append_wire_record`, with the SHA-256 of the parameters and the clock. -/
structure Frame where
  method : Text
  toolName : Option Text
  paramsDigest : Token
  runId : Text
  timestamp : Number
  optional : OptionalField → Option Text

end

variable {Number : Type}

/-- The lines `_record_hmac` adds for the optional fields that are set. -/
def optionText (optional : OptionalField → Option Text) (fields : List OptionalField) : Text :=
  fields.flatMap fun field =>
    match optional field with
    | none => []
    | some value => '\n' :: (field.name ++ '=' :: value)

def Signed.message [PyNumber Number] (s : Signed Number) : Text :=
  s.method ++ '\n' :: (s.toolName.getD [] ++ '\n' :: (s.paramsDigest ++ '\n' :: (s.runId ++ '\n' ::
    ((PyNumber.repr s.timestamp).text ++ '\n' :: (s.priorHmac ++ optionText s.optional OptionalField.all)))))

def Mac.recordHmac [PyNumber Number] (mac : Mac) (s : Signed Number) : Text := (mac.hexdigest s.message).text

/-- The object `to_json_line` writes down, read back. -/
def WireLedgerRecord.row (record : WireLedgerRecord Number) : Row Number
  | .method => .str record.method
  | .toolName => .ofOption record.toolName
  | .paramsDigest => .str record.paramsDigest
  | .runId => .str record.runId
  | .timestamp => .num record.timestamp
  | .priorHmac => .str record.priorHmac
  | .hmac => .str record.recordHmac
  | .optional field => .ofOption (record.optional field)

/-- The record `verify_chain` sees in a row, when the types are right. -/
def Row.record? (row : Row Number) : Option (WireLedgerRecord Number) := do
  let priorHmac ← (row .priorHmac).str?
  let method ← (row .method).str?
  let paramsDigest ← (row .paramsDigest).str?
  let runId ← (row .runId).str?
  let timestamp ← (row .timestamp).num?
  let stored ← (row .hmac).str?
  let toolName ← (row .toolName).strOrNull?
  some { method, toolName, paramsDigest, runId, timestamp, priorHmac, optional := fun field => (row (.optional field)).str?, recordHmac := stored }

def verifyRows [PyNumber Number] (mac : Mac) : Text → List (Row Number) → Bool
  | _, [] => true
  | prior, row :: rows =>
    match Row.record? row with
    | none => false
    | some record =>
      decide (record.priorHmac = prior) && decide (record.recordHmac = mac.recordHmac record.toSigned) &&
        verifyRows mac record.recordHmac rows

def verifyChain [PyNumber Number] (mac : Mac) (rows : List (Row Number)) : Bool := verifyRows mac genesisHmac.text rows

def readLastHmac (rows : List (Row Number)) : Text :=
  match rows.getLast? with
  | none => genesisHmac.text
  | some row => (row .hmac).str?.getD genesisHmac.text

def newRecord [PyNumber Number] (mac : Mac) (rows : List (Row Number)) (frame : Frame Number) : WireLedgerRecord Number :=
  let signed : Signed Number :=
    { method := frame.method, toolName := frame.toolName, paramsDigest := frame.paramsDigest.text, runId := frame.runId,
      timestamp := frame.timestamp, priorHmac := readLastHmac rows, optional := frame.optional }
  { signed with recordHmac := mac.recordHmac signed }

def appendFrom [PyNumber Number] (mac : Mac) (records : List (WireLedgerRecord Number)) : List (Frame Number) → List (WireLedgerRecord Number)
  | [] => records
  | frame :: frames => appendFrom mac (records ++ [newRecord mac (records.map (·.row)) frame]) frames

def appended [PyNumber Number] (mac : Mac) (frames : List (Frame Number)) : List (WireLedgerRecord Number) :=
  appendFrom mac [] frames

end RalphWorkflow.Mcp.WireLedger

/-! ## The ledger file and its appenders

`to_json_line`, `_iter_ledger_rows` and `wire_evidence_for` of `mcp/server/_wire_ledger.py` over the text of the file, and any number of appenders.
A write that fails, or whose appender is killed, leaves what it has put down. -/

namespace RalphWorkflow.Mcp.WireLedger

open Lib.Json (Text Value Scalar Spelling dumps loads)


variable {Number : Type}

/-! ## Rows as lines -/

/-- The fields in the order of their names, as `sort_keys=True` writes them. -/
def sortedFields : List Field :=
  [.optional .agentId, .optional .capabilityProfileDigest, .optional .deliveryMode, .hmac, .method, .optional .modelId,
    .paramsDigest, .priorHmac, .optional .provider, .runId, .timestamp, .toolName]

/-- What the payload of `to_json_line` has for a field: an optional field only when it is set. -/
def WireLedgerRecord.entry (record : WireLedgerRecord Number) : Field → Option (Scalar Number)
  | .method => some (.str record.method)
  | .toolName => some (record.toolName.elim .null .str)
  | .paramsDigest => some (.str record.paramsDigest)
  | .runId => some (.str record.runId)
  | .timestamp => some (.num record.timestamp)
  | .priorHmac => some (.str record.priorHmac)
  | .hmac => some (.str record.recordHmac)
  | .optional field => (record.optional field).map .str

def WireLedgerRecord.payload (record : WireLedgerRecord Number) : List (Text × Scalar Number) :=
  sortedFields.filterMap fun field => (record.entry field).map (field.name, ·)

def WireLedgerRecord.toJsonLine [Spelling Number] (record : WireLedgerRecord Number) : Text := dumps record.payload

/-- A parsed object read with `row.get`; of two fields of one name the later counts. -/
def rowOf (fields : List (Text × Value Number)) : Row Number :=
  fun field => (fields.reverse.lookup field.name).getD .null

def strip (line : Text) : Text :=
  ((line.dropWhile Lib.Text.isSpace).reverse.dropWhile Lib.Text.isSpace).reverse

def lineRow [Spelling Number] (line : Text) : Option (Row Number) :=
  if strip line = [] then none else (loads (strip line)).map rowOf

/-- A file that is not there reads as an empty one. -/
def iterLedgerRows [Spelling Number] (raw : Text) : List (Row Number) :=
  (Lib.Text.splitLinesFrom [] raw).filterMap lineRow

/-! ## Looking evidence up -/

structure Query where
  toolName : Option Text
  paramsDigest : Option Text
  agentId : Option Text

/-- The test of a row in `wire_evidence_for`; `lower` is `str.lower`. -/
def Query.matchesRow [DecidableEq Number] (lower : Text → Text) (query : Query) (runId : Text) (row : Row Number) : Bool :=
  decide (row .runId = .str runId) && decide (row .method = .str "tools/call".toList) &&
    query.paramsDigest.all (fun digest => decide (row .paramsDigest = .str digest)) &&
    query.agentId.all (fun agent => decide (row (.optional .agentId) = .str agent)) &&
    query.toolName.all fun tool =>
      match row .toolName with
      | .str name => Lib.Text.containsChars (lower tool) (lower name)
      | _ => false

variable (Number) in
def wireEvidenceFor [PyNumber Number] [Spelling Number] [DecidableEq Number] (mac : Mac) (lower : Text → Text)
    (raw runId : Text) (query : Query) : Bool :=
  let rows : List (Row Number) := iterLedgerRows raw
  verifyChain mac rows && rows.any (query.matchesRow lower runId)

/-! ## Appenders -/

variable (Number) in
/-- Where an appender stands in `append_wire_record`. -/
inductive Phase where
  | idle
  | locked (frame : Frame Number)
  | writing (record : WireLedgerRecord Number) (rest : Text)

/-- The file, the lock on its sidecar, the appenders, and the records returned. -/
structure Ledger (Appender Number : Type) where
  file : Text
  lock : Option Appender
  phase : Appender → Phase Number
  returned : List (WireLedgerRecord Number)

/-- A call asks for the lock, and returns `None` when it is held or `flock` fails. -/
inductive Event (Appender Number : Type) where
  | call (appender : Appender) (frame : Frame Number) (flockFails : Bool)
  | read (appender : Appender)
  | write (appender : Appender) (count : Nat)
  | finish (appender : Appender)
  | die (appender : Appender)

section

variable {Appender : Type} [DecidableEq Appender]

def Ledger.setPhase (s : Ledger Appender Number) (appender : Appender) (phase : Phase Number) : Ledger Appender Number :=
  { s with phase := fun other => if other = appender then phase else s.phase other }

def Ledger.step [PyNumber Number] [Spelling Number] (mac : Mac) (s : Ledger Appender Number) :
    Event Appender Number → Option (Ledger Appender Number)
  | .call appender frame flockFails =>
    match s.phase appender with
    | .idle =>
      if flockFails then some s
      else
        match s.lock with
        | some _ => some s
        | none => some ({ s with lock := some appender }.setPhase appender (.locked frame))
    | _ => none
  | .read appender =>
    match s.phase appender with
    | .locked frame =>
      let record := newRecord mac (iterLedgerRows s.file) frame
      some (s.setPhase appender (.writing record (record.toJsonLine ++ ['\n'])))
    | _ => none
  | .write appender count =>
    match s.phase appender with
    | .writing record rest =>
      some ({ s with file := s.file ++ rest.take count }.setPhase appender (.writing record (rest.drop count)))
    | _ => none
  | .finish appender =>
    match s.phase appender with
    | .writing record [] =>
      some ({ s with lock := none, returned := s.returned ++ [record] }.setPhase appender .idle)
    | _ => none
  | .die appender =>
    match s.phase appender with
    | .idle => none
    | _ => some ({ s with lock := none }.setPhase appender .idle)

def Ledger.empty : Ledger Appender Number := { file := [], lock := none, phase := fun _ => .idle, returned := [] }

end

end RalphWorkflow.Mcp.WireLedger
