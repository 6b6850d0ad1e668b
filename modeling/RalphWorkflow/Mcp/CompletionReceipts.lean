import RalphWorkflow.Workspace.Fs

/-! `completion_receipts.py`: a receipt is a row of `.agent/state.db`, or a file under `.agent/receipts` where the database could not take it. Every
access may fail. `receiptHmac` is the HMAC of a secret over a run and an artifact type. -/
namespace RalphWorkflow.CompletionReceipts
open Lib Lib.FileTree Workspace

/-! ## The two stores -/

inductive Document where
  | payload (runId artifactType : String) (hmac : Option String)
  /-- no JSON object: what a write that broke off leaves -/
  | spoiled
  deriving DecidableEq

structure Stores where
  /-- the table `receipts`, its column `hmac` -/
  rows : Dict (String × String) (Option String) := ∅
  /-- by the path below the workspace as it is spelled -/
  files : Dict Place Document := ∅

def receiptDir (runId : String) : Place := joined [] (".agent/receipts/" ++ runId)

def receiptPath (runId artifactType : String) : Place := joined (receiptDir runId) (artifactType ++ ".json")

/-- `backend.glob(receipt_dir, "*.json")`. -/
def Stores.listing (stores : Stores) (runId : String) : List Place :=
  stores.files.keys.filter fun path =>
    path.dropLast == receiptDir runId && path.getLast?.any fun name => ".json".toList.isSuffixOf name.toList

def unlinkAll (unlinks : Place → Bool) : List Place → Dict Place Document → Dict Place Document × Bool
  | [], files => (files, true)
  | path :: rest, files => if unlinks path then unlinkAll unlinks rest (files.erase path) else (files, false)

/-! ## Calls -/

structure WriteFaults where
  opens : Bool := true
  upserts : Bool := true
  reads : Bool := true
  makes : Bool := true
  writes : Bool := true
  /-- a file write that fails leaves a part of the text -/
  spoils : Bool := false

structure DeleteFaults where
  opens : Bool := true
  deletes : Bool := true
  unlinks : Bool := true

structure ClearFaults where
  opens : Bool := true
  clears : Bool := true
  lists : Bool := true
  unlinks : Place → Bool := fun _ => true

abbrev Outcome := Stores × Bool

section Calls

variable (receiptHmac : String → String → String → String) (stores : Stores) (runId artifactType : String)

def writeLegacyReceiptFallback (hmacHex : Option String) (faults : WriteFaults) : Outcome :=
  let path := receiptPath runId artifactType
  let document := Document.payload runId artifactType hmacHex
  if faults.reads ∧ stores.files.get? path = some document then (stores, true)
  else if !faults.makes then (stores, false)
  else if faults.writes then ({ stores with files := stores.files.set path document }, true)
  else if faults.spoils then ({ stores with files := stores.files.set path .spoiled }, false)
  else (stores, false)

def writeArtifactReceipt (receiptSecret : Option String) (faults : WriteFaults) : Outcome :=
  let hmacHex := receiptSecret.map fun secret => receiptHmac secret runId artifactType
  if faults.opens && faults.upserts then ({ stores with rows := stores.rows.set (runId, artifactType) hmacHex }, true)
  else writeLegacyReceiptFallback stores runId artifactType hmacHex faults

def deleteArtifactReceipt (faults : DeleteFaults) : Outcome :=
  if faults.opens && !faults.deletes then (stores, false)
  else
    let rows := if faults.opens then stores.rows.erase (runId, artifactType) else stores.rows
    if faults.unlinks then ({ rows, files := stores.files.erase (receiptPath runId artifactType) }, true)
    else ({ stores with rows }, false)

def clearRows (rows : Dict (String × String) (Option String)) (runId : String) : Dict (String × String) (Option String) :=
  (rows.keys.filter fun key => key.1 == runId).foldl (fun rows key => rows.erase key) rows

def clearRunReceipts (faults : ClearFaults) : Outcome :=
  let rows := if faults.opens && faults.clears then clearRows stores.rows runId else stores.rows
  if faults.lists then
    let left := unlinkAll faults.unlinks (stores.listing runId) stores.files
    ({ rows, files := left.1 }, left.2)
  else ({ stores with rows }, false)

def legacyFileReceiptPresent (receiptSecret : Option String) (reads : Bool) : Bool :=
  match stores.files.get? (receiptPath runId artifactType), receiptSecret with
  | none, _ => false
  | some _, none => true
  | some (.payload _ _ (some stored)), some secret => reads && stored == receiptHmac secret runId artifactType
  | some _, some _ => false

def artifactReceiptPresent (receiptSecret : Option String) (opens gets reads : Bool := true) : Bool :=
  if opens && gets then
    match stores.rows.get? (runId, artifactType), receiptSecret with
    | some _, none => true
    | some none, some _ => false
    | some (some stored), some secret => stored == receiptHmac secret runId artifactType
    | none, _ => legacyFileReceiptPresent receiptHmac stores runId artifactType receiptSecret reads
  else legacyFileReceiptPresent receiptHmac stores runId artifactType receiptSecret reads

end Calls

/-! ## Runs -/

inductive Call where
  | write (runId artifactType : String) (receiptSecret : Option String) (faults : WriteFaults)
  | delete (runId artifactType : String) (faults : DeleteFaults)
  | clear (runId : String) (faults : ClearFaults)

def Call.Concerns (runId artifactType : String) : Call → Prop
  | .write run type _ _ => run = runId ∧ type = artifactType
  | .delete run type _ => run = runId ∧ type = artifactType
  | .clear run _ => run = runId

def Call.apply (receiptHmac : String → String → String → String) (stores : Stores) : Call → Outcome
  | .write runId artifactType secret faults => writeArtifactReceipt receiptHmac stores runId artifactType secret faults
  | .delete runId artifactType faults => deleteArtifactReceipt stores runId artifactType faults
  | .clear runId faults => clearRunReceipts stores runId faults

def run (receiptHmac : String → String → String → String) (stores : Stores) (calls : List Call) : Stores :=
  calls.foldl (fun stores call => (call.apply receiptHmac stores).1) stores

end RalphWorkflow.CompletionReceipts
