import RalphWorkflow.Lib.Dict
import RalphWorkflow.Lib.Text
import Mathlib.Data.String.Basic

/-! `ralph/mcp/artifacts/history.py`: the history directory of one artifact type, the names of its archives, what a snapshot archives,
the pruning and the index. File operations do not fail. -/
namespace RalphWorkflow.ArtifactHistory

open Lib Lib.Text

/-! ## Names -/

def isStamp (text : List Char) : Bool :=
  text.length == 15 && (text.take 8).all Char.isDigit && text[8]? == some 'T' && (text.drop 9).all Char.isDigit

def matchTimestamp (name : String) : Option String :=
  if isStamp (name.toList.take 15) && name.toList[15]? == some '_' then some (takeText 15 name) else none

def safeTimestamp (raw : String) : String :=
  takeText 15 (String.ofList (raw.toList.filter fun c => !(['-', ':', '+', '.'].contains c)))

/-- What `now_iso` returns: an ISO time, whose timestamp has the form the archives are recognised by. -/
structure Reading where
  raw : String
  stamped : isStamp (safeTimestamp raw).toList = true

/-- The second of a reading, as text; texts of seconds are ordered as the seconds are. -/
def Reading.stamp (now : Reading) : String := safeTimestamp now.raw

structure ArtifactType where
  name : String
  letter : ∃ c rest, name.toList = c :: rest ∧ '9' < c

/-- The first candidate of `_unique_archive_path`. -/
def plainName (base : String) (artifactType : ArtifactType) : String := base ++ "_" ++ artifactType.name ++ ".md"

def numberedName (base : String) (counter : Nat) (artifactType : ArtifactType) : String :=
  base ++ "_" ++ toString counter ++ "_" ++ artifactType.name ++ ".md"

/-- The loop of `_unique_archive_path`; `fuel` candidates are looked at. -/
def freeCounter (taken : Nat → Bool) : Nat → Nat → Nat
  | 0, counter => counter
  | fuel + 1, counter => if taken counter then freeCounter taken fuel (counter + 1) else counter

/-! ## The history directory -/

/-- A section of `index.md`, the text around it left out. -/
structure IndexEntry where
  timestamp : String
  name : String
  deriving DecidableEq

structure History where
  archives : Dict String String := ∅
  index : Option (List IndexEntry) := none
  deriving DecidableEq

def uniqueArchiveName (history : History) (artifactType : ArtifactType) (now : Reading) : String :=
  let base := safeTimestamp now.raw
  if history.archives.contains (plainName base artifactType) then
    let taken := fun counter => history.archives.contains (numberedName base counter artifactType)
    numberedName base (freeCounter taken history.archives.entries.length 1) artifactType
  else plainName base artifactType

def sortedArchives (history : History) : List String :=
  sortedText (history.archives.keys.filter fun name => (matchTimestamp name).isSome)

def pruneArtifactHistory (limit : Nat) (history : History) : History :=
  let archives := sortedArchives history
  let removed := if limit = 0 then archives else archives.take (archives.length - limit)
  { history with archives := removed.foldl Dict.erase history.archives }

def rebuildHistoryIndex (history : History) : History :=
  match sortedArchives history with
  | [] => { history with index := none }
  | names => { history with index := some (names.map fun name => ⟨(matchTimestamp name).getD name, name⟩) }

def archive (artifactType : ArtifactType) (history : History) (now : Reading) (text : String) : History × String :=
  let name := uniqueArchiveName history artifactType now
  ({ history with archives := history.archives.set name text }, name)

/-- The canonical artifact and the handoff, if they are there, and the readings of the clock. -/
structure Snapshot where
  canonical : Option String
  handoff : Option String
  now : Reading
  handoffNow : Reading

/-- Also `archive_artifact_before_overwrite`, which has the same body. -/
def snapshotCurrentArtifact (limit : Nat) (artifactType : ArtifactType) (history : History) (found : Snapshot) : History × List String :=
  match found.canonical with
  | none => (history, [])
  | some text =>
    let (history, name) := archive artifactType history found.now text
    let (history, created) := match found.handoff with
      | none => (history, [name])
      | some handoff =>
        let (history, handoffName) := archive artifactType history found.handoffNow handoff
        (history, [name, handoffName])
    (rebuildHistoryIndex (pruneArtifactHistory limit history), created)

def historyRetentionLimit : Nat := 64

end RalphWorkflow.ArtifactHistory
