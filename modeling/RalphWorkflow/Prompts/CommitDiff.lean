import RalphWorkflow.Lib.Text

/-! `ralph/prompts/_commit_diff.py`, with `is_recognized_secret_path` of `ralph/git/commit_cleanup.py`. The workspace is the root of its
repository. Each query of git can fail, and `git diff` prints any text that depends on the selected changes
alone. -/
namespace RalphWorkflow.Prompts
open Lib

/-! ## Paths -/

inductive PathUnit
  | char (c : Char)
  | broken (bytes : List UInt8)
  deriving DecidableEq

abbrev RawPath := List PathUnit

def PathUnit.decode : PathUnit → Char
  | .char c => c
  | .broken _ => Char.ofNat 0xFFFD

def decodePath (path : RawPath) : List Char := path.map PathUnit.decode

def encodePath (text : List Char) : RawPath := text.map .char

/-! ## Recognized secrets -/

/-- `fnmatchcase(name, pattern)`, for the patterns below: a star, and characters that stand for themselves. -/
def fnmatchcase : List Char → List Char → Bool
  | [], name => name.isEmpty
  | p :: pattern, name =>
    if p = '*' then name.tails.any (fnmatchcase pattern)
    else
      match name with
      | [] => false
      | c :: rest => p == c && fnmatchcase pattern rest

def trackedSecretBasenamePatterns : List String :=
  [".env", ".env.local", ".env.*.local", "secrets.yml", "credentials.json"]

def isRecognizedSecretName (name : List Char) : Bool :=
  trackedSecretBasenamePatterns.any fun pattern => fnmatchcase pattern.toList name

def pathName (path : List Char) : List Char :=
  ((path.splitOn '/').filter fun part => part ≠ [] ∧ part ≠ ['.']).getLast?.getD []

def isRecognizedSecretPath (path : List Char) : Bool :=
  isRecognizedSecretName (pathName (path.map fun c => if c = '\\' then '/' else c))

/-! ## The repository -/

abbrev Content := List UInt8

/-- The three places of a repository, and what git lists of its untracked files. -/
structure Repo where
  /-- The paths of the three places, as git orders them. -/
  paths : List RawPath
  head : RawPath → Option Content
  index : RawPath → Option Content
  work : RawPath → Option Content
  /-- The paths of the `??` entries of `git status --porcelain=v1 -z`. -/
  untracked : List (List Char)
  /-- The output of `git ls-files --others --exclude-standard`. -/
  others : String
  named : ∀ path ∈ paths, path ≠ [] ∧ PathUnit.char '\x00' ∉ path
  listed : ∀ path ∈ untracked, '\x00' ∉ path

structure Failures where
  status : Bool := false
  revParse : Bool := false
  lsFiles : Bool := false
  diff : Bool := false
  secretDiff : Bool := false
  others : Bool := false
  deriving DecidableEq

/-- A path that a diff prints, with its contents on both sides. -/
structure Change where
  path : RawPath
  old : Option Content
  new : Option Content
  deriving DecidableEq

/-- What `git diff` prints of the changes that its pathspec selects. -/
structure DiffPrinter where
  print : List Change → String
  nothing : print [] = ""

namespace Repo

variable (repo : Repo)

def tracked (path : RawPath) : Bool := (repo.head path).isSome || (repo.index path).isSome

/-- The two letters of a path in `git status`. A rename joins two entries. -/
def statusLetter (before after : Option Content) : Char :=
  match before, after with
  | none, some _ => 'A'
  | some _, none => 'D'
  | before, after => if before = after then ' ' else 'M'

def statusLetters (path : RawPath) : List Char :=
  [statusLetter (repo.head path) (repo.index path), statusLetter (repo.index path) (repo.work path)]

def dirty (path : RawPath) : Bool := repo.tracked path && repo.statusLetters path != [' ', ' ']

def untrackedMark : List Char := ['?', '?', ' ']

/-- The entries of `git status --porcelain=v1 -z`. -/
def statusEntries : List (List Char) :=
  ((repo.paths.filter repo.dirty).map fun path => repo.statusLetters path ++ ' ' :: decodePath path) ++
    repo.untracked.map (untrackedMark ++ ·)

/-- The sides of `git diff HEAD`, or of `git diff --cached`. -/
def sides (againstHead : Bool) (path : RawPath) : Change :=
  { path, old := repo.head path
    new := if againstHead then (repo.index path).bind fun _ => repo.work path else repo.index path }

def changes (againstHead : Bool) : List Change :=
  (repo.paths.map (repo.sides againstHead)).filter fun change => change.old ≠ change.new

end Repo

/-! ## Queries -/

def nulTerminated (entries : List (List Char)) : String := String.ofList (entries.flatMap (· ++ ['\x00']))

/-- `[entry for entry in text.split("\0") if entry]`. -/
def splitNul (text : String) : List (List Char) := (text.toList.splitOn '\x00').filter (· ≠ [])

/-- The output is decoded with replacements. -/
def gitOutputOrEmpty (fails : Bool) (output : String) : String := if fails then "" else Text.strip output

def literalSelects (spec : List Char) (path : RawPath) : Bool :=
  encodePath spec == path || (encodePath spec ++ [PathUnit.char '/']).isPrefixOf path

/-! ## The text -/

def maxUntrackedFilesInDiff : Nat := 500

def untrackedHeader : String := "## Untracked files (not yet tracked by git):"

def untrackedFooter (remaining : Nat) : String :=
  "... and " ++ toString remaining ++ " more untracked files not shown (see git status)"

def noDiffSentinel : String := "(no diff available)"

def redactedSecretChanges : String :=
  "## Recognized secret changes\n[redacted: secret files will be removed from version control before commit]"

def formatUntrackedSection (untrackedPaths : List String) : String :=
  if untrackedPaths = [] then ""
  else
    let total := untrackedPaths.length
    if total ≤ maxUntrackedFilesInDiff then untrackedHeader ++ "\n" ++ "\n".intercalate untrackedPaths
    else
      untrackedHeader ++ "\n" ++ "\n".intercalate (untrackedPaths.take maxUntrackedFilesInDiff) ++ "\n" ++
        untrackedFooter (total - maxUntrackedFilesInDiff)

def combineTrackedAndUntracked (tracked untrackedRaw : String) : String :=
  let untrackedSection := formatUntrackedSection ((Text.splitLines untrackedRaw).filter fun line => !Text.isBlank line)
  if tracked = "" then untrackedSection
  else if untrackedSection = "" then tracked
  else tracked ++ "\n\n" ++ untrackedSection

def untrackedOnlyPendingWork (fails : Failures) (repo : Repo) : Option (String × Bool) :=
  let status := gitOutputOrEmpty fails.status (nulTerminated repo.statusEntries)
  if status = "" then none
  else
    let entries := splitNul status
    if entries.any fun entry => !Repo.untrackedMark.isPrefixOf entry then none
    else
      let untrackedPaths := entries.map (·.drop 3)
      let safeUntracked := untrackedPaths.filter fun path => !isRecognizedSecretPath path
      some (formatUntrackedSection (safeUntracked.map String.ofList), untrackedPaths.any isRecognizedSecretPath)

def trackedSecretPaths (fails : Failures) (repo : Repo) : List (List Char) :=
  let trackedPathsRaw :=
    gitOutputOrEmpty fails.lsFiles (nulTerminated ((repo.paths.filter fun path => (repo.index path).isSome).map decodePath))
  (splitNul trackedPathsRaw).filter isRecognizedSecretPath

def secretFilteredPendingDiff (git : DiffPrinter) (fails : Failures) (repo : Repo) : String × Bool :=
  match untrackedOnlyPendingWork fails repo with
  | some untrackedOnly => untrackedOnly
  | none =>
    let changes := repo.changes (!fails.revParse)
    let secretPaths := trackedSecretPaths fails repo
    let tracked := gitOutputOrEmpty fails.diff
      (git.print (changes.filter fun change => !secretPaths.any fun spec => literalSelects spec change.path))
    -- The quiet diff of the secrets exits with 1 when it sees a change.
    let trackedSecretChangesPresent :=
      !fails.secretDiff && changes.any fun change => secretPaths.any fun spec => literalSelects spec change.path
    let untrackedRaw := Text.splitLines (gitOutputOrEmpty fails.others repo.others)
    let safeUntracked :=
      "\n".intercalate (untrackedRaw.filter fun path => path ≠ "" && !isRecognizedSecretPath path.toList)
    (combineTrackedAndUntracked tracked safeUntracked,
      trackedSecretChangesPresent || untrackedRaw.any fun path => path ≠ "" && isRecognizedSecretPath path.toList)

def withSecretSignal (diff : String) (secretWorkPresent : Bool) : String :=
  if !secretWorkPresent then diff
  else if diff = "" then redactedSecretChanges
  else diff ++ "\n\n" ++ redactedSecretChanges

def commitGenerationDiff (git : DiffPrinter) (fails : Failures) (repo : Repo) : String :=
  let (diff, secretWorkPresent) := secretFilteredPendingDiff git fails repo
  withSecretSignal diff secretWorkPresent

def commitCleanupDiff (git : DiffPrinter) (fails : Failures) (repo : Repo) : String :=
  let (diff, secretWorkPresent) := secretFilteredPendingDiff git fails repo
  if withSecretSignal diff secretWorkPresent = "" then noDiffSentinel else withSecretSignal diff secretWorkPresent

end RalphWorkflow.Prompts
