import RalphWorkflow.Mcp.Session

/-! Between a tool call and what it would do: the capability that a write demands (`tools/workspace/_utils.py`, `_write_handlers.py`), the arguments
that `git_diff` refuses (`tools/git_read.py`) and the check of `exec` (`tools/_exec_vcs_scanner.py`). -/
namespace RalphWorkflow.Mcp
open Lib.Text Lib.FileTree Workspace Pipeline

/-! ## The capability of a write -/

def normalizeRelativePath (path : String) : String :=
  let normalized := normalizedPath path
  if normalized = "" ∨ normalized = "." then "" else normalized

section Write

variable (tree : Tree) (depth : Nat) (workspace : FsWorkspace)

/-- `FsWorkspace.exists`; `none` where the path resolves outside the roots. -/
def pathExists (path : String) : Option Bool := (workspace.abs path).map fun lexical => (follow tree depth lexical).isSome

def candidateChars (normalized : String) : List Char := normalized.toList.map fun c => if c = '\\' then '/' else c

def isPathGitTracked (path : String) : Bool :=
  let normalized := normalizeRelativePath path
  if normalized = "" then false
  else
    match pathExists tree depth workspace normalized with
    | none => false
    | some false => false
    | some true =>
      let candidate := candidateChars normalized
      !containsChars ".agent/".toList candidate && !containsChars "/target/".toList candidate &&
        !containsChars "node_modules/".toList candidate

def writeCapability (path : String) : McpCapability :=
  let normalized := normalizeRelativePath path
  if isPathGitTracked tree depth workspace normalized then .workspaceWriteTracked else .workspaceWriteEphemeral

end Write

/-! ## Arguments of `git_diff` -/

namespace GitGuards

/-- `_GIT_DIFF_EXTERNAL_HELPER_FLAGS`, and the same list for `git_diff`. -/
def externalHelperFlags : List String := ["--ext-diff", "--textconv", "--convience-diff"]

/-- What `_validate_diff_args` raises; every message ends in the `repr` of the argument. -/
inductive DiffRefusal where
  /-- `read-only git_diff rejects an embedded NUL in:` -/
  | embeddedNul (arg : String)
  /-- `read-only git_diff rejects output-writing flag:` -/
  | outputWriting (arg : String)
  /-- `read-only git_diff rejects external-helper flag:` -/
  | externalHelper (arg : String)
  deriving DecidableEq

def validateDiffArgs : List String → Except DiffRefusal Unit
  | [] => .ok ()
  | arg :: args =>
    if arg.toList.contains '\x00' then .error (.embeddedNul arg)
    else if containsText "--output=" arg || arg == "--output" || "--output ".toList.isPrefixOf arg.toList || arg == "-o" ||
        "-o=".toList.isPrefixOf arg.toList || "-o ".toList.isPrefixOf arg.toList then
      .error (.outputWriting arg)
    else if externalHelperFlags.any fun bad => containsText bad arg then .error (.externalHelper arg)
    else validateDiffArgs args

/-! ## The version-control check of `exec` -/

/-- The tables of `re` and `str.lower`, with what the guards rest on. -/
structure Alphabet where
  isWord : Char → Bool
  lower : String → String
  isWord_ascii : ∀ c : Char, c.toNat < 128 → isWord c = (c.isAlphanum || c == '_')
  isWord_folding : ∀ c ∈ ['İ', 'ı', 'ſ'], isWord c = true
  lower_ascii : ∀ text : String, (∀ c ∈ text.toList, c.toNat < 128) → lower text = String.ofList (text.toList.map Char.toLower)

def readOnlySubcommands : List String :=
  ["status", "diff", "log", "show", "grep", "blame", "shortlog", "describe", "rev-parse", "rev-list", "ls-files", "ls-tree",
   "cat-file", "whatchanged", "name-rev", "for-each-ref", "show-ref", "count-objects", "var"]

def valueFlagNames : List String := ["-C", "-c", "--git-dir", "--work-tree", "--namespace", "--exec-path"]

def booleanGlobalFlags : List String :=
  ["-P", "--no-pager", "--bare", "--no-replace-objects", "--literal-pathspecs", "--glob-pathspecs", "--noglob-pathspecs",
   "--icase-pathspecs"]

/-- The whitespace-bounded tokens that the loops over the text read one after the other. -/
def tokens (text : List Char) : List String := ((text.splitOnP isSpace).filter (· ≠ [])).map String.ofList

variable (alphabet : Alphabet)

def isSkippedFlag (token : String) : Bool :=
  valueFlagNames.any (fun flag => (flag ++ "=").toList.isPrefixOf token.toList) || booleanGlobalFlags.contains token ||
    ['-'].isPrefixOf token.toList

def extractSubcommand : List String → Option (String × List String)
  | [] => none
  | [token] => if valueFlagNames.contains token || isSkippedFlag token then none else some (alphabet.lower token, [])
  | token :: value :: rest =>
    if valueFlagNames.contains token then extractSubcommand rest
    else if isSkippedFlag token then extractSubcommand (value :: rest)
    else some (alphabet.lower token, value :: rest)

def offendingFlag (token : String) : Option String :=
  if token == "--output" || containsText "--output=" token || "--output ".toList.isPrefixOf token.toList then some token
  else if token == "-o" || "-o=".toList.isPrefixOf token.toList || "-o ".toList.isPrefixOf token.toList then some token
  else externalHelperFlags.find? fun bad => containsText bad token

def scanDiffFlags (args : List String) : Option String := args.findSome? offendingFlag

/-- `re.IGNORECASE`: the two cases of the letter, and the characters that fold to it. -/
def matchesLetter (letter c : Char) : Bool :=
  c == letter || c == letter.toUpper || (letter == 'i' && (c == 'İ' || c == 'ı')) || (letter == 's' && c == 'ſ')

/-- `\b` between two characters, or at an end of the text. -/
def isBoundary (before after : Option Char) : Bool := (before.any alphabet.isWord) != (after.any alphabet.isWord)

def wordAt (word : List Char) (before : Option Char) (text : List Char) : Bool :=
  isBoundary alphabet before text.head? && decide (word.length ≤ text.length) &&
    (word.zip text).all (fun pair => matchesLetter pair.1 pair.2) &&
    isBoundary alphabet (text.take word.length).getLast? (text.drop word.length).head?

/-- `_VCS_USAGE_PATTERN` at the beginning of the text: what it matches. -/
def vcsWordAt (before : Option Char) (text : List Char) : Option String :=
  (["git", "hg", "svn"].find? fun word => wordAt alphabet word.toList before text).map fun word =>
    String.ofList (text.take word.length)

/-- Why `_scan_text_for_vcs_violation` denies a text. -/
inductive Denial where
  /-- `VCS tool '...' is never allowed via exec.` -/
  | neverAllowed (word : String)
  /-- `git invocation without a whitelisted read-only subcommand is not allowed via exec (fail closed).` -/
  | noSubcommand
  /-- `git subcommand '...' mutates state and is never allowed via exec.` -/
  | mutates (subcommand : String)
  /-- `git diff with output-writing or external-helper flag (...) is not allowed via exec.` -/
  | diffFlag (flag : String)
  deriving DecidableEq

/-- The body of the loop of `_scan_text_for_vcs_violation`, for a match with `after` behind it. -/
def denialOf (word : String) (after : List Char) : Option Denial :=
  let word := alphabet.lower word
  if ["hg", "svn"].contains word then some (.neverAllowed word)
  else
    match extractSubcommand alphabet (tokens after) with
    | none => some .noSubcommand
    | some (subcommand, args) =>
      if !readOnlySubcommands.contains subcommand then some (.mutates subcommand)
      else if subcommand = "diff" then (scanDiffFlags args).map .diffFlag
      else none

/-- The loop of `_scan_text_for_vcs_violation`, `skip` characters of a match being still to pass. -/
def scanFrom : Nat → Option Char → List Char → Option Denial
  | _, _, [] => none
  | skip + 1, _, c :: text => scanFrom skip (some c) text
  | 0, before, c :: text =>
    match vcsWordAt alphabet before (c :: text) with
    | none => scanFrom 0 (some c) text
    | some word =>
      match denialOf alphabet word ((c :: text).drop word.length) with
      | some denial => some denial
      | none => scanFrom (word.length - 1) (some c) text

def scanText (text : String) : Option Denial := scanFrom alphabet 0 none text.toList

def checkVersionControl (command : String) (args : List String) : Option Denial :=
  scanText alphabet (String.intercalate " " (command :: args))

end GitGuards

end RalphWorkflow.Mcp
