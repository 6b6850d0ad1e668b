import RalphWorkflow.Mcp.ToolGuards

/-! The classification looks at the spelling of a path, the write goes to where the path leads. A path and its normal spelling lead
to one place, and the capability follows the place exactly where the spelled directories say of the path what its place does. -/
namespace RalphWorkflow.Mcp
open Lib Lib.Text Lib.FileTree Workspace Pipeline List

/-! ## Spellings -/

section Spelling

variable {path : String} {names : List String}

/-- The slashes that a path begins with, as `PurePosixPath` keeps them. -/
def rootText (path : String) : String :=
  if ['/', '/'].isPrefixOf path.toList && !(['/', '/', '/'].isPrefixOf path.toList) then "//"
  else if isAbsolute path then "/" else ""

theorem pathParts_eq (path : String) : pathParts path = (if rootText path = "" then [] else [rootText path]) ++ pathNames path := by
  unfold pathParts pathNames rootText isAbsolute
  dsimp only
  by_cases hdouble : (['/', '/'].isPrefixOf path.toList && !(['/', '/', '/'].isPrefixOf path.toList)) = true
  · rw [if_pos hdouble, if_pos hdouble]
    rfl
  · rw [if_neg hdouble, if_neg hdouble]
    by_cases habsolute : ['/'].isPrefixOf path.toList = true
    · rw [if_pos habsolute, if_pos habsolute]
      rfl
    · rw [if_neg habsolute, if_neg habsolute]
      rfl

theorem rootText_cases (path : String) : rootText path = "" ∨ rootText path = "/" ∨ rootText path = "//" := by
  unfold rootText
  split
  · simp
  · split <;> simp

theorem isAbsolute_eq (path : String) : isAbsolute path = decide (rootText path ≠ "") := by
  unfold rootText
  split
  next h =>
    have hprefix : ['/', '/'] <+: path.toList := by
      rw [Bool.and_eq_true] at h
      exact isPrefixOf_iff_prefix.mp h.1
    obtain ⟨rest, hrest⟩ := hprefix
    simp [isAbsolute, ← hrest]
  next => split <;> simp_all

def PlainName (name : String) : Prop := name ≠ "" ∧ name ≠ "." ∧ '/' ∉ name.toList

theorem pathNames_plain (path : String) : ∀ name ∈ pathNames path, PlainName name := by
  intro name hname
  obtain ⟨hmem, hkept⟩ := mem_filter.mp hname
  obtain ⟨chars, hchars, rfl⟩ := mem_map.mp hmem
  simp only [Bool.and_eq_true, bne_iff_ne, ne_eq] at hkept
  refine ⟨hkept.1, hkept.2, ?_⟩
  rw [String.toList_ofList]
  exact fun hslash => (Text.mem_of_mem_splitOn hchars _ hslash).2 rfl

def slashed (names : List String) : List Char := ['/'].intercalate (names.map String.toList)

theorem splitOn_slashed (hnames : ∀ name ∈ names, PlainName name) (hne : names ≠ []) : (slashed names).splitOn '/' = names.map String.toList := by
  refine splitOn_intercalate _ (fun chars hchars => ?_) (by simpa using hne)
  obtain ⟨name, hname, rfl⟩ := mem_map.mp hchars
  exact (hnames name hname).2.2

theorem filter_slashed (hnames : ∀ name ∈ names, PlainName name) :
    (((slashed names).splitOn '/').map String.ofList).filter (fun part => part != "" && part != ".") = names := by
  by_cases hne : names = []
  · subst hne
    decide
  · rw [splitOn_slashed hnames hne, map_map]
    have htexts : names.map (String.ofList ∘ String.toList) = names := by simp
    rw [htexts, filter_eq_self]
    intro name hname
    simp [(hnames name hname).1, (hnames name hname).2.1]

theorem head_slashed (hnames : ∀ name ∈ names, PlainName name) : (slashed names).head? ≠ some '/' := by
  intro hhead
  obtain ⟨rest, hrest⟩ : ∃ rest, slashed names = '/' :: rest := by
    cases hcase : slashed names with
    | nil => simp [hcase] at hhead
    | cons c rest =>
      rw [hcase, List.head?_cons, Option.some.injEq] at hhead
      exact ⟨rest, by rw [hhead]⟩
  by_cases hne : names = []
  · subst hne
    cases hrest
  · have hsplit := splitOn_slashed hnames hne
    rw [hrest, splitOn_cons_self] at hsplit
    have hmem : ([] : List Char) ∈ names.map String.toList := hsplit ▸ mem_cons_self
    obtain ⟨name, hname, hnil⟩ := mem_map.mp hmem
    exact (hnames name hname).1 (String.toList_eq_nil_iff.mp hnil)

theorem rootText_of_toList {root : String} (hroot : root = "" ∨ root = "/" ∨ root = "//")
    (hnames : ∀ name ∈ names, PlainName name) (hpath : path.toList = root.toList ++ slashed names) : rootText path = root := by
  have hhead := head_slashed hnames
  unfold rootText isAbsolute
  rw [hpath]
  cases hrest : slashed names with
  | nil => rcases hroot with rfl | rfl | rfl <;> rfl
  | cons c rest =>
    have hc : '/' ≠ c := fun heq => hhead (by rw [hrest, ← heq]; rfl)
    rcases hroot with rfl | rfl | rfl <;> simp [hc]

theorem pathNames_of_toList {root : String} (hroot : root = "" ∨ root = "/" ∨ root = "//")
    (hnames : ∀ name ∈ names, PlainName name) (hpath : path.toList = root.toList ++ slashed names) : pathNames path = names := by
  have hfilter := filter_slashed hnames
  unfold pathNames
  rw [hpath]
  rcases hroot with rfl | rfl | rfl
  · exact hfilter
  · change (('/' :: slashed names).splitOn '/' |>.map String.ofList).filter _ = names
    rw [splitOn_cons_self]
    exact hfilter
  · change (('/' :: '/' :: slashed names).splitOn '/' |>.map String.ofList).filter _ = names
    rw [splitOn_cons_self, splitOn_cons_self]
    exact hfilter

theorem normalizedPath_toList (hne : rootText path ≠ "" ∨ pathNames path ≠ []) :
    (normalizedPath path).toList = (rootText path).toList ++ slashed (pathNames path) := by
  have hplain := pathNames_plain path
  unfold normalizedPath
  rw [pathParts_eq]
  rcases rootText_cases path with hroot | hroot | hroot
  · rw [hroot]
    cases hnames : pathNames path with
    | nil => simp [hroot, hnames] at hne
    | cons first rest =>
      have hfirst := (hplain first (by simp [hnames])).2.2
      have hslash : first ≠ "/" := by
        rintro rfl
        simp at hfirst
      have hslashes : first ≠ "//" := by
        rintro rfl
        simp at hfirst
      simp [hslash, hslashes, slashed]
  · simp [hroot, slashed]
  · simp [hroot, slashed]

theorem normalizeRelativePath_toList (path : String) :
    (normalizeRelativePath path).toList = (rootText path).toList ++ slashed (pathNames path) := by
  unfold normalizeRelativePath
  by_cases hne : rootText path ≠ "" ∨ pathNames path ≠ []
  · have htext := normalizedPath_toList hne
    have hroot := rootText_of_toList (rootText_cases path) (pathNames_plain path) htext
    have hnames := pathNames_of_toList (rootText_cases path) (pathNames_plain path) htext
    have hother : ¬ (normalizedPath path = "" ∨ normalizedPath path = ".") := by
      rintro (heq | heq)
      all_goals
        rw [heq] at hroot hnames
        rcases hne with hr | hn
        · exact hr (hroot.symm.trans (by decide))
        · exact hn (hnames.symm.trans (by decide))
    dsimp only
    rw [if_neg hother, htext]
  · rw [not_or, not_not, not_not] at hne
    have hparts : pathParts path = [] := by rw [pathParts_eq, hne.1, hne.2]; rfl
    have hdot : normalizedPath path = "." := by rw [normalizedPath, hparts]
    dsimp only
    rw [hdot, if_pos (.inr rfl), hne.1, hne.2]
    rfl

theorem rootText_normalizeRelativePath (path : String) : rootText (normalizeRelativePath path) = rootText path :=
  rootText_of_toList (rootText_cases path) (pathNames_plain path) (normalizeRelativePath_toList path)

theorem pathNames_normalizeRelativePath (path : String) : pathNames (normalizeRelativePath path) = pathNames path :=
  pathNames_of_toList (rootText_cases path) (pathNames_plain path) (normalizeRelativePath_toList path)

theorem normalizeRelativePath_idem (path : String) : normalizeRelativePath (normalizeRelativePath path) = normalizeRelativePath path := by
  apply String.toList_injective
  rw [normalizeRelativePath_toList, rootText_normalizeRelativePath, pathNames_normalizeRelativePath,
    ← normalizeRelativePath_toList]

theorem abs_normalizeRelativePath (workspace : FsWorkspace) (path : String) : workspace.abs (normalizeRelativePath path) = workspace.abs path := by
  have hcandidate : candidate workspace.root (normalizeRelativePath path) = candidate workspace.root path := by
    unfold candidate joined
    rw [pathParts_eq, pathParts_eq, isAbsolute_eq, isAbsolute_eq, rootText_normalizeRelativePath,
      pathNames_normalizeRelativePath]
  rw [FsWorkspace.abs, FsWorkspace.abs, hcandidate]

end Spelling

/-! ## What is demanded -/

section Demand

variable {tree : Tree} {depth : Nat} {workspace : FsWorkspace} {first second path : String} {place : Place}

def ephemeralNames : List String := [".agent", "target", "node_modules"]

/-- The pieces of the normal spelling between slashes of either kind. -/
def pieces (path : String) : List (List Char) := (candidateChars (normalizeRelativePath path)).splitOn '/'

/-- The root itself, or a directory of the spelling is ephemeral, `target` only behind the first piece. -/
def SpelledEphemeral (path : String) : Prop :=
  normalizeRelativePath path = "" ∨
    (∃ piece ∈ (pieces path).dropLast, ".agent".toList <:+ piece ∨ "node_modules".toList <:+ piece) ∨
    "target".toList ∈ (pieces path).dropLast.tail

/-- A directory that holds the place, or the place itself, is one of the ephemeral ones. -/
def LiesEphemeral (names : List String) : Prop := ∃ name ∈ names, name ∈ ephemeralNames

/-- Two spellings of one place demand one capability, that of where it is. -/
def FollowsLocation (tree : Tree) (depth : Nat) (workspace : FsWorkspace) (first second : String) : Prop :=
  ∀ place, workspace.abs first = some place → workspace.abs second = some place →
    writeCapability tree depth workspace first = writeCapability tree depth workspace second ∧
    ∀ names, place = workspace.root ++ names →
      (writeCapability tree depth workspace first = .workspaceWriteTracked ↔
        (follow tree depth place).isSome ∧ ¬ LiesEphemeral names)

def SpeltAsItLies (tree : Tree) (depth : Nat) (workspace : FsWorkspace) (first second : String) : Prop :=
  ∀ place, workspace.abs first = some place → workspace.abs second = some place → (follow tree depth place).isSome →
    (SpelledEphemeral first ↔ SpelledEphemeral second) ∧
    ∀ names, place = workspace.root ++ names → (SpelledEphemeral first ↔ LiesEphemeral names)

theorem mentions_iff (text : List Char) : (!containsChars ".agent/".toList text && !containsChars "/target/".toList text &&
      !containsChars "node_modules/".toList text) = true ↔
      ¬ ((∃ piece ∈ (text.splitOn '/').dropLast, ".agent".toList <:+ piece ∨ "node_modules".toList <:+ piece) ∨
        "target".toList ∈ (text.splitOn '/').dropLast.tail) := by
  have hagent : containsChars ".agent/".toList text = true ↔ ∃ piece ∈ (text.splitOn '/').dropLast, ".agent".toList <:+ piece := by
    have hword : ".agent/".toList = ".agent".toList ++ ['/'] := by decide
    rw [containsChars_iff, hword]
    exact snoc_infix_iff (by decide) (by decide)
  have hmodules : containsChars "node_modules/".toList text = true ↔ ∃ piece ∈ (text.splitOn '/').dropLast, "node_modules".toList <:+ piece := by
    have hword : "node_modules/".toList = "node_modules".toList ++ ['/'] := by decide
    rw [containsChars_iff, hword]
    exact snoc_infix_iff (by decide) (by decide)
  have htarget : containsChars "/target/".toList text = true ↔ "target".toList ∈ (text.splitOn '/').dropLast.tail := by
    have hword : "/target/".toList = '/' :: ("target".toList ++ ['/']) := by decide
    rw [containsChars_iff, hword]
    exact between_infix_iff (by decide)
  have hsome : (∃ piece ∈ (text.splitOn '/').dropLast, ".agent".toList <:+ piece ∨ "node_modules".toList <:+ piece) ↔
      containsChars ".agent/".toList text = true ∨ containsChars "node_modules/".toList text = true := by
    rw [hagent, hmodules, ← exists_or]
    exact exists_congr fun piece => and_or_left
  rw [hsome, ← htarget]
  cases containsChars ".agent/".toList text <;> cases containsChars "/target/".toList text <;>
    cases containsChars "node_modules/".toList text <;> decide

theorem writeCapability_eq_tracked_iff (hplace : workspace.abs path = some place) :
    writeCapability tree depth workspace path = .workspaceWriteTracked ↔
      (follow tree depth place).isSome ∧ ¬ SpelledEphemeral path := by
  have htracked : writeCapability tree depth workspace path = .workspaceWriteTracked ↔
      isPathGitTracked tree depth workspace (normalizeRelativePath path) = true := by
    unfold writeCapability
    dsimp only
    split <;> simp_all
  have hexists : pathExists tree depth workspace (normalizeRelativePath path) = some (follow tree depth place).isSome := by
    rw [pathExists, abs_normalizeRelativePath, hplace]
    rfl
  rw [htracked, isPathGitTracked, normalizeRelativePath_idem, hexists]
  dsimp only
  unfold SpelledEphemeral pieces
  by_cases hroot : normalizeRelativePath path = ""
  · simp [hroot]
  · rw [if_neg hroot]
    cases (follow tree depth place).isSome with
    | false => simp
    | true => simpa [hroot] using mentions_iff (candidateChars (normalizeRelativePath path))

theorem writeCapability_eq_iff (tree : Tree) (depth : Nat) (workspace : FsWorkspace) (first second : String) :
    writeCapability tree depth workspace first = writeCapability tree depth workspace second ↔
      (writeCapability tree depth workspace first = .workspaceWriteTracked ↔
        writeCapability tree depth workspace second = .workspaceWriteTracked) := by
  unfold writeCapability
  dsimp only
  split <;> split <;> simp

/-- Capabilities follow the place exactly where the spellings say of the path what its place does. -/
theorem follows_location_iff (tree : Tree) (depth : Nat) (workspace : FsWorkspace) (first second : String) :
    FollowsLocation tree depth workspace first second ↔ SpeltAsItLies tree depth workspace first second := by
  refine forall_congr' fun place => forall_congr' fun hfirst => forall_congr' fun hsecond => ?_
  have htracked : writeCapability tree depth workspace first = .workspaceWriteTracked ↔ _ := writeCapability_eq_tracked_iff hfirst
  have hother : writeCapability tree depth workspace second = .workspaceWriteTracked ↔ _ := writeCapability_eq_tracked_iff hsecond
  have hsame := writeCapability_eq_iff tree depth workspace first second
  rw [hsame, htracked, hother]
  cases (follow tree depth place).isSome with
  | false => simp
  | true =>
    simp only [true_and, forall_const, not_iff_not]

end Demand

/-! ## A spelling through an ephemeral directory -/

def sourceTree : Tree where
  entries := [([], .directory), (["work"], .directory), (["work", ".agent"], .directory), (["work", "src"], .directory),
    (["work", "src", "main.py"], .file)]
  root := rfl
  held := by decide

/-- The second spelling of the source file demands less than the first. -/
theorem detour_through_agent : ¬ FollowsLocation sourceTree 40 (.build sourceTree ["work"] []) "src/main.py" ".agent/../src/main.py" := by
  intro hfollows
  have hsame := (hfollows ["work", "src", "main.py"] (by decide +kernel) (by decide +kernel)).1
  exact absurd hsame (by decide +kernel)

end RalphWorkflow.Mcp
