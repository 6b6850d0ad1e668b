import RalphWorkflow.Prompts.CommitDiff

/-! Two repositories are alike where they differ in the contents of recognized secrets alone. The text of the pending diff is the same
for all that are alike exactly where no secret is printed and the two ways to list the untracked files cannot be told apart. -/
namespace RalphWorkflow.Prompts
open Lib List Repo

variable {git : DiffPrinter} {fails : Failures} {repo r s : Repo} {path : RawPath}

/-! ## What is read from a listing -/

def dropFirst : List (List Char) → List (List Char)
  | [] => []
  | entry :: rest => entry.dropWhile Text.isSpace :: rest

theorem nulTerminated_cons (entry : List Char) (rest : List (List Char)) :
    (nulTerminated (entry :: rest)).toList = entry ++ '\x00' :: (nulTerminated rest).toList := by
  unfold nulTerminated
  simp

theorem dropWhile_before_nul (entry tail : List Char) :
    (entry ++ '\x00' :: tail).dropWhile Text.isSpace = entry.dropWhile Text.isSpace ++ '\x00' :: tail := by
  induction entry with
  | nil => rfl
  | cons c entry ih =>
    rw [cons_append, dropWhile_cons, dropWhile_cons]
    by_cases hspace : Text.isSpace c = true
    · rw [if_pos hspace, if_pos hspace, ih]
    · rw [if_neg hspace, if_neg hspace]
      rfl

theorem nulTerminated_ends (entry : List Char) (rest : List (List Char)) : ∃ front, (nulTerminated (entry :: rest)).toList = front ++ ['\x00'] := by
  induction rest generalizing entry with
  | nil => exact ⟨entry, by rw [nulTerminated_cons]; rfl⟩
  | cons next rest ih =>
    obtain ⟨front, hfront⟩ := ih next
    exact ⟨entry ++ '\x00' :: front, by rw [nulTerminated_cons, hfront]; simp⟩

theorem strip_nulTerminated (entries : List (List Char)) : Text.strip (nulTerminated entries) = nulTerminated (dropFirst entries) := by
  cases entries with
  | nil => rfl
  | cons entry rest =>
    obtain ⟨front, hfront⟩ := nulTerminated_ends (entry.dropWhile Text.isSpace) rest
    unfold Text.strip
    rw [nulTerminated_cons, dropWhile_before_nul, ← nulTerminated_cons, hfront, reverse_append]
    have hnul : (['\x00'].reverse ++ front.reverse).dropWhile Text.isSpace = ['\x00'].reverse ++ front.reverse := rfl
    rw [hnul, ← reverse_append, reverse_reverse, ← hfront, String.ofList_toList]
    rfl

theorem splitNul_nulTerminated (entries : List (List Char)) (h : ∀ entry ∈ entries, '\x00' ∉ entry) :
    splitNul (nulTerminated entries) = entries.filter (· ≠ []) := by
  unfold splitNul
  induction entries with
  | nil => rfl
  | cons entry rest ih =>
    rw [forall_mem_cons] at h
    rw [nulTerminated_cons, splitOn_append_cons_self_of_not_mem h.1, filter_cons, filter_cons, ih h.2]

theorem nul_not_mem_dropFirst {entries : List (List Char)} (h : ∀ entry ∈ entries, '\x00' ∉ entry) :
    ∀ entry ∈ dropFirst entries, '\x00' ∉ entry := by
  cases entries with
  | nil => exact h
  | cons entry rest =>
    rw [forall_mem_cons] at h
    refine forall_mem_cons.mpr ⟨fun hmem => h.1 ?_, h.2⟩
    exact (dropWhile_sublist _).subset hmem

/-! ## Repositories that differ in secrets -/

def Secret (path : RawPath) : Prop := isRecognizedSecretPath (decodePath path) = true

instance (path : RawPath) : Decidable (Secret path) := inferInstanceAs (Decidable (_ = true))

/-- The same paths in each place, and the same contents of what is no secret. -/
structure Alike (r s : Repo) : Prop where
  paths : r.paths = s.paths
  untracked : r.untracked = s.untracked
  others : r.others = s.others
  head : ∀ path ∈ r.paths, (r.head path).isSome = (s.head path).isSome
  index : ∀ path ∈ r.paths, (r.index path).isSome = (s.index path).isSome
  work : ∀ path ∈ r.paths, (r.work path).isSome = (s.work path).isSome
  contents : ∀ path ∈ r.paths, ¬ Secret path →
    r.head path = s.head path ∧ r.index path = s.index path ∧ r.work path = s.work path

theorem Alike.refl (r : Repo) : Alike r r :=
  ⟨rfl, rfl, rfl, fun _ _ => rfl, fun _ _ => rfl, fun _ _ => rfl, fun _ _ _ => ⟨rfl, rfl, rfl⟩⟩

theorem Alike.symm (h : Alike r s) : Alike s r := by
  refine ⟨h.paths.symm, h.untracked.symm, h.others.symm, ?_, ?_, ?_, ?_⟩
  · exact fun path hpath => (h.head path (h.paths ▸ hpath)).symm
  · exact fun path hpath => (h.index path (h.paths ▸ hpath)).symm
  · exact fun path hpath => (h.work path (h.paths ▸ hpath)).symm
  · intro path hpath hplain
    obtain ⟨hhead, hindex, hwork⟩ := h.contents path (h.paths ▸ hpath) hplain
    exact ⟨hhead.symm, hindex.symm, hwork.symm⟩

theorem Alike.trans {t : Repo} (h : Alike r s) (h' : Alike s t) : Alike r t := by
  have hpaths : ∀ path ∈ r.paths, path ∈ s.paths := fun path hpath => h.paths ▸ hpath
  refine ⟨h.paths.trans h'.paths, h.untracked.trans h'.untracked, h.others.trans h'.others, ?_, ?_, ?_, ?_⟩
  · exact fun path hpath => (h.head path hpath).trans (h'.head path (hpaths path hpath))
  · exact fun path hpath => (h.index path hpath).trans (h'.index path (hpaths path hpath))
  · exact fun path hpath => (h.work path hpath).trans (h'.work path (hpaths path hpath))
  · intro path hpath hplain
    obtain ⟨hhead, hindex, hwork⟩ := h.contents path hpath hplain
    obtain ⟨hhead', hindex', hwork'⟩ := h'.contents path (hpaths path hpath) hplain
    exact ⟨hhead.trans hhead', hindex.trans hindex', hwork.trans hwork'⟩

/-- The answer of both functions, but for the notice: the text that the notice is added to. -/
def pendingText (git : DiffPrinter) (fails : Failures) (repo : Repo) : String := (secretFilteredPendingDiff git fails repo).1

def SameButNotice (git : DiffPrinter) (fails : Failures) (r s : Repo) : Prop :=
  ∃ text present present',
    secretFilteredPendingDiff git fails r = (text, present) ∧ secretFilteredPendingDiff git fails s = (text, present')

theorem sameButNotice_iff : SameButNotice git fails r s ↔ pendingText git fails r = pendingText git fails s := by
  unfold SameButNotice pendingText
  cases secretFilteredPendingDiff git fails r with
  | mk text present =>
    cases secretFilteredPendingDiff git fails s with
    | mk text' present' =>
      constructor
      · rintro ⟨_, _, _, hr, hs⟩
        cases hr
        cases hs
        rfl
      · rintro rfl
        exact ⟨text, present, present', rfl, rfl⟩

/-! ## The queries -/

theorem nul_not_mem_decodePath (h : PathUnit.char '\x00' ∉ path) : '\x00' ∉ decodePath path := by
  unfold decodePath
  rw [mem_map]
  rintro ⟨unit, hunit, hdecode⟩
  cases unit with
  | char c =>
    have hnul : c = '\x00' := hdecode
    exact h (hnul ▸ hunit)
  | broken bytes =>
    have hnul : Char.ofNat 0xFFFD = '\x00' := hdecode
    exact absurd hnul (by decide)

/-- The first name has lost its leading white space. -/
def spelled (repo : Repo) : List (List Char) :=
  (dropFirst ((repo.paths.filter fun path => (repo.index path).isSome).map decodePath)).filter (· ≠ [])

theorem trackedSecretPaths_eq (fails : Failures) (repo : Repo) :
    trackedSecretPaths fails repo = if fails.lsFiles then [] else (spelled repo).filter isRecognizedSecretPath := by
  unfold trackedSecretPaths gitOutputOrEmpty
  by_cases hfails : fails.lsFiles = true
  · rw [if_pos hfails, if_pos hfails]
    rfl
  · rw [if_neg hfails, if_neg hfails, strip_nulTerminated]
    show (splitNul _).filter isRecognizedSecretPath = _
    rw [splitNul_nulTerminated]
    · rfl
    · refine nul_not_mem_dropFirst fun entry hentry => ?_
      obtain ⟨path, hpath, rfl⟩ := mem_map.mp hentry
      exact nul_not_mem_decodePath (repo.named path (mem_of_mem_filter hpath)).2

theorem dirty_iff : repo.dirty path = true ↔ repo.tracked path = true ∧
    ¬ (repo.head path = repo.index path ∧ repo.index path = repo.work path) := by
  have hletter : ∀ before after, statusLetter before after = ' ' ↔ before = after := by
    intro before after
    unfold statusLetter
    cases before with
    | none => cases after <;> simp
    | some before => cases after <;> simp
  unfold dirty statusLetters
  rw [Bool.and_eq_true, bne_iff_ne, ne_eq, List.cons.injEq, List.cons.injEq, hletter, hletter]
  simp

theorem not_untrackedMark_dropWhile (h : repo.dirty path = true) (tail : List Char) :
    untrackedMark.isPrefixOf ((repo.statusLetters path ++ tail).dropWhile Text.isSpace) = false ∧
      (repo.statusLetters path ++ tail).dropWhile Text.isSpace ≠ [] := by
  have hletter : ∀ before after, statusLetter before after = ' ' ∨ statusLetter before after = 'A' ∨
      statusLetter before after = 'D' ∨ statusLetter before after = 'M' := by
    intro before after
    unfold statusLetter
    split
    · simp
    · simp
    · split <;> simp
  have hdirty : repo.statusLetters path ≠ [' ', ' '] := by
    unfold dirty at h
    rw [Bool.and_eq_true, bne_iff_ne] at h
    exact h.2
  unfold statusLetters at hdirty ⊢
  rcases hletter (repo.head path) (repo.index path) with hfirst | hfirst | hfirst | hfirst
  · rw [hfirst] at hdirty ⊢
    rcases hletter (repo.index path) (repo.work path) with hsecond | hsecond | hsecond | hsecond
    · exact absurd (by rw [hsecond]) hdirty
    all_goals
      rw [hsecond]
      exact ⟨rfl, nofun⟩
  all_goals
    rw [hfirst]
    exact ⟨rfl, nofun⟩

def Clean (repo : Repo) : Prop := ∀ path ∈ repo.paths, repo.dirty path = false

def shortText (repo : Repo) : String :=
  formatUntrackedSection ((repo.untracked.filter fun path => !isRecognizedSecretPath path).map String.ofList)

theorem statusEntries_of_clean (h : Clean repo) : repo.statusEntries = repo.untracked.map (untrackedMark ++ ·) := by
  unfold statusEntries
  have hnone : repo.paths.filter repo.dirty = [] :=
    filter_eq_nil_iff.mpr fun path hpath => by rw [h path hpath]; exact Bool.false_ne_true
  rw [hnone]
  rfl

theorem nulTerminated_eq_empty (entries : List (List Char)) : nulTerminated entries = "" ↔ entries = [] := by
  cases entries with
  | nil => simp [nulTerminated]
  | cons entry rest =>
    refine ⟨fun h => ?_, fun h => absurd h (cons_ne_nil _ _)⟩
    have hlist := congrArg String.toList h
    rw [nulTerminated_cons] at hlist
    simp at hlist

theorem dropFirst_untracked (untracked : List (List Char)) :
    dropFirst (untracked.map (untrackedMark ++ ·)) = untracked.map (untrackedMark ++ ·) := by
  cases untracked with
  | nil => rfl
  | cons entry rest => rfl

theorem untrackedOnly_of_clean (hstatus : fails.status = false) (hclean : Clean repo) (huntracked : repo.untracked ≠ []) :
    ∃ present, untrackedOnlyPendingWork fails repo = some (shortText repo, present) := by
  have hnul : ∀ entry ∈ repo.untracked.map (untrackedMark ++ ·), '\x00' ∉ entry := by
    intro entry hentry
    obtain ⟨path, hpath, rfl⟩ := mem_map.mp hentry
    rw [mem_append, not_or]
    exact ⟨by decide, repo.listed path hpath⟩
  have hentries : (repo.untracked.map (untrackedMark ++ ·)).filter (· ≠ []) = repo.untracked.map (untrackedMark ++ ·) := by
    refine filter_eq_self.mpr fun entry hentry => ?_
    obtain ⟨path, -, rfl⟩ := mem_map.mp hentry
    exact decide_eq_true (cons_ne_nil _ _)
  have hmarked : ((repo.untracked.map (untrackedMark ++ ·)).any fun entry => !untrackedMark.isPrefixOf entry) =
      false := by
    rw [any_eq_false]
    intro entry hentry
    obtain ⟨path, -, rfl⟩ := mem_map.mp hentry
    rw [Bool.not_eq_true', Bool.not_eq_false]
    exact isPrefixOf_iff_prefix.mpr (prefix_append _ _)
  unfold untrackedOnlyPendingWork gitOutputOrEmpty
  rw [hstatus, statusEntries_of_clean hclean]
  simp only [Bool.false_eq_true, if_false]
  rw [strip_nulTerminated, dropFirst_untracked, splitNul_nulTerminated _ hnul, hentries, hmarked]
  have hne : nulTerminated (repo.untracked.map (untrackedMark ++ ·)) ≠ "" := by
    rw [ne_eq, nulTerminated_eq_empty, map_eq_nil_iff]
    exact huntracked
  rw [if_neg hne]
  have hdrop : (repo.untracked.map (untrackedMark ++ ·)).map (·.drop 3) = repo.untracked := by
    rw [map_map]
    exact map_id'' (fun _ => rfl) _
  rw [hdrop]
  exact ⟨_, rfl⟩

theorem statusEntry_nul (path : RawPath) (hpath : path ∈ repo.paths) : '\x00' ∉ repo.statusLetters path ++ ' ' :: decodePath path := by
  have hletter : ∀ before after, statusLetter before after ≠ '\x00' := by
    intro before after
    unfold statusLetter
    split
    · decide
    · decide
    · split <;> decide
  unfold statusLetters
  simp only [mem_append, mem_cons, not_mem_nil, or_false, not_or]
  refine ⟨⟨(hletter _ _).symm, (hletter _ _).symm⟩, by decide, ?_⟩
  exact nul_not_mem_decodePath (repo.named path hpath).2

theorem untrackedOnly_eq_none (h : fails.status = true ∨ ¬ Clean repo ∨ repo.untracked = []) : untrackedOnlyPendingWork fails repo = none := by
  unfold untrackedOnlyPendingWork gitOutputOrEmpty
  by_cases hstatus : fails.status = true
  · rw [if_pos hstatus]
    rfl
  rw [if_neg hstatus, strip_nulTerminated]
  have hrest := h.resolve_left hstatus
  cases hdirty : repo.paths.filter repo.dirty with
  | nil =>
    have hclean : Clean repo := fun path hpath => Bool.not_eq_true _ ▸ filter_eq_nil_iff.mp hdirty path hpath
    rw [statusEntries_of_clean hclean, hrest.resolve_left fun h => h hclean]
    rfl
  | cons path others =>
    obtain ⟨hpath, hpathDirty⟩ := mem_filter.mp (hdirty ▸ mem_cons_self : path ∈ repo.paths.filter repo.dirty)
    have hnul : ∀ entry ∈ repo.statusEntries, '\x00' ∉ entry := by
      intro entry hentry
      unfold statusEntries at hentry
      rcases mem_append.mp hentry with hentry | hentry
      · obtain ⟨other, hother, rfl⟩ := mem_map.mp hentry
        exact statusEntry_nul other (mem_of_mem_filter hother)
      · obtain ⟨other, hother, rfl⟩ := mem_map.mp hentry
        rw [mem_append, not_or]
        exact ⟨by decide, repo.listed other hother⟩
    obtain ⟨hunmarked, hne⟩ := not_untrackedMark_dropWhile hpathDirty (' ' :: decodePath path)
    have hentries : ∃ more, dropFirst repo.statusEntries = (repo.statusLetters path ++ ' ' :: decodePath path).dropWhile Text.isSpace :: more := by
      unfold statusEntries
      rw [hdirty]
      exact ⟨_, rfl⟩
    obtain ⟨more, hentries⟩ := hentries
    show (if _ then _ else if ((splitNul _).any _) = true then _ else _) = _
    rw [splitNul_nulTerminated _ (nul_not_mem_dropFirst hnul), hentries, filter_cons,
      if_pos (decide_eq_true hne), any_cons, hunmarked]
    simp

/-! ## The full answer -/

def selectedChanges (fails : Failures) (repo : Repo) : List Change :=
  (repo.changes (!fails.revParse)).filter fun change =>
    !(trackedSecretPaths fails repo).any fun spec => literalSelects spec change.path

/-- The paths of `git ls-files --others` that are no secrets. -/
def safeOthers (fails : Failures) (repo : Repo) : String :=
  "\n".intercalate ((Text.splitLines (gitOutputOrEmpty fails.others repo.others)).filter fun path =>
    path ≠ "" && !isRecognizedSecretPath path.toList)

theorem pendingText_short (hstatus : fails.status = false) (hclean : Clean repo) (huntracked : repo.untracked ≠ []) :
    pendingText git fails repo = shortText repo := by
  obtain ⟨present, hshort⟩ := untrackedOnly_of_clean hstatus hclean huntracked
  unfold pendingText secretFilteredPendingDiff
  rw [hshort]

theorem pendingText_full (h : fails.status = true ∨ ¬ Clean repo ∨ repo.untracked = []) : pendingText git fails repo =
      combineTrackedAndUntracked (gitOutputOrEmpty fails.diff (git.print (selectedChanges fails repo)))
        (safeOthers fails repo) := by
  unfold pendingText secretFilteredPendingDiff
  rw [untrackedOnly_eq_none h]
  rfl

end RalphWorkflow.Prompts
