import RalphWorkflow.Proof.Prompts.PendingDiff

/-! For every repository and every pattern of failing queries: all repositories that are alike get one answer, whatever git prints of the
changes it is asked for, exactly when the repository is `Tight`. -/
namespace RalphWorkflow.Prompts
open Lib List

variable {git : DiffPrinter} {fails : Failures} {repo r s : Repo} {path : RawPath}

/-! ## The condition -/

def newPresent (againstHead : Bool) (repo : Repo) (path : RawPath) : Bool :=
  (repo.index path).isSome && (!againstHead || (repo.work path).isSome)

def shows (againstHead : Bool) (repo : Repo) (path : RawPath) : Bool :=
  (repo.head path).isSome || newPresent againstHead repo path

/-- A recognized secret as read from the index names the path, or a directory above it. -/
def Covered (fails : Failures) (repo : Repo) (path : RawPath) : Prop :=
  fails.lsFiles = false ∧ ∃ spec ∈ spelled repo, isRecognizedSecretPath spec = true ∧ literalSelects spec path = true

/-- Nothing but the contents of secrets can have changed. -/
def Quiet (repo : Repo) : Prop :=
  ∀ path ∈ repo.paths, repo.tracked path = true →
    ((repo.head path).isSome = true ∧ (repo.index path).isSome = true ∧ (repo.work path).isSome = true) ∧
      (¬ Secret path → repo.head path = repo.index path ∧ repo.index path = repo.work path)

structure Tight (fails : Failures) (repo : Repo) : Prop where
  hidden : fails.diff = true ∨
    ∀ path ∈ repo.paths, Secret path → shows (!fails.revParse) repo path = true → Covered fails repo path
  listings : fails.status = true ∨ repo.untracked = [] ∨ ¬ Quiet repo ∨
    (∀ path ∈ repo.paths, Secret path → repo.tracked path = false) ∨
    shortText repo = combineTrackedAndUntracked "" (safeOthers fails repo)

/-! ## What alike repositories share -/

theorem spelled_alike (h : Alike r s) : spelled r = spelled s := by
  unfold spelled
  rw [← h.paths, filter_congr fun path hpath => h.index path hpath]

theorem covered_iff : ((trackedSecretPaths fails repo).any fun spec => literalSelects spec path) = true ↔ Covered fails repo path := by
  unfold Covered
  rw [trackedSecretPaths_eq]
  by_cases hfails : fails.lsFiles = true
  · rw [if_pos hfails, hfails]
    simp
  · rw [if_neg hfails, any_eq_true]
    simp only [mem_filter, Bool.not_eq_true _ ▸ hfails, true_and, and_assoc]

theorem trackedSecretPaths_alike (h : Alike r s) : trackedSecretPaths fails r = trackedSecretPaths fails s := by
  rw [trackedSecretPaths_eq, trackedSecretPaths_eq, spelled_alike h]

theorem shows_alike (h : Alike r s) (hpath : path ∈ r.paths) (againstHead : Bool) : shows againstHead r path = shows againstHead s path := by
  unfold shows newPresent
  rw [h.head path hpath, h.index path hpath, h.work path hpath]

theorem tracked_alike (h : Alike r s) (hpath : path ∈ r.paths) : r.tracked path = s.tracked path := by
  unfold Repo.tracked
  rw [h.head path hpath, h.index path hpath]

theorem sides_of_hidden {againstHead : Bool} (h : shows againstHead repo path = false) :
    (repo.sides againstHead path).old = (repo.sides againstHead path).new := by
  unfold shows newPresent at h
  rw [Bool.or_eq_false_iff, Option.isSome_eq_false_iff, Option.isNone_iff_eq_none] at h
  obtain ⟨hhead, hnew⟩ := h
  unfold Repo.sides
  dsimp only
  rw [hhead]
  cases hindex : repo.index path with
  | none => cases againstHead <;> rfl
  | some content =>
    rw [hindex] at hnew
    cases againstHead with
    | false => exact absurd hnew (by simp)
    | true =>
      rw [Bool.not_true, Bool.false_or, Option.isSome_some, Bool.true_and, Option.isSome_eq_false_iff,
        Option.isNone_iff_eq_none] at hnew
      exact hnew.symm

theorem sides_alike (h : Alike r s) (hpath : path ∈ r.paths) (hplain : ¬ Secret path) (againstHead : Bool) :
    r.sides againstHead path = s.sides againstHead path := by
  obtain ⟨hhead, hindex, hwork⟩ := h.contents path hpath hplain
  unfold Repo.sides
  rw [hhead, hindex, hwork]

theorem filter_map_congr {α β : Type} {f g : α → β} {P : β → Bool} {l : List α}
    (h : ∀ a ∈ l, P (f a) = P (g a) ∧ (P (f a) = true → f a = g a)) : (l.map f).filter P = (l.map g).filter P := by
  induction l with
  | nil => rfl
  | cons a l ih =>
    obtain ⟨⟨hsame, heq⟩, hrest⟩ := forall_mem_cons.mp h
    rw [map_cons, map_cons, filter_cons, filter_cons, ih hrest, ← hsame]
    by_cases hkept : P (f a) = true
    · rw [if_pos hkept, if_pos hkept, heq hkept]
    · rw [if_neg hkept, if_neg hkept]

theorem selectedChanges_alike (h : Alike r s)
    (hhidden : ∀ path ∈ r.paths, Secret path → shows (!fails.revParse) r path = true → Covered fails r path) :
    selectedChanges fails r = selectedChanges fails s := by
  unfold selectedChanges Repo.changes
  rw [filter_filter, filter_filter, ← h.paths, ← trackedSecretPaths_alike h]
  refine filter_map_congr fun path hpath => ?_
  by_cases hsecret : Secret path
  · have hdropped : ∀ t, Alike r t →
        (!((trackedSecretPaths fails r).any fun spec => literalSelects spec (t.sides (!fails.revParse) path).path) &&
          decide ((t.sides (!fails.revParse) path).old ≠ (t.sides (!fails.revParse) path).new)) = false := by
      intro t ht
      by_cases hshows : shows (!fails.revParse) r path = true
      · have hcovered : ((trackedSecretPaths fails r).any fun spec => literalSelects spec path) = true :=
          covered_iff.mpr (hhidden path hpath hsecret hshows)
        show (!((trackedSecretPaths fails r).any fun spec => literalSelects spec path) && _) = false
        rw [hcovered]
        rfl
      · rw [Bool.not_eq_true, shows_alike ht hpath] at hshows
        rw [sides_of_hidden hshows]
        simp
    exact ⟨(hdropped r (Alike.refl r)).trans (hdropped s h).symm, fun hkept => absurd (hkept.symm.trans (hdropped r (Alike.refl r))) nofun⟩
  · rw [sides_alike h hpath hsecret]
    exact ⟨rfl, fun _ => rfl⟩

/-! ## Tight repositories tell nothing -/

theorem Tight.alike (h : Alike r s) (htight : Tight fails r) : Tight fails s := by
  obtain ⟨hhidden, hlistings⟩ := htight
  have hback : ∀ path ∈ s.paths, path ∈ r.paths := fun path hpath => h.paths ▸ hpath
  refine ⟨hhidden.imp_right fun hcovered path hpath hsecret hshows => ?_, ?_⟩
  · have hr := hcovered path (hback path hpath) hsecret (by rwa [shows_alike h (hback path hpath)])
    unfold Covered at *
    rwa [← spelled_alike h]
  · have hothers : safeOthers fails r = safeOthers fails s := by
      unfold safeOthers
      rw [h.others]
    have hshort : shortText r = shortText s := by
      unfold shortText
      rw [h.untracked]
    rcases hlistings with hstatus | huntracked | hloud | hnone | htext
    · exact .inl hstatus
    · exact .inr (.inl (h.untracked ▸ huntracked))
    · refine .inr (.inr (.inl fun hquiet => hloud fun path hpath htracked => ?_))
      have hpath' : path ∈ s.paths := h.paths ▸ hpath
      obtain ⟨⟨hhead, hindex, hwork⟩, hplain⟩ := hquiet path hpath' ((tracked_alike h hpath).symm.trans htracked)
      refine ⟨⟨(h.head path hpath).trans hhead, (h.index path hpath).trans hindex, (h.work path hpath).trans hwork⟩, ?_⟩
      intro hsecret
      obtain ⟨heq, heq', heq''⟩ := h.contents path hpath hsecret
      rw [heq, heq', heq'']
      exact hplain hsecret
    · refine .inr (.inr (.inr (.inl fun path hpath hsecret => ?_)))
      rw [← tracked_alike h (hback path hpath)]
      exact hnone path (hback path hpath) hsecret
    · exact .inr (.inr (.inr (.inr (by rw [← hshort, ← hothers]; exact htext))))

theorem changes_of_clean (h : Clean repo) (againstHead : Bool) : repo.changes againstHead = [] := by
  unfold Repo.changes
  refine filter_eq_nil_iff.mpr fun change hchange => ?_
  obtain ⟨path, hpath, rfl⟩ := mem_map.mp hchange
  rw [decide_eq_true_eq, ne_eq, not_not]
  have hclean : ¬ (repo.tracked path = true ∧ ¬ (repo.head path = repo.index path ∧ repo.index path = repo.work path)) := by
    rw [← dirty_iff, h path hpath]
    exact Bool.false_ne_true
  unfold Repo.sides
  dsimp only
  by_cases htracked : repo.tracked path = true
  · obtain ⟨hhead, hindex⟩ := not_not.mp (not_and.mp hclean htracked)
    rw [hhead]
    cases againstHead with
    | false => rfl
    | true =>
      rw [if_pos rfl]
      cases hcontent : repo.index path with
      | none => rfl
      | some content => exact hcontent.symm.trans hindex
  · unfold Repo.tracked at htracked
    rw [Bool.not_eq_true, Bool.or_eq_false_iff, Option.isSome_eq_false_iff, Option.isSome_eq_false_iff,
      Option.isNone_iff_eq_none, Option.isNone_iff_eq_none] at htracked
    rw [htracked.1, htracked.2]
    cases againstHead <;> rfl

theorem quiet_of_clean (h : Alike r s) (hclean : Clean r) (hdirty : ¬ Clean s) :
    Quiet s ∧ ∃ path ∈ s.paths, Secret path ∧ s.tracked path = true := by
  have hsame : ∀ path ∈ r.paths, r.tracked path = true → r.head path = r.index path ∧ r.index path = r.work path := by
    intro path hpath htracked
    by_contra hdiffers
    have hdirty' := dirty_iff.mpr ⟨htracked, hdiffers⟩
    rw [hclean path hpath] at hdirty'
    exact Bool.false_ne_true hdirty'
  have hback : ∀ path ∈ s.paths, path ∈ r.paths := fun path hpath => h.paths ▸ hpath
  refine ⟨fun path hpath htracked => ?_, ?_⟩
  · have hpath' := hback path hpath
    rw [← tracked_alike h hpath'] at htracked
    obtain ⟨hhead, hindex⟩ := hsame path hpath' htracked
    have hsome : (r.head path).isSome = true := by
      unfold Repo.tracked at htracked
      rwa [← hhead, Bool.or_self] at htracked
    rw [← h.head path hpath', ← h.index path hpath', ← h.work path hpath', ← hindex, ← hhead]
    refine ⟨⟨hsome, hsome, hsome⟩, fun hplain => ?_⟩
    obtain ⟨heq, heq', heq''⟩ := h.contents path hpath' hplain
    rw [← heq, ← heq', ← heq'']
    exact ⟨hhead, hindex⟩
  · unfold Clean at hdirty
    rw [not_forall] at hdirty
    obtain ⟨path, hpath⟩ := hdirty
    rw [Classical.not_imp, Bool.not_eq_false, dirty_iff] at hpath
    obtain ⟨hpath, htracked, hdiffers⟩ := hpath
    refine ⟨path, hpath, ?_, htracked⟩
    by_contra hplain
    obtain ⟨heq, heq', heq''⟩ := h.contents path (hback path hpath) hplain
    rw [← heq, ← heq', ← heq''] at hdiffers
    exact hdiffers (hsame path (hback path hpath) (by rwa [tracked_alike h (hback path hpath)]))

theorem pendingText_of_mixed (htight : Tight fails s) (h : Alike r s) (hstatus : fails.status = false)
    (huntracked : s.untracked ≠ []) (hclean : Clean r) (hdirty : ¬ Clean s) :
    pendingText git fails s = shortText s := by
  obtain ⟨hquiet, path, hpath, hsecret, htracked⟩ := quiet_of_clean h hclean hdirty
  have htext : shortText s = combineTrackedAndUntracked "" (safeOthers fails s) := by
    rcases htight.listings with hfails | hempty | hloud | hnone | htext
    · exact absurd (hstatus.symm.trans hfails) Bool.false_ne_true
    · exact absurd hempty huntracked
    · exact absurd hquiet hloud
    · exact absurd (htracked.symm.trans (hnone path hpath hsecret)) nofun
    · exact htext
  have hprints : gitOutputOrEmpty fails.diff (git.print (selectedChanges fails s)) = "" := by
    unfold gitOutputOrEmpty
    rcases htight.hidden with hfails | hcovered
    · rw [if_pos hfails]
    · rw [selectedChanges_alike h.symm hcovered]
      unfold selectedChanges
      rw [changes_of_clean hclean, filter_nil, git.nothing]
      split
      · rfl
      · rfl
  rw [pendingText_full (.inr (.inl hdirty)), hprints, htext]

theorem pendingText_of_full (htight : Tight fails r) (h : Alike r s)
    (hr : fails.status = true ∨ ¬ Clean r ∨ r.untracked = []) (hs : fails.status = true ∨ ¬ Clean s ∨ s.untracked = []) :
    pendingText git fails r = pendingText git fails s := by
  have hprints : gitOutputOrEmpty fails.diff (git.print (selectedChanges fails r)) =
      gitOutputOrEmpty fails.diff (git.print (selectedChanges fails s)) := by
    rcases htight.hidden with hfails | hcovered
    · unfold gitOutputOrEmpty
      rw [if_pos hfails, if_pos hfails]
    · rw [selectedChanges_alike h hcovered]
  have hothers : safeOthers fails r = safeOthers fails s := by
    unfold safeOthers
    rw [h.others]
  rw [pendingText_full hr, pendingText_full hs, hprints, hothers]

theorem Tight.same (htight : Tight fails r) (h : Alike r s) : pendingText git fails r = pendingText git fails s := by
  have hshort : shortText r = shortText s := by
    unfold shortText
    rw [h.untracked]
  by_cases hquick : fails.status = false ∧ r.untracked ≠ []
  · obtain ⟨hstatus, huntracked⟩ := hquick
    have huntracked' : s.untracked ≠ [] := h.untracked ▸ huntracked
    by_cases hclean : Clean r
    · rw [pendingText_short hstatus hclean huntracked]
      by_cases hclean' : Clean s
      · rw [pendingText_short hstatus hclean' huntracked', hshort]
      · rw [pendingText_of_mixed (htight.alike h) h hstatus huntracked' hclean hclean', hshort]
    · by_cases hclean' : Clean s
      · rw [pendingText_short hstatus hclean' huntracked',
          pendingText_of_mixed htight h.symm hstatus huntracked hclean' hclean, hshort]
      · exact pendingText_of_full htight h (.inr (.inl hclean)) (.inr (.inl hclean'))
  · have hslow : fails.status = true ∨ r.untracked = [] := by
      rw [not_and_or, Bool.not_eq_false, not_not] at hquick
      exact hquick
    exact pendingText_of_full htight h (hslow.imp_right .inr) (hslow.imp_right fun hempty => .inr (h.untracked ▸ hempty))

/-! ## Repositories that are not tight -/

def recontent (repo : Repo) (head index work : Content) : Repo :=
  { repo with
    head := fun path => if Secret path then (repo.head path).map fun _ => head else repo.head path
    index := fun path => if Secret path then (repo.index path).map fun _ => index else repo.index path
    work := fun path => if Secret path then (repo.work path).map fun _ => work else repo.work path }

theorem alike_recontent (repo : Repo) (head index work : Content) : Alike repo (recontent repo head index work) := by
  have hsome : ∀ (place : RawPath → Option Content) (content : Content) (path : RawPath),
      (place path).isSome = (if Secret path then (place path).map fun _ => content else place path).isSome := by
    intro place content path
    split
    · exact Option.isSome_map.symm
    · rfl
  refine ⟨rfl, rfl, rfl, fun _ _ => hsome _ _ _, fun _ _ => hsome _ _ _, fun _ _ => hsome _ _ _, fun path _ hplain => ?_⟩
  unfold recontent
  dsimp only
  rw [if_neg hplain, if_neg hplain, if_neg hplain]
  exact ⟨rfl, rfl, rfl⟩

def telling (path : RawPath) (content : Content) : DiffPrinter where
  print := fun changes =>
    if changes.isEmpty then ""
    else if changes.any fun change => change.path == path && (change.old == some content || change.new == some content) then "1"
    else "0"
  nothing := rfl

def exposing (againstHead : Bool) (repo : Repo) (path : RawPath) (content : Content) : Repo :=
  recontent repo (if newPresent againstHead repo path then [] else content) content content

theorem exposing_sides {againstHead : Bool} {content : Content} (hsecret : Secret path) (hshows : shows againstHead repo path = true) :
    (exposing againstHead repo path content).sides againstHead path =
      if newPresent againstHead repo path then ⟨path, (repo.head path).map fun _ => [], some content⟩
      else ⟨path, some content, none⟩ := by
  unfold exposing Repo.sides recontent
  dsimp only
  rw [if_pos hsecret, if_pos hsecret, if_pos hsecret]
  unfold shows at hshows
  by_cases hnew : newPresent againstHead repo path = true
  · rw [if_pos hnew, if_pos hnew]
    unfold newPresent at hnew
    rw [Bool.and_eq_true, Option.isSome_iff_exists] at hnew
    obtain ⟨⟨indexed, hindex⟩, hwork⟩ := hnew
    rw [hindex]
    cases againstHead with
    | false => rfl
    | true =>
      rw [Bool.not_true, Bool.false_or, Option.isSome_iff_exists] at hwork
      obtain ⟨worked, hwork⟩ := hwork
      rw [hwork]
      rfl
  · rw [if_neg hnew, if_neg hnew]
    rw [Bool.not_eq_true] at hnew
    rw [hnew, Bool.or_false, Option.isSome_iff_exists] at hshows
    obtain ⟨old, hold⟩ := hshows
    rw [hold]
    unfold newPresent at hnew
    cases hindex : repo.index path with
    | none => cases againstHead <;> rfl
    | some indexed =>
      rw [hindex] at hnew
      cases againstHead with
      | false => exact absurd hnew (by simp)
      | true =>
        rw [Bool.not_true, Bool.false_or, Option.isSome_some, Bool.true_and, Option.isSome_eq_false_iff,
          Option.isNone_iff_eq_none] at hnew
        rw [hnew]
        rfl

theorem mem_selectedChanges {change : Change} : change ∈ selectedChanges fails repo ↔
    (∃ path ∈ repo.paths, repo.sides (!fails.revParse) path = change) ∧ change.old ≠ change.new ∧
      ¬ Covered fails repo change.path := by
  unfold selectedChanges Repo.changes
  rw [mem_filter, mem_filter, mem_map, decide_eq_true_eq, Bool.not_eq_true', ← Bool.not_eq_true, covered_iff,
    and_assoc]

theorem covered_alike (h : Alike r s) : Covered fails r path ↔ Covered fails s path := by
  unfold Covered
  rw [spelled_alike h]

theorem exposing_selected {content : Content} (hpath : path ∈ repo.paths) (hsecret : Secret path)
    (hshows : shows (!fails.revParse) repo path = true) (hexposed : ¬ Covered fails repo path) (hcontent : content ≠ []) :
    (exposing (!fails.revParse) repo path content).sides (!fails.revParse) path ∈
      selectedChanges fails (exposing (!fails.revParse) repo path content) := by
  refine mem_selectedChanges.mpr ⟨⟨path, hpath, rfl⟩, ?_, ?_⟩
  · rw [exposing_sides hsecret hshows]
    split
    · dsimp only
      cases repo.head path with
      | none => exact nofun
      | some old => exact fun h => hcontent (Option.some.inj h).symm
    · exact nofun
  · exact fun hcovered => hexposed ((covered_alike (alike_recontent repo _ _ _)).mpr hcovered)

theorem exposing_not_clean {content : Content} (hpath : path ∈ repo.paths) (hsecret : Secret path)
    (hshows : shows (!fails.revParse) repo path = true) (hexposed : ¬ Covered fails repo path) (hcontent : content ≠ []) :
    ¬ Clean (exposing (!fails.revParse) repo path content) := by
  intro hclean
  have hmem := exposing_selected hpath hsecret hshows hexposed hcontent
  unfold selectedChanges at hmem
  rw [changes_of_clean hclean] at hmem
  exact absurd hmem not_mem_nil

theorem telling_exposing {content shown : Content} (hpath : path ∈ repo.paths) (hsecret : Secret path)
    (hshows : shows (!fails.revParse) repo path = true) (hexposed : ¬ Covered fails repo path) (hcontent : content ≠ [])
    (hshown : shown ≠ []) :
    (telling path shown).print (selectedChanges fails (exposing (!fails.revParse) repo path content)) =
      if content = shown then "1" else "0" := by
  have hmem := exposing_selected hpath hsecret hshows hexposed hcontent
  have hne : (selectedChanges fails (exposing (!fails.revParse) repo path content)).isEmpty = false := by
    rw [isEmpty_eq_false_iff]
    exact ne_nil_of_mem hmem
  have htells : ((selectedChanges fails (exposing (!fails.revParse) repo path content)).any fun change =>
      change.path == path && (change.old == some shown || change.new == some shown)) = decide (content = shown) := by
    rw [Bool.eq_iff_iff, any_eq_true, decide_eq_true_eq]
    constructor
    · rintro ⟨change, hchange, htold⟩
      obtain ⟨⟨other, -, rfl⟩, -⟩ := mem_selectedChanges.mp hchange
      rw [Bool.and_eq_true, Bool.or_eq_true, beq_iff_eq, beq_iff_eq, beq_iff_eq] at htold
      obtain ⟨hsame, htold⟩ := htold
      have hother : other = path := hsame
      subst hother
      rw [exposing_sides hsecret hshows] at htold
      split at htold
      · rcases htold with hold | hnew
        · dsimp only at hold
          cases hhead : repo.head other with
          | none =>
            rw [hhead] at hold
            cases hold
          | some old =>
            rw [hhead] at hold
            exact absurd (Option.some.inj hold).symm hshown
        · exact Option.some.inj hnew
      · rcases htold with hold | hnew
        · exact Option.some.inj hold
        · cases hnew
    · rintro rfl
      refine ⟨_, hmem, ?_⟩
      rw [exposing_sides hsecret hshows]
      split
      · simp
      · simp
  unfold telling
  dsimp only
  rw [hne, htells]
  by_cases hsame : content = shown
  · simp [hsame]
  · simp [hsame]

theorem combine_ne (others : String) : combineTrackedAndUntracked "1" others ≠ combineTrackedAndUntracked "0" others := by
  have hone : ("1" : String) ≠ "" := by decide
  have hzero : ("0" : String) ≠ "" := by decide
  unfold combineTrackedAndUntracked
  dsimp only
  rw [if_neg hone, if_neg hzero]
  generalize formatUntrackedSection _ = listing
  by_cases hempty : listing = ""
  · rw [if_pos hempty, if_pos hempty]
    decide
  · rw [if_neg hempty, if_neg hempty]
    intro h
    have hlist := congrArg String.toList h
    simp only [String.toList_append] at hlist
    exact absurd (head_eq_of_cons_eq hlist) (by decide)

theorem hidden_of_same (hsame : ∀ git, ∀ r s, Alike repo r → Alike repo s → pendingText git fails r = pendingText git fails s)
    (hdiff : fails.diff = false) :
    ∀ path ∈ repo.paths, Secret path → shows (!fails.revParse) repo path = true → Covered fails repo path := by
  intro path hpath hsecret hshows
  by_contra hexposed
  have htext : ∀ content : Content, content ≠ [] → pendingText (telling path [1]) fails (exposing (!fails.revParse) repo path content) =
        combineTrackedAndUntracked (if content = [1] then "1" else "0") (safeOthers fails repo) := by
    intro content hcontent
    rw [pendingText_full (.inr (.inl (exposing_not_clean hpath hsecret hshows hexposed hcontent))),
      telling_exposing hpath hsecret hshows hexposed hcontent (by decide)]
    unfold gitOutputOrEmpty
    rw [hdiff]
    have hstrip : Text.strip (if content = [1] then "1" else "0") = if content = [1] then "1" else "0" := by
      split
      · decide
      · decide
    rw [if_neg Bool.false_ne_true, hstrip]
    rfl
  have hone := htext [1] (by decide)
  have htwo := htext [2] (by decide)
  rw [if_pos rfl] at hone
  rw [if_neg (by decide)] at htwo
  refine combine_ne (safeOthers fails repo) ?_
  rw [← hone, ← htwo]
  exact hsame _ _ _ (alike_recontent repo _ _ _) (alike_recontent repo _ _ _)

def silent : DiffPrinter where
  print := fun _ => ""
  nothing := rfl

theorem listings_of_same (hsame : ∀ git, ∀ r s, Alike repo r → Alike repo s → pendingText git fails r = pendingText git fails s)
    (hstatus : fails.status = false) (huntracked : repo.untracked ≠ []) (hquiet : Quiet repo) (hpath : path ∈ repo.paths)
    (hsecret : Secret path) (htracked : repo.tracked path = true) :
    shortText repo = combineTrackedAndUntracked "" (safeOthers fails repo) := by
  have hclean : Clean (recontent repo [] [] []) := by
    intro other hother
    rw [← Bool.not_eq_true, dirty_iff]
    rintro ⟨hother_tracked, hdiffers⟩
    have halike := alike_recontent repo [] [] []
    rw [← tracked_alike halike hother] at hother_tracked
    obtain ⟨⟨hhead, hindex, hwork⟩, hplain⟩ := hquiet other hother hother_tracked
    refine hdiffers ?_
    unfold recontent
    dsimp only
    by_cases hother_secret : Secret other
    · rw [if_pos hother_secret, if_pos hother_secret, if_pos hother_secret]
      obtain ⟨head, hhead⟩ := Option.isSome_iff_exists.mp hhead
      obtain ⟨index, hindex⟩ := Option.isSome_iff_exists.mp hindex
      obtain ⟨work, hwork⟩ := Option.isSome_iff_exists.mp hwork
      rw [hhead, hindex, hwork]
      exact ⟨rfl, rfl⟩
    · rw [if_neg hother_secret, if_neg hother_secret, if_neg hother_secret]
      exact hplain hother_secret
  have hdirty : ¬ Clean (recontent repo [] [] [1]) := by
    intro hall
    have hnone := hall path hpath
    rw [← Bool.not_eq_true, dirty_iff] at hnone
    refine hnone ⟨?_, ?_⟩
    · rwa [← tracked_alike (alike_recontent repo [] [] [1]) hpath]
    · obtain ⟨⟨-, hindex, hwork⟩, -⟩ := hquiet path hpath htracked
      obtain ⟨index, hindex⟩ := Option.isSome_iff_exists.mp hindex
      obtain ⟨work, hwork⟩ := Option.isSome_iff_exists.mp hwork
      unfold recontent
      dsimp only
      rw [if_pos hsecret, if_pos hsecret, if_pos hsecret, hindex, hwork]
      exact fun h => absurd h.2 (by simp)
  have hshort : pendingText silent fails (recontent repo [] [] []) = shortText repo :=
    pendingText_short hstatus hclean huntracked
  have hfull : pendingText silent fails (recontent repo [] [] [1]) = combineTrackedAndUntracked "" (safeOthers fails repo) := by
    rw [pendingText_full (.inr (.inl hdirty))]
    have hprints : gitOutputOrEmpty fails.diff (silent.print (selectedChanges fails (recontent repo [] [] [1]))) = "" := by
      unfold gitOutputOrEmpty
      split
      · rfl
      · rfl
    rw [hprints]
    rfl
  rw [← hshort, ← hfull]
  exact hsame _ _ _ (alike_recontent repo _ _ _) (alike_recontent repo _ _ _)

/-- Like repositories get the same answer but for the notice exactly when they are tight. -/
theorem sameButNotice_iff_tight (fails : Failures) (repo : Repo) :
    (∀ git, ∀ r s, Alike repo r → Alike repo s → SameButNotice git fails r s) ↔ Tight fails repo := by
  simp only [sameButNotice_iff]
  constructor
  · intro hsame
    refine ⟨?_, ?_⟩
    · by_cases hdiff : fails.diff = true
      · exact .inl hdiff
      · exact .inr (hidden_of_same hsame (Bool.not_eq_true _ ▸ hdiff))
    · by_contra hleaks
      rw [not_or, not_or, not_or, not_or, not_not, not_forall] at hleaks
      obtain ⟨hstatus, huntracked, hquiet, ⟨path, hpath⟩, htext⟩ := hleaks
      rw [Classical.not_imp, Classical.not_imp, Bool.not_eq_false] at hpath
      obtain ⟨hpath, hsecret, htracked⟩ := hpath
      exact htext (listings_of_same hsame (Bool.not_eq_true _ ▸ hstatus) huntracked hquiet hpath hsecret htracked)
  · intro htight git r s hr hs
    exact (htight.alike hr).same (hr.symm.trans hs)

/-! ## A secret that was removed -/

def envPath : RawPath := encodePath ".env".toList

def removedEnv (content : Content) : Repo where
  paths := [envPath]
  head := fun path => if path = envPath then some content else none
  index := fun _ => none
  work := fun _ => none
  untracked := []
  others := ""
  named := by decide
  listed := by decide

def alpha : Content := [75, 61, 97, 10]

/-- `K=o` and a line break. -/
def omega : Content := [75, 61, 111, 10]

def removalText (content : Content) : String :=
  if content = alpha then
    "diff --git a/.env b/.env\ndeleted file mode 100644\nindex bd0138f..0000000\n--- a/.env\n+++ /dev/null\n@@ -1 +0,0 @@\n-K=a\n"
  else if content = omega then
    "diff --git a/.env b/.env\ndeleted file mode 100644\nindex cc6f2f9..0000000\n--- a/.env\n+++ /dev/null\n@@ -1 +0,0 @@\n-K=o\n"
  else ""

def removalPrinter : DiffPrinter where
  print := fun changes =>
    match changes with
    | [⟨_, some content, none⟩] => removalText content
    | _ => ""
  nothing := rfl

theorem removedEnv_alike (content other : Content) : Alike (removedEnv content) (removedEnv other) := by
  refine ⟨rfl, rfl, rfl, ?_, fun _ _ => rfl, fun _ _ => rfl, ?_⟩
  · intro path hpath
    rw [mem_singleton.mp hpath]
    rfl
  · intro path hpath hplain
    rw [mem_singleton.mp hpath] at hplain
    exact absurd (by decide +kernel) hplain

theorem removedEnv_text (content : Content) : pendingText removalPrinter {} (removedEnv content) = Text.strip (removalText content) := by
  have hchanges : (removedEnv content).changes true = [⟨envPath, some content, none⟩] := rfl
  have hlisted : trackedSecretPaths {} (removedEnv content) = [] := by
    rw [trackedSecretPaths_eq]
    rfl
  have hselected : selectedChanges {} (removedEnv content) = [⟨envPath, some content, none⟩] := by
    unfold selectedChanges
    rw [hlisted]
    exact hchanges
  have hothers : safeOthers {} (removedEnv content) = "" := by
    show "\n".intercalate ((Text.splitLines (Text.strip "")).filter _) = ""
    decide +kernel
  have hsection : formatUntrackedSection ((Text.splitLines "").filter fun line => !Text.isBlank line) = "" := by
    decide +kernel
  rw [pendingText_full (.inr (.inr rfl)), hselected, hothers]
  unfold combineTrackedAndUntracked
  dsimp only
  rw [hsection, if_pos rfl]
  split
  · rename_i h
    exact h.symm
  · rfl

/-- The text that the commit message is made from holds the removed secret. -/
theorem removed_secret_printed : Alike (removedEnv alpha) (removedEnv omega) ∧ pendingText removalPrinter {} (removedEnv alpha) =
      "diff --git a/.env b/.env\ndeleted file mode 100644\nindex bd0138f..0000000\n--- a/.env\n+++ /dev/null\n@@ -1 +0,0 @@\n-K=a" ∧
    ¬ SameButNotice removalPrinter {} (removedEnv alpha) (removedEnv omega) := by
  have halpha : Text.strip (removalText alpha) =
      "diff --git a/.env b/.env\ndeleted file mode 100644\nindex bd0138f..0000000\n--- a/.env\n+++ /dev/null\n@@ -1 +0,0 @@\n-K=a" := by
    decide +kernel
  have homega : Text.strip (removalText omega) =
      "diff --git a/.env b/.env\ndeleted file mode 100644\nindex cc6f2f9..0000000\n--- a/.env\n+++ /dev/null\n@@ -1 +0,0 @@\n-K=o" := by
    decide +kernel
  rw [sameButNotice_iff, removedEnv_text, removedEnv_text, halpha, homega]
  exact ⟨removedEnv_alike _ _, rfl, by decide⟩

end RalphWorkflow.Prompts
