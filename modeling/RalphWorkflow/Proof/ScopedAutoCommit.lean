import RalphWorkflow.Git.ScopedAutoCommit

/-! A chore commit may hold only paths that the caller takes, and leaves the index entries out of its scope as they were. A staged deletion has a
name and no entry, and a staged path that the first listing does not name is committed. -/
namespace RalphWorkflow.Git
open Lib Lib.Text List

/-- A commit changes paths that the chore takes; index entries out of scope stay. -/
structure Kept (chore : Chore) (before after : Trees) : Prop where
  committed : ∀ path, after.head.get? path ≠ before.head.get? path → chore.takes path = true
  index : ∀ path, pathInScope path chore.scopes = false → after.index.get? path = before.index.get? path

section

variable {calls : Calls} {chore : Chore} {trees : Trees} {dirty : List String} {path : String}

/-! ## The commands -/

theorem get?_takeFrom (source : Entries) (paths : List String) (index : Entries) (path : String) :
    (source.takeFrom paths index).get? path = if path ∈ paths then source.get? path else index.get? path := by
  unfold Entries.takeFrom
  induction paths generalizing index with
  | nil => simp
  | cons first rest ih =>
    rw [foldl_cons, ih]
    by_cases hrest : path ∈ rest
    · simp [hrest]
    · by_cases hfirst : path = first
      · subst hfirst
        cases hsource : source.get? path <;> simp [hrest]
      · cases hsource : source.get? first <;> simp [hrest, hfirst]

theorem takes_of_mem_allDirty (hdirty : allDirty calls chore = some dirty) (hpath : path ∈ dirty) : chore.takes path = true := by
  obtain ⟨lists, -, rfl⟩ := Option.map_eq_some_iff.mp hdirty
  obtain ⟨hsorted, hfilter⟩ := mem_filter.mp hpath
  rw [mem_sortedText, mem_dedup, mem_filter] at hsorted
  simp only [Chore.takes, hsorted.2, hfilter, Bool.and_self]

theorem inScope_of_takes (htakes : chore.takes path = true) : pathInScope path chore.scopes = true := by
  simp only [Chore.takes, Bool.and_eq_true] at htakes
  exact htakes.1.1

theorem mem_preStagedOutside : path ∈ preStagedOutside calls chore trees ↔
    path ∈ cachedNames calls trees ∧ pathInScope path chore.scopes = false := by
  unfold preStagedOutside
  rw [mem_sortedText, mem_filter, Bool.not_eq_true']

theorem exists_of_mem_cachedNames (hpath : path ∈ cachedNames calls trees) :
    ∃ staged, calls.printed staged = path ∧ trees.head.get? staged ≠ trees.index.get? staged := by
  obtain ⟨staged, hstaged, rfl⟩ := mem_map.mp hpath
  obtain ⟨-, hchanged⟩ := mem_filter.mp hstaged
  rw [Bool.and_eq_true, decide_eq_true_eq] at hchanged
  exact ⟨staged, rfl, hchanged.1⟩

theorem mem_cachedNames (hchanged : trees.head.get? path ≠ trees.index.get? path)
    (hshown : calls.renamedFrom path = false) : calls.printed path ∈ cachedNames calls trees := by
  refine mem_map_of_mem (mem_filter.mpr ⟨?_, by simp [hchanged, hshown]⟩)
  rw [mem_dedup, mem_append, Dict.mem_keys_iff, Dict.mem_keys_iff]
  unfold Dict.contains
  cases hhead : trees.head.get? path with
  | some entry => exact .inl rfl
  | none =>
    cases hindex : trees.index.get? path with
    | some entry => exact .inr rfl
    | none => exact absurd (hhead.trans hindex.symm) hchanged

/-! ## The restore -/

theorem get?_restore_of_not_mem {call : Nat} {entries : List (String × Entry)} {index : Entries}
    (hpath : path ∉ entries.map Prod.fst) : (restorePreStaged calls call entries index).get? path = index.get? path := by
  induction entries generalizing call index with
  | nil => rfl
  | cons first rest ih =>
    rw [map_cons, mem_cons, not_or] at hpath
    unfold restorePreStaged
    split
    next => rw [ih hpath.2, Dict.get?_set, if_neg hpath.1]
    next => rfl

theorem get?_restore_of_mem {call : Nat} {entries : List (String × Entry)} {index : Entries} {entry : Entry}
    (hcalls : ∀ later < entries.length, calls.updateIndex (call + later) = true)
    (hnodup : (entries.map Prod.fst).Nodup) (hmem : (path, entry) ∈ entries) :
    (restorePreStaged calls call entries index).get? path = some entry := by
  induction entries generalizing call index with
  | nil => nomatch hmem
  | cons first rest ih =>
    rw [map_cons, nodup_cons] at hnodup
    have hfirst : calls.updateIndex call = true := hcalls 0 (by simp)
    have hrest : ∀ later < rest.length, calls.updateIndex (call + 1 + later) = true := by
      intro later hlater
      have hcall := hcalls (later + 1) (by simpa using hlater)
      rwa [show call + (later + 1) = call + 1 + later by omega] at hcall
    unfold restorePreStaged
    rw [if_pos hfirst]
    rcases mem_cons.mp hmem with hhead | htail
    · subst hhead
      rw [get?_restore_of_not_mem hnodup.1, Dict.get?_set, if_pos rfl]
    · exact ih hrest hnodup.2 htail

theorem exists_not_restored {call : Nat} {entries : List (String × Entry)} {index : Entries}
    (hcalls : ∃ later < entries.length, calls.updateIndex (call + later) = false)
    (hnodup : (entries.map Prod.fst).Nodup) :
    ∃ entry ∈ entries, (restorePreStaged calls call entries index).get? entry.1 = index.get? entry.1 := by
  induction entries generalizing call index with
  | nil =>
    obtain ⟨later, hlater, -⟩ := hcalls
    simp at hlater
  | cons first rest ih =>
    rw [map_cons, nodup_cons] at hnodup
    by_cases hfirst : calls.updateIndex call = true
    · obtain ⟨later, hlater, hfails⟩ := hcalls
      have hpositive : later ≠ 0 := by
        intro hzero
        rw [hzero, Nat.add_zero, hfirst] at hfails
        nomatch hfails
      have hrest : ∃ further < rest.length, calls.updateIndex (call + 1 + further) = false := by
        refine ⟨later - 1, ?_, ?_⟩
        · rw [length_cons] at hlater
          omega
        · rwa [show call + 1 + (later - 1) = call + later by omega]
      obtain ⟨entry, hentry, hsame⟩ := @ih (call + 1) (index.set first.1 first.2) hrest hnodup.2
      have hne : entry.1 ≠ first.1 := fun heq => hnodup.1 (heq ▸ mem_map_of_mem hentry)
      refine ⟨entry, mem_cons_of_mem _ hentry, ?_⟩
      unfold restorePreStaged
      rw [if_pos hfirst, hsame, Dict.get?_set, if_neg hne]
    · refine ⟨first, mem_cons_self, ?_⟩
      unfold restorePreStaged
      rw [if_neg hfirst]

/-! ## The snapshot -/

/-- Git prints the listed names of index entries as they are. -/
def Verbatim (calls : Calls) (chore : Chore) (trees : Trees) : Prop :=
  ∀ path ∈ preStagedOutside calls chore trees, ∀ entry, trees.index.get? path = some entry → calls.printed path = path

theorem snapshot_entries (hverbatim : Verbatim calls chore trees) : (snapshotPreStaged calls trees (preStagedOutside calls chore trees)).entries =
      trees.index.entries.filter fun entry => (preStagedOutside calls chore trees).contains entry.1 := by
  have hsame : ((trees.index.entries.filter fun entry => (preStagedOutside calls chore trees).contains entry.1).map
      fun entry => (calls.printed entry.1, entry.2)) =
      trees.index.entries.filter fun entry => (preStagedOutside calls chore trees).contains entry.1 := by
    refine (map_congr_left (g := id) ?_).trans (map_id _)
    intro entry hentry
    obtain ⟨hmem, hlisted⟩ := mem_filter.mp hentry
    have hget := (Dict.get?_eq_some_iff trees.index entry.1 entry.2).mpr hmem
    rw [hverbatim entry.1 (contains_iff_mem.mp hlisted) entry.2 hget, id]
  unfold snapshotPreStaged
  rw [hsame, Dict.entries_ofList]
  exact trees.index.nodup.sublist (filter_sublist.map Prod.fst)

theorem mem_snapshot (hverbatim : Verbatim calls chore trees) {entry : Entry} :
    (path, entry) ∈ (snapshotPreStaged calls trees (preStagedOutside calls chore trees)).entries ↔
      trees.index.get? path = some entry ∧ path ∈ preStagedOutside calls chore trees := by
  rw [snapshot_entries hverbatim, mem_filter, Dict.get?_eq_some_iff, contains_iff_mem]

theorem staged_of_listed (hverbatim : Verbatim calls chore trees) {entry : Entry}
    (hpath : path ∈ preStagedOutside calls chore trees) (hentry : trees.index.get? path = some entry) :
    trees.head.get? path ≠ trees.index.get? path := by
  obtain ⟨staged, hprinted, hchanged⟩ := exists_of_mem_cachedNames (mem_preStagedOutside.mp hpath).1
  have hsame : staged = path := calls.printed_injective (hprinted.trans (hverbatim path hpath entry hentry).symm)
  rwa [hsame] at hchanged

/-! ## When the frame holds -/

/-- No listed path is deleted in the index, and every entry is put back. -/
def GivesBack (calls : Calls) (chore : Chore) (trees : Trees) : Prop :=
  ∀ dirty, reachesReset calls chore trees = some dirty →
    (∀ path ∈ preStagedOutside calls chore trees,
      trees.head.get? path ≠ trees.index.get? path → trees.index.get? path ≠ none) ∧
    (∀ call < (snapshotPreStaged calls trees (preStagedOutside calls chore trees)).entries.length,
      calls.updateIndex call = true) ∧
    (calls.commits = true → ∀ path, trees.head.get? path ≠ trees.index.get? path →
      chore.takes path = true ∨ path ∈ preStagedOutside calls chore trees)

theorem takes_of_reachesReset (hreaches : reachesReset calls chore trees = some dirty) (hpath : path ∈ dirty) : chore.takes path = true := by
  unfold reachesReset at hreaches
  split at hreaches
  next => exact takes_of_mem_allDirty (Option.filter_eq_some_iff.mp hreaches).1 hpath
  next => nomatch hreaches

theorem takes_of_staged (hreaches : reachesReset calls chore trees = some dirty) (hpath : path ∈ calls.staged dirty) : chore.takes path = true := by
  refine takes_of_reachesReset hreaches ?_
  unfold Calls.staged at hpath
  split at hpath
  next => exact hpath
  next => exact mem_of_mem_filter hpath

theorem get?_staged (calls : Calls) (chore : Chore) (trees : Trees) (dirty : List String) (path : String) :
    (trees.work.takeFrom (calls.staged dirty) (trees.head.takeFrom (preStagedOutside calls chore trees) trees.index)).get? path =
      if path ∈ calls.staged dirty then trees.work.get? path
      else if path ∈ preStagedOutside calls chore trees then trees.head.get? path else trees.index.get? path := by
  rw [get?_takeFrom, get?_takeFrom]

theorem head_commitDirty (path : String) : (commitDirty calls chore trees dirty).head.get? path = if calls.commits = true then
      if path ∈ calls.staged dirty then trees.work.get? path
      else if path ∈ preStagedOutside calls chore trees then trees.head.get? path else trees.index.get? path
    else trees.head.get? path := by
  unfold commitDirty
  cases calls.commits with
  | true => exact get?_staged calls chore trees dirty path
  | false => rfl

theorem get?_staged_outside (hreaches : reachesReset calls chore trees = some dirty) (hscope : pathInScope path chore.scopes = false) :
    (trees.work.takeFrom (calls.staged dirty) (trees.head.takeFrom (preStagedOutside calls chore trees) trees.index)).get? path =
      if path ∈ preStagedOutside calls chore trees then trees.head.get? path else trees.index.get? path := by
  have hstaged : path ∉ calls.staged dirty := by
    intro hmem
    rw [inScope_of_takes (takes_of_staged hreaches hmem)] at hscope
    nomatch hscope
  rw [get?_staged, if_neg hstaged]

theorem kept_of_givesBack (hverbatim : Verbatim calls chore trees) (hgives : GivesBack calls chore trees) :
    Kept chore trees (commitScopedUpdates calls chore trees) := by
  unfold commitScopedUpdates
  cases hreaches : reachesReset calls chore trees with
  | none => exact ⟨fun path hchanged => absurd rfl hchanged, fun _ _ => rfl⟩
  | some dirty =>
    obtain ⟨hentries, hcalls, hcommit⟩ := hgives dirty hreaches
    constructor
    · intro path hchanged
      rw [head_commitDirty] at hchanged
      cases hcommits : calls.commits with
      | false => simp [hcommits] at hchanged
      | true =>
        rw [hcommits, if_pos rfl] at hchanged
        by_cases hstaged : path ∈ calls.staged dirty
        · exact takes_of_staged hreaches hstaged
        · by_cases hlisted : path ∈ preStagedOutside calls chore trees
          · simp [hstaged, hlisted] at hchanged
          · rw [if_neg hstaged, if_neg hlisted] at hchanged
            exact (hcommit hcommits path (Ne.symm hchanged)).resolve_right hlisted
    · intro path hscope
      show (restorePreStaged calls 0 _ _).get? path = _
      by_cases hkey : path ∈ (snapshotPreStaged calls trees (preStagedOutside calls chore trees)).entries.map Prod.fst
      · obtain ⟨⟨_, entry⟩, hmem, rfl⟩ := mem_map.mp hkey
        rw [get?_restore_of_mem (fun later hlater => by rw [Nat.zero_add]; exact hcalls later hlater)
          (Dict.nodup _) hmem]
        exact ((mem_snapshot hverbatim).mp hmem).1.symm
      · rw [get?_restore_of_not_mem hkey, get?_staged_outside hreaches hscope]
        by_cases hlisted : path ∈ preStagedOutside calls chore trees
        · rw [if_pos hlisted]
          by_contra hchanged
          obtain ⟨entry, hentry⟩ := Option.ne_none_iff_exists'.mp (hentries path hlisted hchanged)
          exact hkey (mem_map.mpr ⟨(path, entry), (mem_snapshot hverbatim).mpr ⟨hentry, hlisted⟩, rfl⟩)
        · rw [if_neg hlisted]

theorem givesBack_of_kept (hverbatim : Verbatim calls chore trees)
    (hkept : Kept chore trees (commitScopedUpdates calls chore trees)) : GivesBack calls chore trees := by
  intro dirty hreaches
  unfold commitScopedUpdates at hkept
  rw [hreaches] at hkept
  refine ⟨?_, ?_, ?_⟩
  · intro path hlisted hchanged hdeleted
    have hscope := (mem_preStagedOutside.mp hlisted).2
    have hkey : path ∉ (snapshotPreStaged calls trees (preStagedOutside calls chore trees)).entries.map Prod.fst := by
      intro hmem
      obtain ⟨⟨_, entry⟩, hentry, rfl⟩ := mem_map.mp hmem
      rw [((mem_snapshot hverbatim).mp hentry).1] at hdeleted
      nomatch hdeleted
    have hindex : (restorePreStaged calls 0 _ _).get? path = _ := hkept.index path hscope
    rw [get?_restore_of_not_mem hkey, get?_staged_outside hreaches hscope, if_pos hlisted] at hindex
    exact hchanged hindex
  · intro call hcall
    by_contra hfails
    obtain ⟨entry, hentry, hsame⟩ := exists_not_restored
      ⟨call, hcall, by rw [Nat.zero_add]; exact Bool.eq_false_iff.mpr hfails⟩ (Dict.nodup _)
    obtain ⟨hget, hlisted⟩ := (mem_snapshot hverbatim).mp hentry
    have hscope := (mem_preStagedOutside.mp hlisted).2
    have hindex := hkept.index entry.1 hscope
    have hrestored : (restorePreStaged calls 0 _ _).get? entry.1 = _ := hindex
    rw [hsame, get?_staged_outside hreaches hscope, if_pos hlisted] at hrestored
    exact staged_of_listed hverbatim hlisted hget hrestored
  · intro hcommits path hchanged
    by_cases hlisted : path ∈ preStagedOutside calls chore trees
    · exact .inr hlisted
    · by_cases hstaged : path ∈ calls.staged dirty
      · exact .inl (takes_of_staged hreaches hstaged)
      · have hhead := hkept.committed path
        rw [head_commitDirty, hcommits, if_pos rfl, if_neg hstaged, if_neg hlisted] at hhead
        exact .inl (hhead (Ne.symm hchanged))

/-- A chore commit keeps to its own paths and gives the index back exactly when `GivesBack`. -/
theorem commitScopedUpdates_kept_iff (hverbatim : Verbatim calls chore trees) :
    Kept chore trees (commitScopedUpdates calls chore trees) ↔ GivesBack calls chore trees :=
  ⟨givesBack_of_kept hverbatim, kept_of_givesBack hverbatim⟩

end

/-! ## A staged deletion and an excluded path -/

def blob (name : String) : Entry := ⟨"100644", name⟩

def goodCalls : Calls where
  opened := true
  status := fun _ => some [" M skills/a"]
  diff := true
  lsFiles := true
  reset := true
  stageStops := none
  body := true
  commit := true
  updateIndex := fun _ => true
  renamedFrom := fun _ => false
  printed := id
  printed_injective := fun _ _ heq => heq

def skillsChore : Chore where
  scopes := ["skills/"]
  exclude := ["skills/b"]
  pathFilter := fun _ => true

def skillsTrees (staged : List (String × Entry)) (hnodup : (("skills/a" :: staged.map Prod.fst)).Nodup) : Trees where
  head := ⟨[("skills/a", blob "a1"), ("skills/b", blob "b1"), ("notes", blob "n1")], by decide⟩
  index := ⟨("skills/a", blob "a1") :: staged, hnodup⟩
  work := ⟨[("skills/a", blob "a2"), ("skills/b", blob "b1"), ("notes", blob "n1")], by decide⟩

def modifiedNotes : Trees := skillsTrees [("skills/b", blob "b1"), ("notes", blob "n2")] (by decide)

def deletedNotes : Trees := skillsTrees [("skills/b", blob "b1")] (by decide)

def excludedStaged : Trees := skillsTrees [("skills/b", blob "b2"), ("notes", blob "n1")] (by decide)

theorem modifiedNotes_kept : Kept skillsChore modifiedNotes (commitScopedUpdates goodCalls skillsChore modifiedNotes) := by
  refine (commitScopedUpdates_kept_iff fun path _ entry _ => rfl).mpr ?_
  intro dirty _
  have hnames : cachedNames goodCalls modifiedNotes = ["notes"] := by decide +kernel
  have hlisted : "notes" ∈ preStagedOutside goodCalls skillsChore modifiedNotes := by decide +kernel
  refine ⟨?_, fun _ _ => rfl, ?_⟩
  · intro path hpath _
    have hmem := (mem_preStagedOutside.mp hpath).1
    rw [hnames, mem_singleton] at hmem
    subst hmem
    decide
  · intro _ path hchanged
    have hmem : path ∈ cachedNames goodCalls modifiedNotes := mem_cachedNames hchanged rfl
    rw [hnames, mem_singleton] at hmem
    subst hmem
    exact .inr hlisted

/-- After the call the deleted `notes` is back in the index; an excluded staged change is part of the commit. -/
theorem staged_deletion_returns : ¬ Kept skillsChore deletedNotes (commitScopedUpdates goodCalls skillsChore deletedNotes) ∧
      ¬ Kept skillsChore excludedStaged (commitScopedUpdates goodCalls skillsChore excludedStaged) := by
  constructor
  · intro hkept
    exact absurd (hkept.index "notes" (by decide +kernel)) (by decide +kernel)
  · intro hkept
    exact absurd (hkept.committed "skills/b" (by decide +kernel)) (by decide +kernel)

end RalphWorkflow.Git
