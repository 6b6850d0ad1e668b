import RalphWorkflow.Lib.Run
import RalphWorkflow.Proof.Explore.Steps

/-! A path that was changed and marked since a reindex that ended ok last read it belongs into the dirty queue of the live store. -/
namespace RalphWorkflow.Explore

open Lib Lib.Run Option

variable {Content Fact : Type} {x : Indexer Content Fact} {disk : Disk Content}

/-! ## What is read -/

def Job.reads? (disk : Disk Content) (job : Job Fact) : Option String :=
  let readable (path : String) : Option String := if (disk.get? path).any DiskFile.readable then some path else none
  match job.phase with
  | .hashing path _ _ => readable path
  | .extracting found _ => readable found.path
  | _ => none

namespace Reindex

def removes? : Reindex Fact → Option String
  | .changed job =>
    match job.phase with
    | .removing (path :: _) => some path
    | _ => none
  | .full _ _ | .done _ => none

end Reindex

/-- How often each path was changed, when it was last marked, and up to which change it was read. -/
structure Watched (Content Fact : Type) where
  system : System Content Fact
  versions : String → Nat := fun _ => 0
  marked : Dict String Nat := ∅
  reads : Nat → String → Nat := fun _ _ => 0
  indexed : String → Nat := fun _ => 0

namespace Watched

def start (disk : Disk Content) (store : Store Fact) : Watched Content Fact where
  system := { disk, store }

def markedVersion (w : Watched Content Fact) (path : String) : Nat := w.marked.getD path 0

def call? (w : Watched Content Fact) (index : Nat) : Option (Reindex Fact) := w.system.reindexes[index]?

def readsAfter (w : Watched Content Fact) (index : Nat) : Nat → String → Nat :=
  match (w.call? index).bind Reindex.job? |>.bind (Job.reads? w.system.disk) with
  | some path => Function.update w.reads index (Function.update (w.reads index) path (w.versions path))
  | none => w.reads

def indexedAfter (w : Watched Content Fact) (index : Nat) : String → Nat :=
  if (w.call? index).any Reindex.succeeds then fun path => max (w.indexed path) (w.reads index path) else w.indexed

def observe (w : Watched Content Fact) (move : SystemMove Content) (next : System Content Fact) : Watched Content Fact :=
  match move with
  | .write path _ | .delete path =>
    { w with system := next, versions := Function.update w.versions path (w.versions path + 1) }
  | .mark _ path _ _ => { w with system := next, marked := w.marked.set path (w.versions path) }
  | .reindex index .advance => { w with system := next, reads := w.readsAfter index, indexed := w.indexedAfter index }
  | .workflowHook | .begin _ _ | .reindex _ _ => { w with system := next }

def step (x : Indexer Content Fact) (w : Watched Content Fact) (move : SystemMove Content) : Option (Watched Content Fact) :=
  (w.system.step x move).map (w.observe move)

/-! ## Marks -/

/-- The path was changed and marked after a call that succeeded last read it. -/
def Owed (w : Watched Content Fact) (path : String) : Prop := w.indexed path < w.markedVersion path

def Kept (w : Watched Content Fact) : Prop := ∀ path, w.Owed path → path ∈ w.system.store.dirtyPaths

/-- The call has read the path since it was last changed and marked, or a call that succeeded has. -/
def ReadBy (w : Watched Content Fact) (index : Nat) (path : String) : Prop :=
  w.markedVersion path ≤ w.reads index path ∨ w.markedVersion path ≤ w.indexed path

/-- What a removal or a publication loses from the queue was read since it was changed and marked. -/
def DropsRead (w : Watched Content Fact) (index : Nat) : Option (Reindex Fact) → Prop
  | some (.changed job) => ∀ path ∈ (Reindex.changed job).removes?, w.ReadBy index path
  | some (.full _ job) => job.status? = some .ok → ∀ path ∈ w.marked.keys, w.ReadBy index path
  | some (.done _) | none => True

/-- A mark waits for a path that is queued or was read, and only what was read is dropped from the queue. -/
def InTime (w : Watched Content Fact) : SystemMove Content → Prop
  | .mark handle path _ _ =>
    (handle, path) ∈ w.system.marks.pendingMarks →
      path ∈ w.system.store.dirtyPaths ∨ w.versions path ≤ w.indexed path
  | .reindex index .advance => w.DropsRead index (w.call? index)
  | .write _ _ | .delete _ | .workflowHook | .begin _ _ | .reindex _ (.stop _) | .reindex _ .fail => True

instance (w : Watched Content Fact) (index : Nat) (path : String) : Decidable (w.ReadBy index path) :=
  inferInstanceAs (Decidable (_ ∨ _))

instance (w : Watched Content Fact) (index : Nat) : (call : Option (Reindex Fact)) → Decidable (w.DropsRead index call)
  | some (.changed job) => inferInstanceAs (Decidable (∀ path ∈ (Reindex.changed job).removes?, _))
  | some (.full _ _) => inferInstanceAs (Decidable (_ → _))
  | some (.done _) | none => .isTrue trivial

instance (w : Watched Content Fact) : (move : SystemMove Content) → Decidable (w.InTime move)
  | .mark _ _ _ _ => inferInstanceAs (Decidable (_ → _ ∨ _))
  | .reindex _ .advance => inferInstanceAs (Decidable (w.DropsRead _ _))
  | .write _ _ | .delete _ | .workflowHook | .begin _ _ | .reindex _ (.stop _) | .reindex _ .fail => .isTrue trivial

/-! ## Steps -/

variable {w next : Watched Content Fact} {move : SystemMove Content}

/-- Besides: staged stores have an empty queue, and a changed reindex has read once it removes paths. -/
structure Sound (w : Watched Content Fact) : Prop where
  kept : w.Kept
  staged : ∀ index staging job, w.call? index = some (.full staging job) → staging.dirtyPaths = []
  settled : ∀ index job paths, w.call? index = some (.changed job) → job.phase = .removing paths →
    ∀ path, w.reads index path ≤ w.indexed path

theorem start_sound (disk : Disk Content) (store : Store Fact) : (start disk store).Sound where
  kept _ howed := absurd howed (Nat.not_lt_zero _)
  staged _ _ _ hcall := by cases hcall
  settled _ _ _ hcall := by cases hcall

theorem indexed_le (w : Watched Content Fact) (index : Nat) (path : String) : w.indexed path ≤ w.indexedAfter index path := by
  unfold indexedAfter
  split
  · exact Nat.le_max_left _ _
  · exact Nat.le_refl _

variable {index : Nat} {job : Job Fact} {s : System Content Fact} {path : String}

theorem reads_other (w : Watched Content Fact) {other : Nat} (h : other ≠ index) : w.readsAfter index other = w.reads other := by
  unfold readsAfter
  cases (w.call? index).bind Reindex.job? |>.bind (Job.reads? w.system.disk) with
  | some path => exact Function.update_of_ne h _ _
  | none => rfl

theorem reads_of_idle (hcall : w.call? index = some (.changed job)) (hidle : job.reads? w.system.disk = none) : w.readsAfter index = w.reads := by
  unfold readsAfter
  rw [hcall]
  simp only [bind_some, Reindex.job?, hidle]

theorem indexed_of_succeeds {call : Reindex Fact} (hcall : w.call? index = some call)
    (hsucceeds : call.succeeds = true) (path : String) : w.indexedAfter index path = max (w.indexed path) (w.reads index path) := by
  unfold indexedAfter
  rw [hcall, any_some, if_pos hsucceeds]

theorem step_eq (h : w.step x move = some next) : ∃ s, w.system.step x move = some s ∧ next = w.observe move s := by
  obtain ⟨s, hs, heq⟩ := map_eq_some_iff.mp h
  exact ⟨s, hs, heq.symm⟩

theorem owed_before {move : JobMove} (h : (w.observe (.reindex index move) s).Owed path) : w.Owed path := by
  cases move with
  | advance => exact Nat.lt_of_le_of_lt (w.indexed_le index path) h
  | stop | fail => exact h

theorem Sound.not_owed (h : w.Sound) {paths : List String}
    (hcall : w.call? index = some (.changed job)) (hphase : job.phase = .removing (path :: paths)) (hread : w.ReadBy index path) :
    ¬w.Owed path := by
  have hle : w.markedVersion path ≤ w.indexed path := by
    rcases hread with hread | hindexed
    · exact Nat.le_trans hread (h.settled index job _ hcall hphase path)
    · exact hindexed
  exact Nat.not_lt_of_le hle

theorem Sound.kept_reindex (h : w.Sound) {move : JobMove}
    (htime : w.InTime (.reindex index move)) (hstep : w.system.step x (.reindex index move) = some s) :
    (w.observe (.reindex index move) s).Kept := by
  intro path howed
  have hbefore : path ∈ w.system.store.dirtyPaths := h.kept path (owed_before howed)
  obtain ⟨call, live', call', hcall, hsteps, rfl⟩ := System.step_reindex_eq hstep
  have hqueue : (w.observe (.reindex index move) { w.system with
      store := live', reindexes := w.system.reindexes.set index call' }).system.store.dirtyPaths = live'.dirtyPaths := by
    cases move <;> rfl
  rw [hqueue]
  cases hsteps with
  | changed hjob =>
    rcases hjob.dirtyPaths with hsame | ⟨removed, paths, rfl, hphase, rfl⟩
    · rwa [hsame]
    · have hread : w.ReadBy index removed := by
        simp only [InTime, call?, hcall, DropsRead] at htime
        exact htime removed (by simp only [Reindex.removes?, hphase, mem_some_iff])
      have hne : path ≠ removed := by
        rintro rfl
        exact h.not_owed hcall hphase hread (owed_before howed)
      exact (Store.mem_removeDirtyPath _ _ _).mpr ⟨hbefore, hne⟩
  | staged hok hjob => exact hbefore
  | published hok =>
    cases move with
    | stop | fail => exact hbefore
    | advance =>
      exfalso
      simp only [InTime, call?, hcall, DropsRead] at htime
      have hcounts : w.indexedAfter index path = max (w.indexed path) (w.reads index path) :=
        indexed_of_succeeds hcall (by simp [Reindex.succeeds, hok]) path
      have hlt : w.indexedAfter index path < w.markedVersion path := howed
      have hkey : path ∈ w.marked.keys := by
        by_contra hkey
        rw [Dict.mem_keys_iff, Bool.not_eq_true] at hkey
        have hzero : w.markedVersion path = 0 := by
          have hnone : w.marked.get? path = none := by simpa [Dict.contains] using hkey
          unfold markedVersion Dict.getD
          rw [hnone]
          rfl
        omega
      rcases htime hok path hkey with hread | hindexed <;> omega

theorem Sound.staged_reindex (h : w.Sound) {move : JobMove}
    (hstep : w.system.step x (.reindex index move) = some s) {other : Nat} {staging : Store Fact}
    (hother : s.reindexes[other]? = some (.full staging job)) : staging.dirtyPaths = [] := by
  obtain ⟨call, live', call', hcall, hsteps, rfl⟩ := System.step_reindex_eq hstep
  rcases getElem?_set_cases hcall hother with ⟨rfl, heq⟩ | ⟨-, hbefore⟩
  · cases hsteps with
    | changed => exact (Reindex.ofJob_ne_full heq.symm).elim
    | published => exact (Reindex.publish_ne_full heq.symm).elim
    | staged hok hjob =>
      obtain ⟨rfl, rfl⟩ := Reindex.ofStaged_eq_full heq.symm
      have hempty := h.staged _ _ _ hcall
      rcases hjob.dirtyPaths with hsame | ⟨removed, paths, -, -, rfl⟩
      · rw [hsame, hempty]
      · simp [Store.removeDirtyPath, hempty]
  · exact h.staged _ _ _ hbefore

theorem Sound.settled_reindex (h : w.Sound) {move : JobMove}
    (hstep : w.system.step x (.reindex index move) = some s) {other : Nat} {paths : List String}
    (hother : s.reindexes[other]? = some (.changed job)) (hphase : job.phase = .removing paths) (path : String) :
    (w.observe (.reindex index move) s).reads other path ≤ (w.observe (.reindex index move) s).indexed path := by
  obtain ⟨call, live', call', hcall, hsteps, rfl⟩ := System.step_reindex_eq hstep
  rcases getElem?_set_cases hcall hother with ⟨rfl, heq⟩ | ⟨hne, hbefore⟩
  · cases hsteps with
    | staged => exact (Reindex.ofStaged_ne_changed heq.symm).elim
    | published => exact (Reindex.publish_ne_changed heq.symm).elim
    | @changed before job' _ hjob =>
      obtain ⟨rfl, -⟩ := Reindex.ofJob_eq_changed heq.symm
      obtain ⟨rfl, hfrom⟩ := hjob.removing hphase
      have hidle : before.reads? w.system.disk = none := by
        rcases hfrom with hcommit | ⟨removed, hremove⟩
        · simp only [Job.reads?, hcommit]
        · simp only [Job.reads?, hremove]
      show w.readsAfter other other path ≤ w.indexedAfter other path
      rw [reads_of_idle hcall hidle]
      rcases hfrom with hcommit | ⟨removed, hremove⟩
      · have hsucceeds : (Reindex.changed before).succeeds = true := by simp only [Reindex.succeeds, hcommit]
        rw [indexed_of_succeeds hcall hsucceeds]
        exact Nat.le_max_right _ _
      · exact Nat.le_trans (h.settled _ _ _ hcall hremove path) (w.indexed_le other path)
  · have hle : w.reads other path ≤ w.indexed path := h.settled _ _ _ hbefore hphase path
    cases move with
    | stop | fail => exact hle
    | advance =>
      show w.readsAfter index other path ≤ w.indexedAfter index path
      rw [w.reads_other hne]
      exact Nat.le_trans hle (w.indexed_le index path)

theorem owed_mark {handle : Nat} {marked : String} {markedAt polledAt : ℚ} : (w.observe (.mark handle marked markedAt polledAt) s).Owed path ↔
      if path = marked then w.indexed path < w.versions path else w.Owed path := by
  show w.indexed path < (w.marked.set marked (w.versions marked)).getD path 0 ↔ _
  rw [Dict.getD_set]
  by_cases heq : path = marked
  · rw [if_pos heq, if_pos heq, heq]
  · rw [if_neg heq, if_neg heq]
    exact Iff.rfl

theorem mem_enqueueMark {store : Store Fact} {marks : DirtyMarks} {handle : Nat} {marked : String} :
    path ∈ (store.enqueueMark marks handle marked).dirtyPaths ↔
      path ∈ store.dirtyPaths ∨ (path = marked ∧ (handle, marked) ∉ marks.pendingMarks) := by
  unfold Store.enqueueMark
  by_cases hpending : (handle, marked) ∈ marks.pendingMarks
  · simp [hpending]
  · rw [if_neg hpending, Store.mem_markDirty]
    simp [hpending, or_comm]

theorem sound_step (h : w.Sound) (htime : w.InTime move) (hstep : w.step x move = some next) : next.Sound := by
  obtain ⟨s, hs, rfl⟩ := step_eq hstep
  cases move with
  | write path file =>
    cases hs
    exact ⟨h.kept, h.staged, h.settled⟩
  | delete path =>
    cases hs
    exact ⟨h.kept, h.staged, h.settled⟩
  | workflowHook =>
    cases hs
    exact ⟨h.kept, h.staged, h.settled⟩
  | mark handle marked markedAt polledAt =>
    obtain ⟨-, hs⟩ := ite_none_right_eq_some.mp hs
    cases hs
    refine ⟨fun path howed => mem_enqueueMark.mpr ?_, h.staged, h.settled⟩
    rw [owed_mark] at howed
    by_cases heq : path = marked
    · subst heq
      rw [if_pos rfl] at howed
      by_cases hpending : (handle, path) ∈ w.system.marks.pendingMarks
      · exact .inl ((htime hpending).resolve_right (Nat.not_le_of_lt howed))
      · exact .inr ⟨rfl, hpending⟩
    · rw [if_neg heq] at howed
      exact .inl (h.kept path howed)
  | begin mode pathScope =>
    cases hs
    refine ⟨h.kept, fun index staging job hcall => ?_, fun index job paths hcall hphase => ?_⟩
    · rcases System.mem_begin hcall with hbefore | heq
      · exact h.staged _ _ _ hbefore
      · cases mode <;> cases heq
        rfl
    · rcases System.mem_begin hcall with hbefore | heq
      · exact h.settled _ _ _ hbefore hphase
      · cases mode <;> cases heq
        cases hphase
  | reindex index move =>
    have hsystem : (w.observe (.reindex index move) s).system = s := by cases move <;> rfl
    refine ⟨h.kept_reindex htime hs, fun other staging job hcall => ?_, fun other job paths hcall hphase => ?_⟩
    · rw [call?, hsystem] at hcall
      exact h.staged_reindex hs hcall
    · rw [call?, hsystem] at hcall
      exact h.settled_reindex hs hcall hphase

theorem removing_of_removes (h : path ∈ (Reindex.changed job).removes?) : ∃ paths, job.phase = .removing (path :: paths) := by
  simp only [Reindex.removes?] at h
  split at h
  · rename_i hphase
    cases h
    exact ⟨_, hphase⟩
  · cases h

theorem inTime_of_kept (h : w.Sound) (hstep : w.step x move = some next) (hkept : next.Kept) : w.InTime move := by
  obtain ⟨s, hs, rfl⟩ := step_eq hstep
  cases move with
  | write | delete | workflowHook | begin => trivial
  | mark handle marked markedAt polledAt =>
    intro hpending
    obtain ⟨-, hs⟩ := ite_none_right_eq_some.mp hs
    cases hs
    by_cases hread : w.versions marked ≤ w.indexed marked
    · exact .inr hread
    · have howed := hkept marked (owed_mark.mpr (by rw [if_pos rfl]; omega))
      rcases mem_enqueueMark.mp howed with hqueued | ⟨-, hnew⟩
      · exact .inl hqueued
      · exact absurd hpending hnew
  | reindex index move =>
    cases move with
    | stop | fail => trivial
    | advance =>
      obtain ⟨call, live', call', hcall, hsteps, rfl⟩ := System.step_reindex_eq hs
      simp only [InTime, call?, hcall, DropsRead]
      cases hsteps with
      | staged hok => exact fun heq => absurd heq hok
      | @published staging job hok =>
        intro _ path _
        have hempty : path ∉ staging.dirtyPaths := by
          rw [h.staged _ _ _ hcall]
          exact List.not_mem_nil
        have hle : w.markedVersion path ≤ w.indexedAfter index path :=
          Nat.le_of_not_lt fun howed => hempty (hkept path howed)
        rw [indexed_of_succeeds hcall (by simp [Reindex.succeeds, hok])] at hle
        exact (le_max_iff.mp hle).symm
      | @changed job job' _ hjob =>
        intro removed hremoves
        obtain ⟨paths, hphase⟩ := removing_of_removes hremoves
        have hgone : removed ∉ live'.dirtyPaths := by
          rw [hjob.removes hphase, Store.mem_removeDirtyPath]
          exact fun hmem => hmem.2 rfl
        have hle : w.markedVersion removed ≤ w.indexedAfter index removed :=
          Nat.le_of_not_lt fun howed => hgone (hkept removed howed)
        have hplain : w.indexedAfter index = w.indexed := by
          unfold indexedAfter call?
          rw [hcall]
          simp [Reindex.succeeds, hphase]
        exact .inr (hplain ▸ hle)

/-! ## Runs -/

/-- With all steps in time every mark is kept, and of the next steps those in time keep every mark. -/
theorem marks_kept_iff {disk : Disk Content} {store : Store Fact} {moves : List (SystemMove Content)}
    (hrun : run (step x) (start disk store) moves = some w)
    (htime : Throughout (step x) (fun w move _ => w.InTime move) (start disk store) moves) :
    w.Kept ∧ ∀ move next, w.step x move = some next → (next.Kept ↔ w.InTime move) := by
  have hkeeps : ∀ (w : Watched Content Fact) move next, w.Sound → w.InTime move → w.step x move = some next → next.Sound :=
    fun _ _ _ h hmove hstep => sound_step h hmove hstep
  have hsound : w.Sound := htime.invariant hkeeps (start_sound disk store) hrun
  refine ⟨hsound.kept, fun move next hstep => ⟨inTime_of_kept hsound hstep, fun hmove => ?_⟩⟩
  exact (sound_step hsound hmove hstep).kept

def writtenOnce : List (SystemMove String) :=
  [.write "a" { content := "1", mtimeNs := 1 }, .mark 0 "a" 0 0, .begin .changed []] ++
    List.replicate 11 (.reindex 0 .advance)

theorem written_once_kept : ((run (step plainIndexer) (start ∅ {}) writtenOnce).get (by decide +kernel)).Kept :=
  (marks_kept_iff (some_get _).symm (by decide +kernel)).1

/-- A file written and marked again after its read is removed from the queue at the end. -/
theorem mark_lost_during_reindex : ∃ w, run (step plainIndexer) (start ∅ {})
        ([.write "a" { content := "1", mtimeNs := 1 }, .mark 0 "a" 0 0, .begin .changed []] ++
          List.replicate 4 (.reindex 0 .advance) ++
          [.write "a" { content := "2", mtimeNs := 2 }, .mark 0 "a" 1 1] ++
          List.replicate 6 (.reindex 0 .advance)) = some w ∧
      w.Owed "a" ∧ "a" ∉ w.system.store.dirtyPaths := by
  refine ⟨_, (some_get (by decide +kernel)).symm, ?_, ?_⟩
  · show _ < _
    decide +kernel
  · decide +kernel

end Watched

end RalphWorkflow.Explore
