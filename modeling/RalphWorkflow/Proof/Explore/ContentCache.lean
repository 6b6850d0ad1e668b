import RalphWorkflow.Lib.Run
import RalphWorkflow.Proof.Explore.Steps

/-! A payload under a content hash, and the stored chunks of an indexed path, are the chunks of a text with that hash. What every step of a job
keeps, every step of the system keeps, of all its stores and jobs. -/
namespace RalphWorkflow.Explore

open Lib Lib.Run

/-! ## Invariants of jobs -/

section Invariants

variable {Content Fact : Type} {x : Indexer Content Fact}

/-- A property of stores and of phases that a job keeps by the steps that meet a condition. -/
structure JobInvariant (x : Indexer Content Fact) (OfStore : Store Fact → Prop) (OfPhase : Phase Fact → Prop)
    (Meets : Disk Content → Store Fact → Phase Fact → Prop) : Prop where
  empty : OfStore {}
  queue : ∀ store dirtyPaths, OfStore store → OfStore { store with dirtyPaths }
  visiting : ∀ manifest, OfPhase (.visiting manifest)
  step : ∀ {disk : Disk Content} {store store' : Store Fact} {job job' : Job Fact} {move : JobMove},
    OfStore store → OfPhase job.phase → (move = .advance → Meets disk store job.phase) →
      Job.Steps x disk store job move store' job' → OfStore store' ∧ OfPhase job'.phase

namespace System

variable {s next : System Content Fact} {move : SystemMove Content} {OfStore : Store Fact → Prop} {OfPhase : Phase Fact → Prop}
  {Meets : Disk Content → Store Fact → Phase Fact → Prop}

def HasStore (s : System Content Fact) (store : Store Fact) : Prop :=
  store = s.store ∨ ∃ (index : Nat) (job : Job Fact), s.reindexes[index]? = some (.full store job)

structure Everywhere (OfStore : Store Fact → Prop) (OfPhase : Phase Fact → Prop) (s : System Content Fact) : Prop where
  stores : ∀ store, s.HasStore store → OfStore store
  jobs : ∀ (index : Nat) call job, s.reindexes[index]? = some call → call.job? = some job → OfPhase job.phase

def MeetsAt (Meets : Disk Content → Store Fact → Phase Fact → Prop) (disk : Disk Content) : Option (Store Fact × Job Fact) → Prop
  | some (store, job) => Meets disk store job.phase
  | none => True

def MoveMeets (Meets : Disk Content → Store Fact → Phase Fact → Prop) (s : System Content Fact) : SystemMove Content → Prop
  | .reindex index .advance => MeetsAt Meets s.disk (s.work? index)
  | .write _ _ | .delete _ | .mark _ _ _ _ | .workflowHook | .begin _ _ | .reindex _ (.stop _) | .reindex _ .fail => True

instance [∀ disk store phase, Decidable (Meets disk store phase)] (disk : Disk Content) :
    (work : Option (Store Fact × Job Fact)) → Decidable (MeetsAt Meets disk work)
  | some (_, _) => inferInstanceAs (Decidable (Meets _ _ _))
  | none => .isTrue trivial

instance [∀ disk store phase, Decidable (Meets disk store phase)] (s : System Content Fact) :
    (move : SystemMove Content) → Decidable (s.MoveMeets Meets move)
  | .reindex _ .advance => inferInstanceAs (Decidable (MeetsAt _ _ _))
  | .write _ _ | .delete _ | .mark _ _ _ _ | .workflowHook | .begin _ _ | .reindex _ (.stop _) | .reindex _ .fail => .isTrue trivial

theorem hasStore_of_work {index : Nat} {store : Store Fact} {job : Job Fact} (h : s.work? index = some (store, job)) : s.HasStore store := by
  obtain ⟨call, hcall, hwork⟩ := work?_eq_some.mp h
  cases call with
  | changed job =>
    cases hwork
    exact .inl rfl
  | full staging job =>
    obtain ⟨-, hwork⟩ := Option.ite_none_left_eq_some.mp hwork
    cases hwork
    exact .inr ⟨index, _, hcall⟩
  | done status => cases hwork

theorem start_everywhere (h : JobInvariant x OfStore OfPhase Meets) (disk : Disk Content) :
    Everywhere OfStore OfPhase ({ disk, store := {} } : System Content Fact) where
  stores store hstore := by
    rcases hstore with rfl | ⟨index, job, hcall⟩
    · exact h.empty
    · cases hcall
  jobs _ _ _ hcall := by cases hcall

theorem Everywhere.reindex (hinv : JobInvariant x OfStore OfPhase Meets) (h : s.Everywhere OfStore OfPhase) {index : Nat}
    {move : JobMove} (hmeets : s.MoveMeets Meets (.reindex index move)) (hstep : s.step x (.reindex index move) = some next) :
    next.Everywhere OfStore OfPhase := by
  obtain ⟨call, live', call', hcall, hsteps, rfl⟩ := step_reindex_eq hstep
  -- the calls other than this one, and what they build, are as before
  suffices hnext : OfStore live' ∧ (∀ staging job, call' = .full staging job → OfStore staging) ∧
      ∀ job, call'.job? = some job → OfPhase job.phase by
    obtain ⟨hlive, hstaging, hjob⟩ := hnext
    refine ⟨fun store hstore => ?_, fun other found job hfound hjob' => ?_⟩
    · rcases hstore with rfl | ⟨other, job, hother⟩
      · exact hlive
      · rcases getElem?_set_cases hcall hother with ⟨-, heq⟩ | ⟨-, hbefore⟩
        · exact hstaging _ _ heq.symm
        · exact h.stores store (.inr ⟨other, job, hbefore⟩)
    · rcases getElem?_set_cases hcall hfound with ⟨-, rfl⟩ | ⟨-, hbefore⟩
      · exact hjob job hjob'
      · exact h.jobs other found job hbefore hjob'
  have hmeetsJob : ∀ store job, call.work s.store = some (store, job) → move = .advance → Meets s.disk store job.phase := by
    rintro store job hwork rfl
    have hwork? : s.work? index = some (store, job) := work?_eq_some.mpr ⟨call, hcall, hwork⟩
    simpa only [MoveMeets, hwork?, MeetsAt] using hmeets
  cases hsteps with
  | @changed job job' _ hjob =>
    have hkept := hinv.step (h.stores s.store (.inl rfl)) (h.jobs index _ job hcall rfl) (hmeetsJob s.store job rfl) hjob
    refine ⟨hkept.1, fun staging staged heq => (Reindex.ofJob_ne_full heq).elim, fun job'' hjob'' => ?_⟩
    cases hstatus : job'.status? with
    | none =>
      simp only [Reindex.ofJob, hstatus, Reindex.job?, Option.some.injEq] at hjob''
      exact hjob'' ▸ hkept.2
    | some status => simp [Reindex.ofJob, hstatus, Reindex.job?] at hjob''
  | @staged staging staging' job job' hok hjob =>
    have hkept := hinv.step (h.stores staging (.inr ⟨index, job, hcall⟩)) (h.jobs index _ job hcall rfl)
      (hmeetsJob staging job (if_neg hok)) hjob
    refine ⟨h.stores s.store (.inl rfl), fun store staged heq => ?_, fun job'' hjob'' => ?_⟩
    · obtain ⟨rfl, -⟩ := Reindex.ofStaged_eq_full heq
      exact hkept.1
    · unfold Reindex.ofStaged at hjob''
      split at hjob''
      · exact Option.some.inj hjob'' ▸ hkept.2
      · exact Option.some.inj hjob'' ▸ hkept.2
      · cases hjob''
  | @published staging job hok =>
    have hstaging := h.stores staging (.inr ⟨index, job, hcall⟩)
    have hlive := h.stores s.store (.inl rfl)
    refine ⟨?_, fun store staged heq => (Reindex.publish_ne_full heq).elim, fun job'' hjob'' => ?_⟩
    · cases move with
      | advance => exact hstaging
      | stop | fail => exact hlive
    · cases move <;> cases hjob''

theorem everywhere_step (hinv : JobInvariant x OfStore OfPhase Meets) (h : s.Everywhere OfStore OfPhase)
    (hmeets : s.MoveMeets Meets move) (hstep : s.step x move = some next) : next.Everywhere OfStore OfPhase := by
  cases move with
  | write path file =>
    cases hstep
    exact ⟨h.stores, h.jobs⟩
  | delete path =>
    cases hstep
    exact ⟨h.stores, h.jobs⟩
  | workflowHook =>
    cases hstep
    exact ⟨h.stores, h.jobs⟩
  | mark handle path markedAt polledAt =>
    obtain ⟨-, hstep⟩ := Option.ite_none_right_eq_some.mp hstep
    cases hstep
    refine ⟨fun store hstore => ?_, h.jobs⟩
    rcases hstore with rfl | hstaging
    · have hlive := h.stores s.store (.inl rfl)
      show OfStore (s.store.enqueueMark s.marks handle path)
      unfold Store.enqueueMark
      split
      · exact hlive
      · exact hinv.queue _ _ hlive
    · exact h.stores store (.inr hstaging)
  | begin mode pathScope =>
    cases hstep
    refine ⟨fun store hstore => ?_, fun index call job hcall hjob => ?_⟩
    · rcases hstore with rfl | ⟨index, job, hcall⟩
      · exact h.stores s.store (.inl rfl)
      · rcases mem_begin hcall with hbefore | heq
        · exact h.stores store (.inr ⟨index, job, hbefore⟩)
        · cases mode <;> cases heq
          exact hinv.empty
    · rcases mem_begin hcall with hbefore | rfl
      · exact h.jobs index call job hbefore hjob
      · cases mode <;> cases hjob <;> exact hinv.visiting _
  | reindex index move => exact h.reindex hinv hmeets hstep

end System

end Invariants

/-! ## What is chunked -/

variable {Content Fact : Type} {x : Indexer Content Fact} {disk : Disk Content} {store store' : Store Fact}
  {job job' : Job Fact}

def ChunkedFrom (x : Indexer Content Fact) (contentHash : String) (chunks : List Chunk) : Prop :=
  ∃ content, x.sha256 content = contentHash ∧ chunks = chunkText (x.readText content)

/-- Every cached payload, and the stored chunks of every indexed path, are of a text with the content hash. -/
structure Store.Chunked (x : Indexer Content Fact) (store : Store Fact) : Prop where
  cached : ∀ contentHash chunks, store.contentCache.get? contentHash = some chunks → ChunkedFrom x contentHash chunks
  indexed : ∀ path row, store.files.get? path = some row → row.isDeleted = false →
    ChunkedFrom x row.contentHash (store.rows path).storedChunks

/-! ## Jobs -/

def Found.Steady (x : Indexer Content Fact) (store : Store Fact) (found : Found) : Option (DiskFile Content) → Prop
  | none => True
  | some file =>
    file.readable = true →
      (x.extractStructure found.path (x.readText file.content) found.contentHash).isSome = true →
        store.contentCache.get? found.contentHash = none →
          ChunkedFrom x found.contentHash (chunkText (x.readText file.content))

def Phase.Steady (x : Indexer Content Fact) (disk : Disk Content) (store : Store Fact) : Phase Fact → Prop
  | .extracting found _ => found.Steady x store (disk.get? found.path)
  | .visiting _ | .hashing _ _ _ | .measuring _ _ _ _ | .replacing _ _ _ | .caching _ _ _ | .sweeping _ | .removing _
  | .finished _ => True

def Phase.Chunked (x : Indexer Content Fact) : Phase Fact → Prop
  | .replacing found prepared _ => ChunkedFrom x found.contentHash prepared.chunks
  | .caching found chunks _ => ChunkedFrom x found.contentHash chunks
  | .visiting _ | .hashing _ _ _ | .measuring _ _ _ _ | .extracting _ _ | .sweeping _ | .removing _ | .finished _ => True

theorem ChunkedFrom.nodup {contentHash : String} {chunks : List Chunk} (h : ChunkedFrom x contentHash chunks) : (chunks.map x.chunkId).Nodup := by
  obtain ⟨content, -, rfl⟩ := h
  exact nodup_chunkIds x _

theorem Store.Chunked.replacePath {found : Found} {prepared : Prepared Fact} (h : store.Chunked x)
    (hprepared : ChunkedFrom x found.contentHash prepared.chunks) (generation : Nat) :
    (store.replacePath x found prepared generation).Chunked x where
  cached := h.cached
  indexed path row hrow hlive := by
    rw [Store.get?_replacePath] at hrow
    rw [Store.rows_replacePath]
    by_cases heq : path = found.path
    · rw [if_pos heq] at hrow
      cases hrow
      rw [heq, Function.update_self, PathRows.storedChunks_replace _ _ _ _ hprepared.nodup]
      exact hprepared
    · rw [if_neg heq] at hrow
      rw [Function.update_of_ne heq]
      exact h.indexed path row hrow hlive

theorem Store.Chunked.sweepPath (h : store.Chunked x) (path : String) (existing : FileRow) (generation : Nat) :
    (store.sweepPath path existing generation).Chunked x where
  cached := h.cached
  indexed other row hrow hlive := by
    rw [Store.get?_sweepPath] at hrow
    rw [Store.rows_sweepPath]
    by_cases heq : other = path
    · rw [if_pos heq] at hrow
      cases hrow
      cases hlive
    · rw [if_neg heq] at hrow
      rw [Function.update_of_ne heq]
      exact h.indexed other row hrow hlive

theorem Store.Chunked.insertContentCache {contentHash : String} {chunks : List Chunk} (h : store.Chunked x)
    (hchunks : ChunkedFrom x contentHash chunks) : (store.insertContentCache contentHash chunks).Chunked x where
  indexed := h.indexed
  cached other payload hget := by
    unfold Store.insertContentCache at hget
    rw [Dict.get?_set] at hget
    by_cases heq : other = contentHash
    · rw [if_pos heq] at hget
      cases hget
      rwa [heq]
    · rw [if_neg heq] at hget
      exact h.cached other payload hget

theorem Found.Steady.prepared {found : Found} {file : DiskFile Content} {extraction : Extraction Fact}
    (hsteady : found.Steady x store (some file)) (h : store.Chunked x) (hread : file.readable = true)
    (hextract : x.extractStructure found.path (x.readText file.content) found.contentHash = some extraction) :
    ChunkedFrom x found.contentHash
      ((store.contentCache.get? found.contentHash).getD (chunkText (x.readText file.content))) := by
  cases hcache : store.contentCache.get? found.contentHash with
  | none => exact hsteady hread (by rw [hextract]; rfl) hcache
  | some chunks => exact h.cached _ _ hcache

theorem chunked_step {move : JobMove} (h : store.Chunked x) (hjob : job.phase.Chunked x)
    (hsteady : move = .advance → job.phase.Steady x disk store) (hstep : Job.Steps x disk store job move store' job') :
    store'.Chunked x ∧ job'.phase.Chunked x := by
  cases hstep with
  | stop | fail => exact ⟨h, trivial⟩
  | advance hadvances =>
    cases hadvances with
    | scanned | skipped | visited | unhashed | hashed | unmeasured | reused | measured | unread | unparsed | spared | ended =>
      exact ⟨h, trivial⟩
    | prepared hphase hfile hread hextract =>
      rw [hphase] at hsteady
      have hfound := hsteady rfl
      simp only [Phase.Steady, hfile] at hfound
      exact ⟨h, Found.Steady.prepared hfound h hread hextract⟩
    | replacedCached hphase =>
      rw [hphase] at hjob
      exact ⟨h.replacePath hjob _, trivial⟩
    | replaced hphase =>
      rw [hphase] at hjob
      exact ⟨h.replacePath hjob _, hjob⟩
    | cached hphase =>
      rw [hphase] at hjob
      exact ⟨h.insertContentCache hjob, trivial⟩
    | swept => exact ⟨h.sweepPath _ _ _, trivial⟩
    | committed | removed => exact ⟨⟨h.cached, h.indexed⟩, trivial⟩

/-! ## Calls -/

namespace System

variable {s next : System Content Fact} {move : SystemMove Content}

def Chunked (x : Indexer Content Fact) (s : System Content Fact) : Prop := ∀ store, s.HasStore store → store.Chunked x

/-- No call reads a text of a file that has changed since it was hashed. -/
def Steady (x : Indexer Content Fact) (s : System Content Fact) (move : SystemMove Content) : Prop :=
  s.MoveMeets (fun disk store phase => phase.Steady x disk store) move

theorem chunked_invariant (x : Indexer Content Fact) :
    JobInvariant x (Store.Chunked x) (Phase.Chunked x) fun disk store phase => phase.Steady x disk store where
  empty := { cached := nofun, indexed := nofun }
  queue _ _ h := ⟨h.cached, h.indexed⟩
  visiting _ := trivial
  step h hjob hsteady hstep := chunked_step h hjob hsteady hstep

theorem unsteady_misleads (hunsteady : ¬s.Steady x move) (hstep : s.step x move = some next) :
    ∃ more reached, Throughout (step x) (fun s move _ => s.Steady x move) next more ∧
      run (step x) next more = some reached ∧ ¬reached.Chunked x := by
  obtain ⟨index, rfl⟩ : ∃ index, move = .reindex index .advance := by
    cases move with
    | write | delete | mark | workflowHook | begin => exact absurd trivial hunsteady
    | reindex index move =>
      cases move with
      | advance => exact ⟨index, rfl⟩
      | stop | fail => exact absurd trivial hunsteady
  obtain ⟨⟨store, job⟩, hwork⟩ : ∃ work, s.work? index = some work := by
    refine Option.ne_none_iff_exists'.mp fun hnone => hunsteady ?_
    simp only [Steady, MoveMeets, hnone, MeetsAt]
  have hphase : ¬job.phase.Steady x s.disk store := by
    simpa only [Steady, MoveMeets, hwork, MeetsAt] using hunsteady
  obtain ⟨found, manifest, hextracting⟩ : ∃ found manifest, job.phase = .extracting found manifest := by
    cases hcase : job.phase with
    | extracting found manifest => exact ⟨found, manifest, rfl⟩
    | visiting | hashing | measuring | replacing | caching | sweeping | removing | finished =>
      rw [hcase] at hphase
      exact absurd trivial hphase
  rw [hextracting] at hphase
  cases hfile : s.disk.get? found.path with
  | none =>
    simp only [Phase.Steady, hfile] at hphase
    exact absurd trivial hphase
  | some file =>
    simp only [Phase.Steady, hfile, Found.Steady, Classical.not_imp] at hphase
    obtain ⟨hread, hextract, hcache, hchunks⟩ := hphase
    obtain ⟨extraction, hextract⟩ := Option.isSome_iff_exists.mp hextract
    have hrunning : job.status? = none := by simp only [Job.status?, hextracting]
    have hprepare : Job.step x s.disk (store, job) .advance = some (store, job.goTo (.replacing found
        { chunks := chunkText (x.readText file.content), cached := false, extraction } manifest)) := by
      simp [Job.step, hrunning, Job.advance, hextracting, Job.extract, hfile, hread, hextract, hcache]
    obtain ⟨first, hfirst, -, hwork₁⟩ := step_of_work hwork hprepare rfl
    obtain rfl : first = next := Option.some.inj (hfirst.symm.trans hstep)
    obtain ⟨second, hsecond, -, hwork₂⟩ := step_of_work hwork₁ (show Job.step x _ _ .advance = _ from rfl) rfl
    obtain ⟨third, hthird, -, hwork₃⟩ := step_of_work hwork₂ (show Job.step x _ _ .advance = _ from rfl) rfl
    refine ⟨[.reindex index .advance, .reindex index .advance], third, ?_, ?_, fun htrue => hchunks ?_⟩
    · simp only [Throughout, hsecond, hthird, Steady, MoveMeets, hwork₁, hwork₂, MeetsAt]
      exact ⟨trivial, trivial, trivial⟩
    · simp only [run, hsecond, hthird, Option.bind_some]
    · refine (htrue _ (hasStore_of_work hwork₃)).cached _ _ ?_
      show (Dict.set _ found.contentHash _).get? found.contentHash = _
      rw [Dict.get?_set, if_pos rfl]

/-! ## Runs -/

instance [∀ contentHash chunks, Decidable (ChunkedFrom x contentHash chunks)] (store : Store Fact) (found : Found) :
    (file : Option (DiskFile Content)) → Decidable (found.Steady x store file)
  | none => .isTrue trivial
  | some _ => inferInstanceAs (Decidable (_ → _ → _ → _))

instance [∀ contentHash chunks, Decidable (ChunkedFrom x contentHash chunks)] (disk : Disk Content) (store : Store Fact) :
    (phase : Phase Fact) → Decidable (phase.Steady x disk store)
  | .extracting _ _ => inferInstanceAs (Decidable (Found.Steady _ _ _ _))
  | .visiting _ | .hashing _ _ _ | .measuring _ _ _ _ | .replacing _ _ _ | .caching _ _ _ | .sweeping _ | .removing _
  | .finished _ => .isTrue trivial

instance [∀ contentHash chunks, Decidable (ChunkedFrom x contentHash chunks)] (s : System Content Fact)
    (move : SystemMove Content) : Decidable (s.Steady x move) :=
  inferInstanceAs (Decidable (s.MoveMeets _ move))

/-- In a run of steady steps all payloads and chunks are those of texts with their hash. -/
theorem chunks_true_iff {disk : Disk Content} {moves : List (SystemMove Content)} (hrun : run (step x) { disk, store := {} } moves = some s)
    (hsteady : Throughout (step x) (fun s move _ => s.Steady x move) { disk, store := {} } moves) :
    s.Chunked x ∧ ∀ move next, s.step x move = some next →
      (s.Steady x move ↔ ∀ more reached, Throughout (step x) (fun s move _ => s.Steady x move) next more →
        run (step x) next more = some reached → reached.Chunked x) := by
  have hkeeps : ∀ (s : System Content Fact) move next, s.Everywhere (Store.Chunked x) (Phase.Chunked x) → s.Steady x move →
      s.step x move = some next → next.Everywhere (Store.Chunked x) (Phase.Chunked x) :=
    fun _ _ _ h hmove hstep => everywhere_step (chunked_invariant x) h hmove hstep
  have hsound : s.Everywhere (Store.Chunked x) (Phase.Chunked x) :=
    hsteady.invariant hkeeps (start_everywhere (chunked_invariant x) disk) hrun
  refine ⟨hsound.stores, fun move next hstep => ⟨fun hmove more reached hmore hreached => ?_, fun htrue => ?_⟩⟩
  · have hnext := everywhere_step (chunked_invariant x) hsound hmove hstep
    exact (hmore.invariant hkeeps hnext hreached).stores
  · by_contra hunsteady
    obtain ⟨more, reached, hmore, hreached, hfalse⟩ := unsteady_misleads hunsteady hstep
    exact hfalse (htrue more reached hmore hreached)

instance (contentHash : String) (chunks : List Chunk) : Decidable (ChunkedFrom plainIndexer contentHash chunks) :=
  decidable_of_iff (chunks = chunkText contentHash)
    ⟨fun h => ⟨contentHash, rfl, h⟩, fun ⟨_, hhash, h⟩ => h.trans (congrArg chunkText hhash)⟩

/-- A file is indexed, and another with the same content is added and indexed. -/
def copied : List (SystemMove String) :=
  [.write "a" { content := "1", mtimeNs := 1 }, .begin .changed []] ++ List.replicate 11 (.reindex 0 .advance) ++
    [.write "b" { content := "1", mtimeNs := 2 }, .begin .changed []] ++ List.replicate 8 (.reindex 1 .advance)

theorem copied_chunks_true : ((run (step plainIndexer) { disk := ∅, store := {} } copied).get (by decide +kernel)).Chunked plainIndexer :=
  (chunks_true_iff (Option.some_get _).symm (by decide +kernel)).1

/-- A file written between its hash and its read is stored under the old hash. -/
theorem payload_of_another_text : ∃ s, run (step plainIndexer) { disk := ∅, store := {} }
        ([.write "a" { content := "1", mtimeNs := 1 }, .begin .changed []] ++ List.replicate 3 (.reindex 0 .advance) ++
          [.write "a" { content := "2", mtimeNs := 2 }] ++ List.replicate 3 (.reindex 0 .advance)) = some s ∧
      s.store.contentCache.get? "1" = some (chunkText "2") ∧ ¬ChunkedFrom plainIndexer "1" (chunkText "2") ∧
      ¬s.Chunked plainIndexer := by
  have hfalse : ¬ChunkedFrom plainIndexer "1" (chunkText "2") := by decide +kernel
  refine ⟨_, (Option.some_get (by decide +kernel)).symm, ?_, hfalse, fun htrue => hfalse ?_⟩
  · decide +kernel
  · exact (htrue _ (.inl rfl)).cached "1" _ (by decide +kernel)

end System

end RalphWorkflow.Explore
