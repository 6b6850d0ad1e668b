import RalphWorkflow.Explore.Reindex

/-! What each operation leaves of the store, and what one step of a job and of a call can do to it. -/
namespace RalphWorkflow.Explore

open Lib List Option

variable {Content Fact : Type} {x : Indexer Content Fact} {disk : Disk Content}

/-- An indexer of files whose content is their text and their hash, and which have no structure. -/
def plainIndexer : Indexer String Unit where
  sha256 := id
  size := String.length
  readText := id
  sha256Text := id
  extractStructure _ _ _ := some {}

namespace Store

variable (store : Store Fact)

@[simp] theorem get?_replacePath (found : Found) (prepared : Prepared Fact) (generation : Nat) (path : String) :
    (store.replacePath x found prepared generation).files.get? path =
      if path = found.path then
        some
          { contentHash := found.contentHash
            sizeBytes := found.sizeBytes
            mtimeNs := found.mtimeNs
            indexedGeneration := generation
            isDeleted := false }
      else store.files.get? path :=
  Dict.get?_set _ _ _ _

theorem rows_replacePath (found : Found) (prepared : Prepared Fact) (generation : Nat) : (store.replacePath x found prepared generation).rows =
      Function.update store.rows found.path ((store.rows found.path).replace x found.contentHash prepared generation) := rfl

@[simp] theorem get?_sweepPath (path : String) (existing : FileRow) (generation : Nat) (other : String) :
    (store.sweepPath path existing generation).files.get? other =
      if other = path then some { existing with indexedGeneration := generation, isDeleted := true }
      else store.files.get? other := by
  unfold sweepPath upsertFile
  rw [Dict.get?_set]
  by_cases h : other = path
  · rw [if_pos h, if_pos h]
  · rw [if_neg h, if_neg h]
    show (store.files.erase path).get? other = _
    rw [Dict.get?_erase, if_neg h]

theorem rows_sweepPath (path : String) (existing : FileRow) (generation : Nat) :
    (store.sweepPath path existing generation).rows = Function.update store.rows path {} := by
  have hcleared : ∀ rows, (store.setRows path rows).rows path = rows := by
    intro rows
    exact Function.update_self path rows store.rows
  unfold sweepPath deleteFileRows
  rw [hcleared]
  exact Function.update_idem _ _ _

theorem mem_removeDirtyPath (path other : String) : other ∈ (store.removeDirtyPath path).dirtyPaths ↔ other ∈ store.dirtyPaths ∧ other ≠ path := by
  simp [removeDirtyPath]

theorem mem_markDirty (path other : String) : other ∈ (store.markDirty path).dirtyPaths ↔ other = path ∨ other ∈ store.dirtyPaths := by
  unfold markDirty
  by_cases h : path ∈ store.dirtyPaths
  · simp only [h, if_true]
    exact ⟨.inr, fun hor => hor.elim (fun heq => heq ▸ h) id⟩
  · simp only [h, if_false, mem_append, mem_singleton]
    exact or_comm

theorem mem_iterFiles (path : String) (row : FileRow) :
    (path, row) ∈ store.iterFiles ↔ store.files.get? path = some row ∧ row.isDeleted = false := by
  simp [iterFiles, Dict.get?_eq_some_iff]

end Store

namespace Job

variable {store store' : Store Fact} {job job' : Job Fact} {move : JobMove}

theorem vanished_iff (job : Job Fact) (path : String) : job.vanished path = true ↔ path ∉ job.seenPaths ∧ path ∉ job.pathScope := by
  simp [vanished]

inductive Advances (x : Indexer Content Fact) (disk : Disk Content) (store : Store Fact) (job : Job Fact) :
    Store Fact → Job Fact → Prop
  | scanned : job.phase = .visiting [] → Advances x disk store job store (job.goTo (.sweeping store.iterFiles))
  | skipped {row : ManifestRow} {manifest : List ManifestRow} :
      job.phase = .visiting (row :: manifest) → store.prefilter row = true →
        Advances x disk store job store
          { job with seenPaths := job.seenPaths ++ [row.path], phase := .visiting manifest }
  | visited {row : ManifestRow} {manifest : List ManifestRow} :
      job.phase = .visiting (row :: manifest) → store.prefilter row = false →
        Advances x disk store job store
          { job with
            seenPaths := job.seenPaths ++ [row.path]
            phase := .hashing row.path (store.files.get? row.path) manifest }
  | unhashed {path : String} {previous : Option FileRow} {manifest : List ManifestRow} :
      job.phase = .hashing path previous manifest → (∀ file, disk.get? path = some file → file.readable = false) →
        Advances x disk store job store (job.failPath path manifest)
  | hashed {path : String} {previous : Option FileRow} {manifest : List ManifestRow} {file : DiskFile Content} :
      job.phase = .hashing path previous manifest → disk.get? path = some file → file.readable = true →
        Advances x disk store job store (job.goTo (.measuring path previous (x.sha256 file.content) manifest))
  | unmeasured {path contentHash : String} {previous : Option FileRow} {manifest : List ManifestRow} :
      job.phase = .measuring path previous contentHash manifest → disk.get? path = none →
        Advances x disk store job store (job.failPath path manifest)
  | reused {path contentHash : String} {previous : Option FileRow} {manifest : List ManifestRow} {file : DiskFile Content} :
      job.phase = .measuring path previous contentHash manifest → disk.get? path = some file →
        sameHash previous contentHash = true → Advances x disk store job store (job.goTo (.visiting manifest))
  | measured {path contentHash : String} {previous : Option FileRow} {manifest : List ManifestRow} {file : DiskFile Content} :
      job.phase = .measuring path previous contentHash manifest → disk.get? path = some file →
        sameHash previous contentHash = false →
          Advances x disk store job store
            (job.goTo
              (.extracting { path, contentHash, sizeBytes := x.size file.content, mtimeNs := file.mtimeNs } manifest))
  | unread {found : Found} {manifest : List ManifestRow} :
      job.phase = .extracting found manifest → (∀ file, disk.get? found.path = some file → file.readable = false) →
        Advances x disk store job store (job.goTo (.finished .failed))
  | unparsed {found : Found} {manifest : List ManifestRow} {file : DiskFile Content} :
      job.phase = .extracting found manifest → disk.get? found.path = some file → file.readable = true →
        x.extractStructure found.path (x.readText file.content) found.contentHash = none →
          Advances x disk store job store (job.failPath found.path manifest)
  | prepared {found : Found} {manifest : List ManifestRow} {file : DiskFile Content} {extraction : Extraction Fact} :
      job.phase = .extracting found manifest → disk.get? found.path = some file → file.readable = true →
        x.extractStructure found.path (x.readText file.content) found.contentHash = some extraction →
          Advances x disk store job store
            (job.goTo
              (.replacing found
                { chunks := (store.contentCache.get? found.contentHash).getD (chunkText (x.readText file.content))
                  cached := (store.contentCache.get? found.contentHash).isSome
                  extraction }
                manifest))
  | replacedCached {found : Found} {prepared : Prepared Fact} {manifest : List ManifestRow} :
      job.phase = .replacing found prepared manifest → prepared.cached = true →
        Advances x disk store job (store.replacePath x found prepared job.targetGeneration)
          (job.changePath found.path manifest)
  | replaced {found : Found} {prepared : Prepared Fact} {manifest : List ManifestRow} :
      job.phase = .replacing found prepared manifest → prepared.cached = false →
        Advances x disk store job (store.replacePath x found prepared job.targetGeneration)
          (job.goTo (.caching found prepared.chunks manifest))
  | cached {found : Found} {chunks : List Chunk} {manifest : List ManifestRow} :
      job.phase = .caching found chunks manifest →
        Advances x disk store job (store.insertContentCache found.contentHash chunks) (job.changePath found.path manifest)
  | swept {path : String} {existing : FileRow} {files : List (String × FileRow)} :
      job.phase = .sweeping ((path, existing) :: files) → job.vanished path = true →
        Advances x disk store job (store.sweepPath path existing job.targetGeneration) (job.goTo (.sweeping files))
  | spared {path : String} {existing : FileRow} {files : List (String × FileRow)} :
      job.phase = .sweeping ((path, existing) :: files) → job.vanished path = false →
        Advances x disk store job store (job.goTo (.sweeping files))
  | committed :
      job.phase = .sweeping [] →
        Advances x disk store job (store.setCurrentGeneration job.targetGeneration)
          (job.goTo (.removing (job.survivors store)))
  | removed {path : String} {paths : List String} :
      job.phase = .removing (path :: paths) →
        Advances x disk store job (store.removeDirtyPath path) (job.goTo (.removing paths))
  | ended : job.phase = .removing [] → Advances x disk store job store (job.goTo (.finished job.endStatus))

theorem advances_hash {path : String} {previous : Option FileRow} {manifest : List ManifestRow} (h : job.phase = .hashing path previous manifest) :
    Advances x disk store job store (job.hash x disk path previous manifest) := by
  unfold hash
  cases hfile : disk.get? path with
  | none => exact .unhashed h fun file hget => by simp [hfile] at hget
  | some file =>
    by_cases hread : file.readable = true
    · simp only [hread, if_true]
      exact .hashed h hfile hread
    · simp only [hread]
      refine .unhashed h fun other hget => ?_
      cases hfile.symm.trans hget
      exact Bool.eq_false_iff.mpr hread

theorem advances_measure {path contentHash : String} {previous : Option FileRow} {manifest : List ManifestRow}
    (h : job.phase = .measuring path previous contentHash manifest) :
    Advances x disk store job store (job.measure x disk path previous contentHash manifest) := by
  unfold measure
  cases hfile : disk.get? path with
  | none => exact .unmeasured h hfile
  | some file =>
    by_cases hsame : sameHash previous contentHash = true
    · simp only [hsame, if_true]
      exact .reused h hfile hsame
    · simp only [hsame]
      exact .measured h hfile (Bool.eq_false_iff.mpr hsame)

theorem advances_extract {found : Found} {manifest : List ManifestRow} (h : job.phase = .extracting found manifest) :
    Advances x disk store job store (job.extract x disk store found manifest) := by
  unfold extract
  cases hfile : disk.get? found.path with
  | none => exact .unread h fun file hget => by simp [hfile] at hget
  | some file =>
    by_cases hread : file.readable = true
    · simp only [hread, if_true]
      cases hextract : x.extractStructure found.path (x.readText file.content) found.contentHash with
      | none => exact .unparsed h hfile hread hextract
      | some extraction =>
        have hprepared : Advances x disk store job store _ := .prepared h hfile hread hextract
        cases hcache : store.contentCache.get? found.contentHash with
        | none => simpa only [hcache, getD_none, isSome_none] using hprepared
        | some chunks => simpa only [hcache, getD_some, isSome_some] using hprepared
    · simp only [hread]
      refine .unread h fun other hget => ?_
      cases hfile.symm.trans hget
      exact Bool.eq_false_iff.mpr hread

theorem advances (x : Indexer Content Fact) (disk : Disk Content) (store : Store Fact) (h : job.status? = none) :
    Advances x disk store job (job.advance x disk store).1 (job.advance x disk store).2 := by
  unfold advance
  cases hphase : job.phase with
  | visiting manifest =>
    cases manifest with
    | nil => exact .scanned hphase
    | cons row manifest =>
      simp only [visit]
      by_cases hfilter : store.prefilter row = true
      · simp only [hfilter, if_true]
        exact .skipped hphase hfilter
      · simp only [hfilter]
        exact .visited hphase (Bool.eq_false_iff.mpr hfilter)
  | hashing path previous manifest => exact advances_hash hphase
  | measuring path previous contentHash manifest => exact advances_measure hphase
  | extracting found manifest => exact advances_extract hphase
  | replacing found prepared manifest =>
    by_cases hcached : prepared.cached = true
    · simp only [hcached, if_true]
      exact .replacedCached hphase hcached
    · simp only [hcached]
      exact .replaced hphase (Bool.eq_false_iff.mpr hcached)
  | caching found chunks manifest => exact .cached hphase
  | sweeping files =>
    cases files with
    | nil => exact .committed hphase
    | cons entry files =>
      obtain ⟨path, existing⟩ := entry
      by_cases hgone : job.vanished path = true
      · simp only [hgone, if_true]
        exact .swept hphase hgone
      · simp only [hgone]
        exact .spared hphase (Bool.eq_false_iff.mpr hgone)
  | removing paths =>
    cases paths with
    | nil => exact .ended hphase
    | cons path paths => exact .removed hphase
  | finished status => simp [status?, hphase] at h

inductive Steps (x : Indexer Content Fact) (disk : Disk Content) (store : Store Fact) (job : Job Fact) :
    JobMove → Store Fact → Job Fact → Prop
  | advance {store' : Store Fact} {job' : Job Fact} :
      Advances x disk store job store' job' → Steps x disk store job .advance store' job'
  | stop {stop : Stop} : job.polls = true → Steps x disk store job (.stop stop) store (job.goTo (.finished stop.status))
  | fail : job.mayFail = true → Steps x disk store job .fail store (job.goTo (.finished .failed))

theorem steps_of_step (h : step x disk (store, job) move = some (store', job')) : Steps x disk store job move store' job' := by
  cases move with
  | advance =>
    simp only [step, ite_none_left_eq_some, not_isSome_iff_eq_none, Option.some.injEq] at h
    have hadvances := advances x disk store h.1
    rw [h.2] at hadvances
    exact .advance hadvances
  | stop stop =>
    simp only [step, ite_none_right_eq_some, Option.some.injEq, Prod.mk.injEq] at h
    obtain ⟨hpolls, rfl, rfl⟩ := h
    exact .stop hpolls
  | fail =>
    simp only [step, ite_none_right_eq_some, Option.some.injEq, Prod.mk.injEq] at h
    obtain ⟨hfail, rfl, rfl⟩ := h
    exact .fail hfail

theorem Steps.dirtyPaths (h : Steps x disk store job move store' job') : store'.dirtyPaths = store.dirtyPaths ∨
      ∃ path paths, move = .advance ∧ job.phase = .removing (path :: paths) ∧ store' = store.removeDirtyPath path := by
  cases h with
  | stop | fail => exact .inl rfl
  | advance h =>
    cases h with
    | removed hphase => exact .inr ⟨_, _, rfl, hphase, rfl⟩
    | scanned | skipped | visited | unhashed | hashed | unmeasured | reused | measured | unread | unparsed | prepared
    | replacedCached | replaced | cached | swept | spared | committed | ended => exact .inl rfl

def committed (job : Job Fact) : Bool :=
  match job.phase with
  | .removing _ | .finished .ok | .finished .skippedNoChanges => true
  | _ => false

theorem committed_of_ok (h : job.status? = some .ok) : job.committed = true := by
  unfold status? at h
  unfold committed
  cases hphase : job.phase <;> simp_all

theorem Steps.generation (h : Steps x disk store job move store' job') : job'.targetGeneration = job.targetGeneration ∧
      (move = .advance ∧ job.phase = .sweeping [] ∧ store'.currentGeneration = job.targetGeneration ∧ job'.committed = true ∨
        (move = .advance → job.phase ≠ .sweeping []) ∧ store'.currentGeneration = store.currentGeneration ∧
          job'.committed = job.committed) := by
  cases h with
  | @stop stop hpolls =>
    refine ⟨rfl, .inr ⟨by simp, rfl, ?_⟩⟩
    unfold polls at hpolls
    cases stop <;> cases hphase : job.phase <;> simp_all [committed, goTo, Stop.status]
  | fail hfail =>
    refine ⟨rfl, .inr ⟨by simp, rfl, ?_⟩⟩
    unfold mayFail at hfail
    cases hphase : job.phase <;> simp_all [committed, goTo]
  | advance hadvances =>
    cases hadvances with
    | committed hphase => exact ⟨rfl, .inl ⟨rfl, hphase, rfl, rfl⟩⟩
    | ended hphase =>
      refine ⟨rfl, .inr ⟨fun _ => by simp [hphase], rfl, ?_⟩⟩
      simp only [committed, goTo, hphase, endStatus]
      split <;> simp_all
    | scanned hphase | skipped hphase | visited hphase | unhashed hphase | hashed hphase | unmeasured hphase | reused hphase
    | measured hphase | unread hphase | unparsed hphase | prepared hphase | replacedCached hphase | replaced hphase
    | cached hphase | swept hphase | spared hphase | removed hphase =>
      refine ⟨rfl, .inr ⟨fun _ => by simp [hphase], rfl, ?_⟩⟩
      simp only [committed, hphase, goTo, failPath, changePath]

theorem Steps.removes {path : String} {paths : List String} (h : Steps x disk store job .advance store' job')
    (hphase : job.phase = .removing (path :: paths)) : store' = store.removeDirtyPath path := by
  cases h with
  | advance h => cases h <;> simp_all

theorem Steps.removing {paths : List String} (h : Steps x disk store job move store' job') (hphase : job'.phase = .removing paths) :
    move = .advance ∧ (job.phase = .sweeping [] ∨ ∃ path, job.phase = .removing (path :: paths)) := by
  cases h with
  | stop | fail => cases hphase
  | advance h =>
    cases h with
    | committed hcommit => exact ⟨rfl, .inl hcommit⟩
    | removed hremove =>
      cases hphase
      exact ⟨rfl, .inr ⟨_, hremove⟩⟩
    | scanned | skipped | visited | unhashed | hashed | unmeasured | reused | measured | unread | unparsed | prepared
    | replacedCached | replaced | cached | swept | spared | ended => cases hphase

end Job

namespace Reindex

variable {live live' : Store Fact} {call call' : Reindex Fact} {move : JobMove}

def job? : Reindex Fact → Option (Job Fact)
  | .changed job => some job
  | .full _ job => some job
  | .done _ => none

/-- With its next step the call has done what it ends ok with: only the removal of queued paths can be left. -/
def succeeds : Reindex Fact → Bool
  | .changed job =>
    match job.phase with
    | .sweeping [] => true
    | _ => false
  | .full _ job => job.status? = some .ok
  | .done _ => false

inductive Steps (x : Indexer Content Fact) (disk : Disk Content) (live : Store Fact) (move : JobMove) :
    Reindex Fact → Store Fact → Reindex Fact → Prop
  | changed {job job' : Job Fact} {live' : Store Fact} :
      Job.Steps x disk live job move live' job' → Steps x disk live move (.changed job) live' (ofJob job')
  | staged {staging staging' : Store Fact} {job job' : Job Fact} :
      job.status? ≠ some .ok → Job.Steps x disk staging job move staging' job' →
        Steps x disk live move (.full staging job) live (ofStaged staging' job')
  | published {staging : Store Fact} {job : Job Fact} :
      job.status? = some .ok →
        Steps x disk live move (.full staging job) (publish live staging move).1 (publish live staging move).2

variable {job job' : Job Fact} {staging : Store Fact}

theorem waits_of_ne (h : job.phase ≠ .sweeping []) : (Reindex.changed job).succeeds = false := by
  cases hphase : job.phase with
  | sweeping files =>
    cases files with
    | nil => exact absurd hphase h
    | cons entry files => simp only [succeeds, hphase]
  | visiting | hashing | measuring | extracting | replacing | caching | removing | finished => simp only [succeeds, hphase]

theorem ofJob_eq_changed (h : ofJob job = .changed job') : job' = job ∧ job.status? = none := by
  unfold ofJob at h
  cases hstatus : job.status? with
  | none =>
    rw [hstatus] at h
    cases h
    exact ⟨rfl, rfl⟩
  | some status =>
    rw [hstatus] at h
    cases h

theorem ofJob_ne_full (h : ofJob job = .full staging job') : False := by
  unfold ofJob at h
  cases hstatus : job.status? <;> rw [hstatus] at h <;> cases h

theorem ofStaged_eq_full {staging' : Store Fact} (h : ofStaged staging job = .full staging' job') : staging' = staging ∧ job' = job := by
  unfold ofStaged at h
  split at h
  · cases h
    exact ⟨rfl, rfl⟩
  · cases h
    exact ⟨rfl, rfl⟩
  · cases h

theorem ofStaged_ne_changed (h : ofStaged staging job = .changed job') : False := by
  unfold ofStaged at h
  split at h <;> cases h

theorem publish_ne_changed {live : Store Fact} (h : (publish live staging move).2 = .changed job) : False := by
  cases move <;> cases h

theorem publish_ne_full {live staging' : Store Fact} (h : (publish live staging move).2 = .full staging' job) : False := by
  cases move <;> cases h

theorem steps_of_step (h : call.step x disk live move = some (live', call')) : Steps x disk live move call live' call' := by
  cases call with
  | changed job =>
    obtain ⟨⟨store, job'⟩, hjob, heq⟩ := map_eq_some_iff.mp h
    cases heq
    exact .changed (Job.steps_of_step hjob)
  | full staging job =>
    simp only [step] at h
    by_cases hok : job.status? = some .ok
    · rw [if_pos hok, Option.some.injEq] at h
      have hlive : (publish live staging move).1 = live' := congrArg Prod.fst h
      have hcall : (publish live staging move).2 = call' := congrArg Prod.snd h
      rw [← hlive, ← hcall]
      exact .published hok
    · rw [if_neg hok] at h
      obtain ⟨⟨store, job'⟩, hjob, heq⟩ := map_eq_some_iff.mp h
      cases heq
      exact .staged hok (Job.steps_of_step hjob)
  | done status => cases h

def work (live : Store Fact) : Reindex Fact → Option (Store Fact × Job Fact)
  | .changed job => some (live, job)
  | .full staging job => if job.status? = some .ok then none else some (staging, job)
  | .done _ => none

theorem steps_of_work {store store' : Store Fact} (hwork : call.work live = some (store, job))
    (hstep : Job.step x disk (store, job) move = some (store', job')) (hgoes : job'.status? = none) :
    ∃ live' call', call.step x disk live move = some (live', call') ∧ call'.work live' = some (store', job') := by
  cases call with
  | changed job =>
    cases hwork
    refine ⟨store', .changed job', ?_, rfl⟩
    simp only [step, hstep, map_some, ofJob, hgoes]
  | full staging job =>
    obtain ⟨hok, hwork⟩ := ite_none_left_eq_some.mp hwork
    cases hwork
    refine ⟨live, .full store' job', ?_, ?_⟩
    · simp only [step, if_neg hok, hstep, map_some, ofStaged, hgoes]
    · simp only [work, hgoes, reduceCtorEq, if_false]
  | done status => cases hwork

end Reindex

namespace System

variable {s next : System Content Fact}

variable {index : Nat}

theorem mem_begin {disk : Disk Content} {live : Store Fact} {pathScope : List String} {mode : Mode}
    {calls : List (Reindex Fact)} {call : Reindex Fact}
    (h : (calls ++ [Reindex.start x disk live pathScope mode])[index]? = some call) :
    calls[index]? = some call ∨ call = Reindex.start x disk live pathScope mode := by
  rw [List.getElem?_append] at h
  split at h
  · exact .inl h
  · exact .inr (mem_singleton.mp (mem_of_getElem? h))

def work? (s : System Content Fact) (index : Nat) : Option (Store Fact × Job Fact) :=
  s.reindexes[index]?.bind (Reindex.work s.store)

theorem work?_eq_some {store : Store Fact} {job : Job Fact} :
    s.work? index = some (store, job) ↔ ∃ call, s.reindexes[index]? = some call ∧ call.work s.store = some (store, job) :=
  bind_eq_some_iff

theorem step_of_work {move : JobMove} {store store' : Store Fact} {job job' : Job Fact}
    (hwork : s.work? index = some (store, job)) (hstep : Job.step x s.disk (store, job) move = some (store', job'))
    (hgoes : job'.status? = none) :
    ∃ next, s.step x (.reindex index move) = some next ∧ next.disk = s.disk ∧ next.work? index = some (store', job') := by
  obtain ⟨call, hcall, hwork⟩ := work?_eq_some.mp hwork
  obtain ⟨live', call', hcallStep, hwork'⟩ := Reindex.steps_of_work hwork hstep hgoes
  refine ⟨{ s with store := live', reindexes := s.reindexes.set index call' }, ?_, rfl, work?_eq_some.mpr ⟨call', ?_, hwork'⟩⟩
  · simp only [step, hcall, bind_some, hcallStep, map_some]
  · rw [List.getElem?_set_self (List.getElem?_eq_some_iff.mp hcall).1]

theorem step_reindex_eq {move : JobMove} (h : s.step x (.reindex index move) = some next) :
    ∃ call live' call', s.reindexes[index]? = some call ∧ Reindex.Steps x s.disk s.store move call live' call' ∧
      next = { s with store := live', reindexes := s.reindexes.set index call' } := by
  obtain ⟨call, hcall, h⟩ := bind_eq_some_iff.mp h
  obtain ⟨⟨live', call'⟩, hstep, heq⟩ := map_eq_some_iff.mp h
  exact ⟨call, live', call', hcall, Reindex.steps_of_step hstep, heq.symm⟩

end System

theorem getElem?_set_cases {α : Type} {calls : List α} {index other : Nat} {call call' found : α} (hcall : calls[index]? = some call)
    (h : (calls.set index call')[other]? = some found) : other = index ∧ found = call' ∨ other ≠ index ∧ calls[other]? = some found := by
  rw [List.getElem?_set] at h
  by_cases heq : index = other
  · subst heq
    rw [if_pos rfl, if_pos (List.getElem?_eq_some_iff.mp hcall).1, Option.some.injEq] at h
    exact .inl ⟨rfl, h.symm⟩
  · rw [if_neg heq] at h
    exact .inr ⟨Ne.symm heq, h⟩

end RalphWorkflow.Explore

/-! ## Rows of one path

The full-text rows of a path that was re-extracted are those of its chunks, in order.
-/

namespace RalphWorkflow.Explore
open List


variable {Content Fact : Type} {x : Indexer Content Fact}

def Indexer.chunkId (x : Indexer Content Fact) (chunk : Chunk) : ChunkId where
  startLine := chunk.startLine
  endLine := chunk.endLine
  textHash := x.sha256Text chunk.text

def Indexer.ftsRow (x : Indexer Content Fact) (chunk : Chunk) : FtsRow where
  id := x.chunkId chunk
  text := chunk.text

theorem nodup_chunkIds (x : Indexer Content Fact) (text : String) : ((chunkText text).map x.chunkId).Nodup := by
  unfold chunkText
  rw [map_map]
  refine List.Nodup.map (fun i j h => ?_) nodup_range
  have hstart : i * defaultChunkLines + 1 = j * defaultChunkLines + 1 := congrArg ChunkId.startLine h
  have hmul : i * 50 = j * 50 := Nat.succ.inj hstart
  omega

namespace PathRows

def storedChunks (rows : PathRows Fact) : List Chunk :=
  rows.fts.map fun row => { startLine := row.id.startLine, endLine := row.id.endLine, text := row.text }

theorem fts_insertChunk (contentHash : String) (generation : Nat) (rows : PathRows Fact) (chunk : Chunk)
    (hfresh : x.chunkId chunk ∉ rows.fts.map FtsRow.id) :
    (insertChunk x contentHash generation rows chunk).fts = rows.fts ++ [x.ftsRow chunk] := by
  have hkept : rows.fts.filter (fun row => row.id ≠ x.chunkId chunk) = rows.fts := by
    refine filter_eq_self.mpr fun row hrow => decide_eq_true fun heq => hfresh ?_
    exact mem_map.mpr ⟨row, hrow, heq⟩
  exact congrArg (· ++ [x.ftsRow chunk]) hkept

theorem fts_foldl (contentHash : String) (generation : Nat) (chunks : List Chunk) (rows : PathRows Fact)
    (h : (rows.fts.map FtsRow.id ++ chunks.map x.chunkId).Nodup) :
    (chunks.foldl (insertChunk x contentHash generation) rows).fts = rows.fts ++ chunks.map x.ftsRow := by
  induction chunks generalizing rows with
  | nil => simp
  | cons chunk chunks ih =>
    have hfresh : x.chunkId chunk ∉ rows.fts.map FtsRow.id := fun hmem =>
      (nodup_append.mp h).2.2 _ hmem _ (mem_cons_self) rfl
    have hinsert := fts_insertChunk contentHash generation rows chunk hfresh
    rw [foldl_cons, ih, hinsert, append_assoc]
    · rfl
    · rw [hinsert, map_append, append_assoc]
      exact h

theorem storedChunks_replace (contentHash : String) (prepared : Prepared Fact) (generation : Nat) (rows : PathRows Fact)
    (h : (prepared.chunks.map x.chunkId).Nodup) :
    (rows.replace x contentHash prepared generation).storedChunks = prepared.chunks := by
  have hfts : (rows.replace x contentHash prepared generation).fts = prepared.chunks.map x.ftsRow := by
    have hfold := fts_foldl contentHash generation prepared.chunks (rows.clearForReplacement generation) h
    unfold replace
    split
    · exact hfold
    · exact hfold
  unfold storedChunks
  rw [hfts, map_map]
  exact map_id _

end PathRows

end RalphWorkflow.Explore

/-! ## The manifest

Which paths a job visits.
-/

namespace RalphWorkflow.Explore


open Lib Lib.Text List Option

variable {Content Fact : Type} {x : Indexer Content Fact} {disk : Disk Content} {store : Store Fact}

theorem map_path_collect (x : Indexer Content Fact) (disk : Disk Content) :
    ((collectWorkspaceFiles x disk).map ManifestRow.path).Sublist (sortedText disk.keys) := by
  unfold collectWorkspaceFiles
  rw [map_filterMap]
  have hpaths : ∀ paths : List String, (paths.filterMap fun path =>
      ((disk.get? path).map fun file =>
        ({ path, sizeBytes := x.size file.content, mtimeNs := file.mtimeNs } : ManifestRow)).map ManifestRow.path).Sublist paths := by
    intro paths
    induction paths with
    | nil => exact .slnil
    | cons path paths ih =>
      cases hfile : disk.get? path with
      | none =>
        rw [filterMap_cons_none (by simp [hfile])]
        exact ih.cons path
      | some file =>
        rw [filterMap_cons_some (b := path) (by simp [hfile])]
        exact ih.cons_cons path
  exact (hpaths _).trans filter_sublist

theorem nodup_collect (x : Indexer Content Fact) (disk : Disk Content) : ((collectWorkspaceFiles x disk).map ManifestRow.path).Nodup := by
  have hkeys : (sortedText disk.keys).Nodup := (perm_insertionSort _ _).nodup_iff.mpr disk.nodup
  exact hkeys.sublist (map_path_collect x disk)

theorem mem_collect (row : ManifestRow) : row ∈ collectWorkspaceFiles x disk ↔
      indexable row.path = true ∧ ∃ file, disk.get? row.path = some file ∧ row.sizeBytes = x.size file.content ∧
        row.mtimeNs = file.mtimeNs := by
  unfold collectWorkspaceFiles
  simp only [mem_filterMap, mem_filter, mem_sortedText, Dict.mem_keys_iff, Dict.contains_iff, map_eq_some_iff]
  constructor
  · rintro ⟨path, ⟨-, hindexable⟩, file, hfile, rfl⟩
    exact ⟨hindexable, file, hfile, rfl, rfl⟩
  · rintro ⟨hindexable, file, hfile, hsize, hmtime⟩
    refine ⟨row.path, ⟨⟨file, hfile⟩, hindexable⟩, file, hfile, ?_⟩
    rw [← hsize, ← hmtime]

def scopedManifest (x : Indexer Content Fact) (disk : Disk Content) (pathScope : List String) : List ManifestRow :=
  (collectWorkspaceFiles x disk).filter fun row => pathScope.isEmpty || pathScope.contains row.path

theorem nodup_scopedManifest (x : Indexer Content Fact) (disk : Disk Content) (pathScope : List String) :
    ((scopedManifest x disk pathScope).map ManifestRow.path).Nodup :=
  (nodup_collect x disk).sublist (filter_sublist.map ManifestRow.path)

end RalphWorkflow.Explore
