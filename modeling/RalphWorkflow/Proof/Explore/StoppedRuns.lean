import RalphWorkflow.Lib.Run
import RalphWorkflow.Proof.Explore.Steps

/-! What a reindex that is stopped or fails leaves of the rows and of the generation, while the workspace may change at any step. -/
namespace RalphWorkflow.Explore

open Lib Lib.Run List

variable {Content Fact : Type} {x : Indexer Content Fact} {disk : Disk Content} {before store store' : Store Fact}
  {job job' : Job Fact} {move : JobMove}

def Job.stepOn (x : Indexer Content Fact) (s : Store Fact × Job Fact) (action : Disk Content × JobMove) : Option (Store Fact × Job Fact) :=
  Job.step x action.1 s action.2

def Store.SameIndex (before store : Store Fact) : Prop :=
  store.files = before.files ∧ store.rows = before.rows ∧ store.currentGeneration = before.currentGeneration

def Job.QuietAt (x : Indexer Content Fact) (disk : Disk Content) (job : Job Fact) : Phase Fact → Prop
  | .extracting found _ =>
    ∀ file ∈ disk.get? found.path, file.readable = true →
      x.extractStructure found.path (x.readText file.content) found.contentHash = none
  | .sweeping ((path, _) :: _) => job.vanished path = false
  | .sweeping [] => False
  | .visiting _ | .hashing _ _ _ | .measuring _ _ _ _ | .replacing _ _ _ | .caching _ _ _ | .removing _ | .finished _ => True

def Job.Quiet (x : Indexer Content Fact) (disk : Disk Content) (job : Job Fact) : Prop := job.QuietAt x disk job.phase

def QuietStep (x : Indexer Content Fact) (s : Store Fact × Job Fact) (action : Disk Content × JobMove) (_ : Store Fact × Job Fact) : Prop :=
  action.2 = .advance → s.2.Quiet x action.1

/-! ## Before the first write -/

def Phase.Fresh (before : Store Fact) (seenPaths : List String) : Phase Fact → Prop
  | .visiting manifest => (seenPaths ++ manifest.map ManifestRow.path).Nodup
  | .hashing path previous manifest | .measuring path previous _ manifest =>
    path ∈ seenPaths ∧ (seenPaths ++ manifest.map ManifestRow.path).Nodup ∧ previous = before.files.get? path
  | .extracting found manifest =>
    found.path ∈ seenPaths ∧ (seenPaths ++ manifest.map ManifestRow.path).Nodup ∧
      Job.sameHash (before.files.get? found.path) found.contentHash = false
  | .sweeping files =>
    (files.map Prod.fst).Nodup ∧ ∀ entry ∈ files, before.files.get? entry.1 = some entry.2 ∧ entry.2.isDeleted = false
  | .finished _ => True
  | .replacing _ _ _ | .caching _ _ _ | .removing _ => False

structure Fresh (before : Store Fact) (s : Store Fact × Job Fact) : Prop where
  same : before.SameIndex s.1
  target : s.2.targetGeneration ≠ before.currentGeneration
  phase : s.2.phase.Fresh before s.2.seenPaths

theorem start_fresh (x : Indexer Content Fact) (disk : Disk Content) (before : Store Fact) (pathScope : List String) :
    Fresh before (before, Job.start x disk before pathScope) where
  same := ⟨rfl, rfl, rfl⟩
  target := by
    show (if before.currentGeneration = 0 then 1 else before.currentGeneration + 1) ≠ before.currentGeneration
    split <;> omega
  phase := nodup_scopedManifest x disk pathScope

/-! ## After the first write -/

def Job.Past (path : String) (job : Job Fact) : Prop :=
  match job.phase with
  | .visiting manifest | .caching _ _ manifest => path ∈ job.seenPaths ∧ path ∉ manifest.map ManifestRow.path
  | .hashing current _ manifest | .measuring current _ _ manifest =>
    path ∈ job.seenPaths ∧ path ≠ current ∧ path ∉ manifest.map ManifestRow.path
  | .extracting found manifest | .replacing found _ manifest =>
    path ∈ job.seenPaths ∧ path ≠ found.path ∧ path ∉ manifest.map ManifestRow.path
  | .sweeping files => path ∈ job.seenPaths ∨ path ∉ files.map Prod.fst
  | .removing _ | .finished _ => True

def Spoiled (before : Store Fact) (s : Store Fact × Job Fact) : Prop :=
  (∃ path, s.1.files.get? path ≠ before.files.get? path ∧ s.2.Past path) ∨
    s.1.currentGeneration ≠ before.currentGeneration ∧
      ((∃ paths, s.2.phase = .removing paths) ∨ ∃ status, s.2.phase = .finished status)

def Doomed (before : Store Fact) (s : Store Fact × Job Fact) : Prop :=
  ∃ found prepared manifest, s.2.phase = .replacing found prepared manifest ∧ found.path ∈ s.2.seenPaths ∧
     found.path ∉ manifest.map ManifestRow.path ∧
      Job.sameHash (before.files.get? found.path) found.contentHash = false

/-! ## Steps -/

theorem notMem_of_nodup {seenPaths : List String} {manifest : List ManifestRow} {path : String}
    (h : (seenPaths ++ manifest.map ManifestRow.path).Nodup) (hseen : path ∈ seenPaths) :
    path ∉ manifest.map ManifestRow.path := fun hmem => (nodup_append.mp h).2.2 path hseen path hmem rfl

theorem nodup_snoc {seenPaths : List String} {row : ManifestRow} {manifest : List ManifestRow}
    (h : (seenPaths ++ (row :: manifest).map ManifestRow.path).Nodup) :
    ((seenPaths ++ [row.path]) ++ manifest.map ManifestRow.path).Nodup := by
  rw [append_assoc]
  exact h

theorem fresh_step (h : Fresh before (store, job)) (hquiet : move = .advance → job.Quiet x disk)
    (hstep : Job.Steps x disk store job move store' job') : Fresh before (store', job') := by
  obtain ⟨hsame, htarget, hphase⟩ := h
  cases hstep with
  | stop | fail => exact ⟨hsame, htarget, trivial⟩
  | advance hadvances =>
    have hnoWrite := hquiet rfl
    unfold Job.Quiet at hnoWrite
    cases hadvances with
    | scanned hvisiting =>
      refine ⟨hsame, htarget, store.files.nodup.sublist (filter_sublist.map Prod.fst), fun entry hentry => ?_⟩
      have hrow := (store.mem_iterFiles entry.1 entry.2).mp hentry
      rwa [hsame.1] at hrow
    | skipped hvisiting =>
      rw [hvisiting] at hphase
      exact ⟨hsame, htarget, nodup_snoc hphase⟩
    | visited hvisiting =>
      rw [hvisiting] at hphase
      exact ⟨hsame, htarget, mem_append_right _ mem_cons_self, nodup_snoc hphase, by rw [hsame.1]⟩
    | unhashed hhashing | hashed hhashing =>
      rw [hhashing] at hphase
      first | exact ⟨hsame, htarget, hphase.2.1⟩ | exact ⟨hsame, htarget, hphase⟩
    | unmeasured hmeasuring | reused hmeasuring =>
      rw [hmeasuring] at hphase
      exact ⟨hsame, htarget, hphase.2.1⟩
    | measured hmeasuring hfile hdiffers =>
      rw [hmeasuring] at hphase
      obtain ⟨hseen, hnodup, rfl⟩ := hphase
      exact ⟨hsame, htarget, hseen, hnodup, hdiffers⟩
    | unread => exact ⟨hsame, htarget, trivial⟩
    | unparsed hextracting =>
      rw [hextracting] at hphase
      exact ⟨hsame, htarget, hphase.2.1⟩
    | prepared hextracting hfile hread hextract =>
      rw [hextracting] at hnoWrite
      rw [hnoWrite _ hfile hread] at hextract
      cases hextract
    | swept hsweeping hvanished =>
      rw [hsweeping] at hnoWrite
      rw [hnoWrite] at hvanished
      cases hvanished
    | spared hsweeping =>
      rw [hsweeping] at hphase
      exact ⟨hsame, htarget, (nodup_cons.mp hphase.1).2, fun entry hentry => hphase.2 entry (mem_cons_of_mem _ hentry)⟩
    | committed hsweeping =>
      rw [hsweeping] at hnoWrite
      exact hnoWrite.elim
    | replacedCached hother | replaced hother | cached hother | removed hother | ended hother =>
      rw [hother] at hphase
      exact hphase.elim

theorem sameHash_of_live {row : FileRow} {contentHash : String} (hhash : row.contentHash = contentHash)
    (hlive : row.isDeleted = false) : Job.sameHash (some row) contentHash = true := by
  simp [Job.sameHash, hhash, hlive]

theorem fresh_falls (h : Fresh before (store, job)) (hloud : ¬job.Quiet x disk)
    (hstep : Job.Steps x disk store job .advance store' job') : Doomed before (store', job') ∨ Spoiled before (store', job') := by
  obtain ⟨hsame, htarget, hphase⟩ := h
  unfold Job.Quiet at hloud
  cases hstep with
  | advance hadvances =>
    cases hadvances with
    | prepared hextracting =>
      rw [hextracting] at hphase
      exact .inl ⟨_, _, _, rfl, hphase.1, notMem_of_nodup hphase.2.1 hphase.1, hphase.2.2⟩
    | @swept path existing files hsweeping hvanished =>
      rw [hsweeping] at hphase
      have hexisting : before.files.get? path = some existing := (hphase.2 _ mem_cons_self).1
      have hlive : existing.isDeleted = false := (hphase.2 _ mem_cons_self).2
      refine .inr (.inl ⟨path, ?_, .inr (nodup_cons.mp hphase.1).1⟩)
      rw [Store.get?_sweepPath, if_pos rfl, hexisting]
      intro heq
      have hdeleted := congrArg FileRow.isDeleted (Option.some.inj heq)
      rw [hlive] at hdeleted
      cases hdeleted
    | committed => exact .inr (.inr ⟨htarget, .inl ⟨_, rfl⟩⟩)
    | unread hextracting hunreadable =>
      rw [hextracting] at hloud
      exact absurd (fun file hfile hread => by rw [hunreadable file hfile] at hread; cases hread) hloud
    | @unparsed found manifest file hextracting hfile hread hextract =>
      rw [hextracting] at hloud
      refine absurd (fun other hother _ => ?_) hloud
      cases hfile.symm.trans hother
      exact hextract
    | spared hsweeping hkept =>
      rw [hsweeping] at hloud
      exact absurd hkept hloud
    | scanned hother | skipped hother | visited hother | unhashed hother | hashed hother | unmeasured hother | reused hother
    | measured hother | replacedCached hother | replaced hother | cached hother | removed hother | ended hother =>
      rw [hother] at hloud
      exact absurd trivial hloud

theorem doomed_step (h : Doomed before (store, job)) (hstep : Job.Steps x disk store job move store' job') : Spoiled before (store', job') := by
  obtain ⟨found, prepared, manifest, hreplacing, hseen, hrest, hdiffers⟩ := h
  replace hreplacing : job.phase = .replacing found prepared manifest := hreplacing
  have hreplaced : (store.replacePath x found prepared job.targetGeneration).files.get? found.path ≠ before.files.get? found.path := by
    rw [Store.get?_replacePath, if_pos rfl]
    intro heq
    rw [← heq, sameHash_of_live rfl rfl] at hdiffers
    cases hdiffers
  cases hstep with
  | stop hpolls => simp [Job.polls, hreplacing] at hpolls
  | fail hfail => simp [Job.mayFail, hreplacing] at hfail
  | advance hadvances =>
    cases hadvances with
    | replacedCached hphase | replaced hphase =>
      cases hreplacing.symm.trans hphase
      exact .inl ⟨found.path, hreplaced, hseen, hrest⟩
    | scanned hphase | skipped hphase | visited hphase | unhashed hphase | hashed hphase | unmeasured hphase | reused hphase
    | measured hphase | unread hphase | unparsed hphase | prepared hphase | cached hphase | swept hphase | spared hphase
    | committed hphase | removed hphase | ended hphase => cases hreplacing.symm.trans hphase

theorem past_step {path : String} (h : job.Past path) (hstep : Job.Steps x disk store job move store' job') :
    store'.files.get? path = store.files.get? path ∧ job'.Past path := by
  unfold Job.Past at h
  cases hstep with
  | stop | fail => exact ⟨rfl, trivial⟩
  | advance hadvances =>
    cases hadvances with
    | scanned hphase =>
      rw [hphase] at h
      exact ⟨rfl, .inl h.1⟩
    | skipped hphase =>
      simp only [hphase, map_cons, mem_cons, not_or] at h
      exact ⟨rfl, mem_append_left _ h.1, h.2.2⟩
    | visited hphase =>
      simp only [hphase, map_cons, mem_cons, not_or] at h
      exact ⟨rfl, mem_append_left _ h.1, h.2.1, h.2.2⟩
    | unhashed hphase | unmeasured hphase | reused hphase | unparsed hphase =>
      rw [hphase] at h
      exact ⟨rfl, h.1, h.2.2⟩
    | hashed hphase | measured hphase | prepared hphase =>
      rw [hphase] at h
      exact ⟨rfl, h⟩
    | replacedCached hphase | replaced hphase =>
      rw [hphase] at h
      exact ⟨by rw [Store.get?_replacePath, if_neg h.2.1], h.1, h.2.2⟩
    | cached hphase =>
      rw [hphase] at h
      exact ⟨rfl, h⟩
    | @swept other existing files hphase hvanished =>
      simp only [hphase, map_cons, mem_cons, not_or] at h
      have hne : path ≠ other := by
        rintro rfl
        rcases h with hseen | hnot
        · exact ((job.vanished_iff path).mp hvanished).1 hseen
        · exact hnot.1 rfl
      exact ⟨by rw [Store.get?_sweepPath, if_neg hne], h.imp_right And.right⟩
    | spared hphase =>
      simp only [hphase, map_cons, mem_cons, not_or] at h
      exact ⟨rfl, h.imp_right And.right⟩
    | unread | committed | removed | ended => exact ⟨rfl, trivial⟩

theorem spoiled_step (h : Spoiled before (store, job)) (hstep : Job.Steps x disk store job move store' job') : Spoiled before (store', job') := by
  rcases h with ⟨path, hdiffers, hpast⟩ | ⟨hgeneration, hphase⟩
  · obtain ⟨hsame, hpast'⟩ := past_step hpast hstep
    exact .inl ⟨path, hsame ▸ hdiffers, hpast'⟩
  · refine .inr ?_
    cases hstep with
    | stop | fail => exact ⟨hgeneration, .inr ⟨_, rfl⟩⟩
    | advance hadvances =>
      cases hadvances with
      | removed => exact ⟨hgeneration, .inl ⟨_, rfl⟩⟩
      | ended => exact ⟨hgeneration, .inr ⟨_, rfl⟩⟩
      | scanned hother | skipped hother | visited hother | unhashed hother | hashed hother | unmeasured hother | reused hother
      | measured hother | unread hother | unparsed hother | prepared hother | replacedCached hother | replaced hother
      | cached hother | swept hother | spared hother | committed hother =>
        rcases hphase with ⟨paths, hphase⟩ | ⟨status, hphase⟩ <;> cases hphase.symm.trans hother

/-! ## Runs -/

instance (disk : Disk Content) (job : Job Fact) : (phase : Phase Fact) → Decidable (job.QuietAt x disk phase)
  | .extracting _ _ => inferInstanceAs (Decidable (∀ file ∈ _, _ → _ = none))
  | .sweeping ((_, _) :: _) => inferInstanceAs (Decidable (_ = false))
  | .sweeping [] => .isFalse not_false
  | .visiting _ | .hashing _ _ _ | .measuring _ _ _ _ | .replacing _ _ _ | .caching _ _ _ | .removing _ | .finished _ =>
    .isTrue trivial

instance (s : Store Fact × Job Fact) (action : Disk Content × JobMove) (next : Store Fact × Job Fact) : Decidable (QuietStep x s action next) :=
  inferInstanceAs (Decidable (_ → Job.QuietAt _ _ _ _))

/-- A stopped reindex leaves rows and generation alone exactly when nothing was extracted, swept or committed. -/
theorem stopped_preserves_iff {pathScope : List String} {actions : List (Disk Content × JobMove)} {status : Status}
    (hrun : run (Job.stepOn x) (before, Job.start x disk before pathScope) actions = some (store, job))
    (hstatus : job.status? = some status) :
    before.SameIndex store ↔ Throughout (Job.stepOn x) (QuietStep x) (before, Job.start x disk before pathScope) actions := by
  have hgood : ∀ s action next, Fresh before s → QuietStep x s action next → Job.stepOn x s action = some next →
      Fresh before next := fun _ _ _ hfresh hquiet hstep => fresh_step hfresh hquiet (Job.steps_of_step hstep)
  have hfall : ∀ s action next, Fresh before s → ¬QuietStep x s action next → Job.stepOn x s action = some next →
      Doomed before next ∨ Spoiled before next := by
    intro s action next hfresh hloud hstep
    obtain ⟨hadvance, hloud⟩ := Classical.not_imp.mp hloud
    have hsteps := Job.steps_of_step hstep
    rw [hadvance] at hsteps
    exact fresh_falls hfresh hloud hsteps
  have hbad : ∀ s action next, Doomed before s ∨ Spoiled before s → Job.stepOn x s action = some next →
      Doomed before next ∨ Spoiled before next := by
    rintro s action next (hdoomed | hspoiled) hstep
    · exact .inr (doomed_step hdoomed (Job.steps_of_step hstep))
    · exact .inr (spoiled_step hspoiled (Job.steps_of_step hstep))
  rcases Throughout.good_or_bad hgood hfall hbad (start_fresh x disk before pathScope) hrun with ⟨hquiet, hfresh⟩ | ⟨hloud, hbad⟩
  · exact iff_of_true hfresh.same hquiet
  · refine iff_of_false (fun hsame => ?_) hloud
    rcases hbad with ⟨found, prepared, manifest, hphase, -⟩ | ⟨path, hdiffers, -⟩ | ⟨hgeneration, -⟩
    · replace hphase : job.phase = .replacing found prepared manifest := hphase
      simp [Job.status?, hphase] at hstatus
    · exact hdiffers (congrArg (Dict.get? · path) hsame.1)
    · exact hgeneration hsame.2.2

def halfIndexed : Disk String × Store Unit where
  fst := Dict.ofList [("a", { content := "1", mtimeNs := 1 }), ("b", { content := "2", mtimeNs := 1 })]
  snd :=
    { files := Dict.ofList [("a", { contentHash := "1", sizeBytes := 1, mtimeNs := 1, indexedGeneration := 1, isDeleted := false })]
      currentGeneration := 1 }

def halfRun : Option (Store Unit × Job Unit) :=
  run (Job.stepOn plainIndexer) (halfIndexed.2, Job.start plainIndexer halfIndexed.1 halfIndexed.2 [])
    [(halfIndexed.1, .advance), (halfIndexed.1, .stop .cancelled)]

theorem stopped_preserves_indexed : halfIndexed.2.SameIndex (halfRun.get (by decide +kernel)).1 := by
  have hrun : halfRun = some (halfRun.get (by decide +kernel)) := (Option.some_get _).symm
  have hstatus : (halfRun.get (by decide +kernel)).2.status? = some .cancelled := by decide +kernel
  exact (stopped_preserves_iff hrun hstatus).mpr (by decide +kernel)

/-- Cancelled at the second of two new files, it leaves the rows of the first. -/
theorem cancelled_leaves_rows : ∃ s, run (Job.stepOn plainIndexer) ({}, Job.start plainIndexer halfIndexed.1 {} [])
        (List.replicate 6 (halfIndexed.1, .advance) ++ [(halfIndexed.1, .stop .cancelled)]) = some s ∧
      s.2.status? = some .cancelled ∧ ¬({} : Store Unit).SameIndex s.1 := by
  refine ⟨_, (Option.some_get (by decide +kernel)).symm, by decide +kernel, fun hsame => ?_⟩
  exact absurd (congrArg (Dict.get? · "a") hsame.1) (by decide +kernel)

end RalphWorkflow.Explore
