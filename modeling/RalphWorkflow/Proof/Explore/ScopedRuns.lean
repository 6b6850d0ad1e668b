import RalphWorkflow.Lib.Run
import RalphWorkflow.Proof.Explore.Steps

/-! What a reindex with a scope leaves of the paths outside and inside it, over a workspace that does not change meanwhile. -/
namespace RalphWorkflow.Explore

open Lib Lib.Run List

variable {Content Fact : Type} {x : Indexer Content Fact} {disk : Disk Content} {before store store' : Store Fact}
  {job job' : Job Fact} {move : JobMove} {pathScope : List String}

/-! ## The contract -/

def Store.Untouched (before store : Store Fact) (path : String) : Prop :=
  store.files.get? path = before.files.get? path ∧ store.rows path = before.rows path

/-- The path has no live file row, and no chunk or structure rows. -/
def Store.Gone (store : Store Fact) (path : String) : Prop :=
  ¬store.Live path ∧ (store.rows path).chunks = [] ∧ (store.rows path).fts = [] ∧ (store.rows path).spans = [] ∧
    (store.rows path).symbols = [] ∧ (store.rows path).edges = []

def Store.Current (x : Indexer Content Fact) (store : Store Fact) (path : String) (file : DiskFile Content) : Prop :=
  Job.sameHash (store.files.get? path) (x.sha256 file.content) = true

structure ScopeContract (x : Indexer Content Fact) (disk : Disk Content) (before store : Store Fact) (pathScope : List String) :
    Prop where
  outside : ∀ path ∉ pathScope, (before.files.get? path).isSome → before.Untouched store path
  gone : ∀ path ∈ pathScope, disk.get? path = none → store.Gone path
  current : ∀ path ∈ pathScope, ∀ file, disk.get? path = some file → file.readable = true → store.Current x path file

def manifestRow (x : Indexer Content Fact) (path : String) (file : DiskFile Content) : ManifestRow where
  path := path
  sizeBytes := x.size file.content
  mtimeNs := file.mtimeNs

/-- The path is indexed, or the walk comes to it, sees a change, and it can be extracted. -/
def Store.WillBeCurrent (x : Indexer Content Fact) (before : Store Fact) (path : String) (file : DiskFile Content) : Prop :=
  before.Current x path file ∨
    indexable path = true ∧ before.prefilter (manifestRow x path file) = false ∧
      (x.extractStructure path (x.readText file.content) (x.sha256 file.content)).isSome = true

/-- No live file is outside the scope, and those in it are indexed or will be. -/
structure ScopeReady (x : Indexer Content Fact) (disk : Disk Content) (before : Store Fact) (pathScope : List String) : Prop where
  outside : ∀ path ∉ pathScope, ¬before.Live path
  gone : ∀ path ∈ pathScope, disk.get? path = none → before.Gone path
  current : ∀ path ∈ pathScope, ∀ file, disk.get? path = some file → file.readable = true → before.WillBeCurrent x path file

/-! ## The scan -/

structure Scan (x : Indexer Content Fact) (disk : Disk Content) (before : Store Fact) (pathScope : List String)
    (store : Store Fact) (seenPaths : List String) (current : Option String) (manifest : List ManifestRow) : Prop where
  queue : store.dirtyPaths = before.dirtyPaths
  order : seenPaths ++ manifest.map ManifestRow.path = (scopedManifest x disk pathScope).map ManifestRow.path
  rows : ∀ row ∈ manifest, row ∈ scopedManifest x disk pathScope
  currentSeen : ∀ path, current = some path → path ∈ seenPaths
  untouched : ∀ path, path ∉ seenPaths ∨ current = some path → before.Untouched store path
  settled : ∀ path ∈ seenPaths, current ≠ some path → ∀ file, disk.get? path = some file → file.readable = true →
    (store.Current x path file ↔ before.WillBeCurrent x path file)

def Store.Visits (x : Indexer Content Fact) (disk : Disk Content) (before : Store Fact) (path : String) : Prop :=
  indexable path = true ∧ ∀ file, disk.get? path = some file → before.prefilter (manifestRow x path file) = false

def Found.Differs (x : Indexer Content Fact) (disk : Disk Content) (before : Store Fact) (found : Found) : Prop :=
  Job.sameHash (before.files.get? found.path) found.contentHash = false ∧
    ∃ file, disk.get? found.path = some file ∧ found.contentHash = x.sha256 file.content

/-! ## The sweep -/

/-- Inside the scope all is done; outside it what was live is still to be swept, or is no longer live. -/
structure Sweep (x : Indexer Content Fact) (disk : Disk Content) (before : Store Fact) (pathScope : List String)
    (store : Store Fact) (seenPaths : List String) (files : List (String × FileRow)) : Prop where
  seen : ∀ path ∈ seenPaths, path ∈ pathScope
  gone : ∀ path ∈ pathScope, disk.get? path = none → before.Untouched store path
  current : ∀ path ∈ pathScope, ∀ file, disk.get? path = some file → file.readable = true →
    (store.Current x path file ↔ before.WillBeCurrent x path file)
  dead : ∀ path ∉ pathScope, ¬before.Live path → before.Untouched store path
  live : ∀ path ∉ pathScope, before.Live path → path ∈ files.map Prod.fst ∨ ¬store.Live path
  victims : ∀ entry ∈ files, entry.1 ∉ pathScope → before.Live entry.1

def Phase.Scoped (x : Indexer Content Fact) (disk : Disk Content) (before : Store Fact) (pathScope : List String)
    (store : Store Fact) (seenPaths : List String) : Phase Fact → Prop
  | .visiting manifest | .caching _ _ manifest => Scan x disk before pathScope store seenPaths none manifest
  | .hashing path previous manifest =>
    Scan x disk before pathScope store seenPaths (some path) manifest ∧ before.Visits x disk path ∧
      previous = before.files.get? path
  | .measuring path previous contentHash manifest =>
    Scan x disk before pathScope store seenPaths (some path) manifest ∧ before.Visits x disk path ∧
      previous = before.files.get? path ∧ ∃ file, disk.get? path = some file ∧ contentHash = x.sha256 file.content
  | .extracting found manifest =>
    Scan x disk before pathScope store seenPaths (some found.path) manifest ∧ before.Visits x disk found.path ∧
      found.Differs x disk before
  | .replacing found _ manifest =>
    Scan x disk before pathScope store seenPaths (some found.path) manifest ∧ before.Visits x disk found.path ∧
      found.Differs x disk before ∧
        ∀ file, disk.get? found.path = some file →
          (x.extractStructure found.path (x.readText file.content) (x.sha256 file.content)).isSome = true
  | .sweeping files => Sweep x disk before pathScope store seenPaths files
  | .removing _ | .finished .ok | .finished .skippedNoChanges => Sweep x disk before pathScope store seenPaths []
  | .finished .cancelled | .finished .timedOut | .finished .failed => True

structure ScopedJob (x : Indexer Content Fact) (disk : Disk Content) (before : Store Fact) (pathScope : List String)
    (s : Store Fact × Job Fact) : Prop where
  scope : s.2.pathScope = pathScope
  phase : s.2.phase.Scoped x disk before pathScope s.1 s.2.seenPaths

/-! ## Steps of the scan -/

theorem Store.Untouched.current_iff {path : String} {file : DiskFile Content} (h : before.Untouched store path) :
    store.Current x path file ↔ before.Current x path file := by
  unfold Store.Current
  rw [h.1]

theorem Store.Untouched.live_iff {path : String} (h : before.Untouched store path) : store.Live path ↔ before.Live path := by
  unfold Store.Live
  rw [h.1]

theorem Store.prefilter_congr {row : ManifestRow} (hfile : store.files.get? row.path = before.files.get? row.path)
    (hqueue : store.dirtyPaths = before.dirtyPaths) : store.prefilter row = before.prefilter row := by
  unfold Store.prefilter
  rw [hfile, hqueue]

namespace Scan

variable {seenPaths : List String} {current : Option String} {manifest : List ManifestRow} {row : ManifestRow} {path : String}

theorem nodup (h : Scan x disk before pathScope store seenPaths current manifest) : (seenPaths ++ manifest.map ManifestRow.path).Nodup := by
  rw [h.order]
  exact nodup_scopedManifest x disk pathScope

theorem unseen (h : Scan x disk before pathScope store seenPaths current (row :: manifest)) : row.path ∉ seenPaths :=
  fun hseen => (nodup_append.mp h.nodup).2.2 _ hseen _ (mem_map_of_mem mem_cons_self) rfl

theorem visit (h : Scan x disk before pathScope store seenPaths none (row :: manifest)) :
    Scan x disk before pathScope store (seenPaths ++ [row.path]) (some row.path) manifest where
  queue := h.queue
  order := by
    rw [append_assoc]
    exact h.order
  rows other hother := h.rows other (mem_cons_of_mem _ hother)
  currentSeen path hpath := by
    rw [← Option.some.inj hpath]
    exact mem_append_right _ mem_cons_self
  untouched path hpath := by
    by_cases heq : path = row.path
    · exact h.untouched path (.inl (heq ▸ h.unseen))
    · rcases hpath with hnot | hcurrent
      · exact h.untouched path (.inl fun hseen => hnot (mem_append_left _ hseen))
      · exact absurd (Option.some.inj hcurrent).symm heq
  settled path hseen hcurrent := by
    rcases mem_append.mp hseen with hbefore | hlast
    · exact h.settled path hbefore (by simp)
    · exact absurd (congrArg some (mem_singleton.mp hlast).symm) hcurrent

theorem settle (h : Scan x disk before pathScope store seenPaths (some path) manifest)
    (hresult : ∀ file, disk.get? path = some file → file.readable = true →
      (store.Current x path file ↔ before.WillBeCurrent x path file)) :
    Scan x disk before pathScope store seenPaths none manifest where
  queue := h.queue
  order := h.order
  rows := h.rows
  currentSeen _ hnone := by cases hnone
  untouched other hother := h.untouched other (.inl (hother.resolve_right (by simp)))
  settled other hseen _ := by
    by_cases heq : other = path
    · exact heq ▸ hresult
    · exact h.settled other hseen fun hsome => heq (Option.some.inj hsome).symm

theorem current_iff (h : Scan x disk before pathScope store seenPaths (some path) manifest) (file : DiskFile Content) :
    store.Current x path file ↔ before.Current x path file := (h.untouched path (.inr rfl)).current_iff

theorem mem_manifest (h : Scan x disk before pathScope store seenPaths current (row :: manifest)) :
    indexable row.path = true ∧ ∃ file, disk.get? row.path = some file ∧ row = manifestRow x row.path file := by
  have hcollect := (mem_filter.mp (h.rows row mem_cons_self)).1
  obtain ⟨hindexable, file, hfile, hsize, hmtime⟩ := (mem_collect row).mp hcollect
  refine ⟨hindexable, file, hfile, ?_⟩
  obtain ⟨rowPath, sizeBytes, mtimeNs⟩ := row
  simp_all [manifestRow]

theorem skip (h : Scan x disk before pathScope store seenPaths none (row :: manifest)) (hfilter : store.prefilter row = true) :
    Scan x disk before pathScope store (seenPaths ++ [row.path]) none manifest := by
  obtain ⟨-, file, hfile, hrow⟩ := h.mem_manifest
  refine h.visit.settle fun other hother _ => ?_
  cases hfile.symm.trans hother
  have hbefore : before.prefilter (manifestRow x row.path file) = true := by
    rw [← hrow, ← Store.prefilter_congr (h.untouched row.path (.inl h.unseen)).1 h.queue]
    exact hfilter
  rw [h.visit.current_iff]
  refine ⟨.inl, fun hwill => hwill.resolve_right fun hright => ?_⟩
  rw [hbefore] at hright
  cases hright.2.1

theorem visits (h : Scan x disk before pathScope store seenPaths none (row :: manifest)) (hfilter : store.prefilter row = false) :
    before.Visits x disk row.path := by
  obtain ⟨hindexable, file, hfile, hrow⟩ := h.mem_manifest
  refine ⟨hindexable, fun other hother => ?_⟩
  cases hfile.symm.trans hother
  rw [← hrow, ← Store.prefilter_congr (h.untouched row.path (.inl h.unseen)).1 h.queue]
  exact hfilter

theorem replace {found : Found} {prepared : Prepared Fact} {generation : Nat}
    (h : Scan x disk before pathScope store seenPaths (some found.path) manifest) (hvisits : before.Visits x disk found.path)
    (hdiffers : found.Differs x disk before)
    (hextract : ∀ file, disk.get? found.path = some file →
      (x.extractStructure found.path (x.readText file.content) (x.sha256 file.content)).isSome = true) :
    Scan x disk before pathScope (store.replacePath x found prepared generation) seenPaths none manifest where
  queue := h.queue
  order := h.order
  rows := h.rows
  currentSeen _ hnone := by cases hnone
  untouched path hpath := by
    have hunseen : path ∉ seenPaths := hpath.resolve_right (by simp)
    have hne : path ≠ found.path := fun heq => hunseen (heq ▸ h.currentSeen _ rfl)
    have hsame := h.untouched path (.inl hunseen)
    refine ⟨?_, ?_⟩
    · rw [Store.get?_replacePath, if_neg hne]
      exact hsame.1
    · rw [Store.rows_replacePath, Function.update_of_ne hne]
      exact hsame.2
  settled path hseen _ file hfile hread := by
    by_cases heq : path = found.path
    · subst heq
      obtain ⟨-, hashed, hashedFile, hhash⟩ := hdiffers
      cases hashedFile.symm.trans hfile
      refine iff_of_true ?_ (.inr ⟨hvisits.1, hvisits.2 file hfile, hextract file hfile⟩)
      unfold Store.Current
      rw [Store.get?_replacePath, if_pos rfl]
      simp [Job.sameHash, hhash]
    · have hsettled := h.settled path hseen (fun hsome => heq (Option.some.inj hsome).symm) file hfile hread
      rw [← hsettled]
      unfold Store.Current
      rw [Store.get?_replacePath, if_neg heq]

theorem seen_iff (h : Scan x disk before pathScope store seenPaths none []) (path : String) :
    path ∈ seenPaths ↔ ∃ row ∈ scopedManifest x disk pathScope, row.path = path := by
  have horder := h.order
  rw [map_nil, append_nil] at horder
  rw [horder, mem_map]

end Scan

/-! ## Steps of the sweep -/

theorem mem_scopedManifest (hscope : pathScope ≠ []) {row : ManifestRow} :
    row ∈ scopedManifest x disk pathScope ↔ row ∈ collectWorkspaceFiles x disk ∧ row.path ∈ pathScope := by
  unfold scopedManifest
  rw [mem_filter]
  simp [hscope]

namespace Sweep

variable {seenPaths : List String} {files : List (String × FileRow)} {path : String} {existing : FileRow}

theorem of_scan (hscope : pathScope ≠ []) (h : Scan x disk before pathScope store seenPaths none []) :
    Sweep x disk before pathScope store seenPaths store.iterFiles := by
  have hseen : ∀ path ∈ seenPaths, path ∈ pathScope ∧ ∃ file, disk.get? path = some file := by
    intro path hpath
    obtain ⟨row, hrow, rfl⟩ := (h.seen_iff path).mp hpath
    obtain ⟨hcollect, hmem⟩ := (mem_scopedManifest hscope).mp hrow
    obtain ⟨-, file, hfile, -⟩ := (mem_collect row).mp hcollect
    exact ⟨hmem, file, hfile⟩
  have houtside : ∀ path ∉ pathScope, before.Untouched store path :=
    fun path hpath => h.untouched path (.inl fun hmem => hpath (hseen path hmem).1)
  refine ⟨fun path hpath => (hseen path hpath).1, fun path _ hnone => ?_, fun path hpath file hfile hread => ?_,
    fun path hpath _ => houtside path hpath, fun path hpath hlive => .inl ?_, fun entry hentry hpath => ?_⟩
  · refine h.untouched path (.inl fun hmem => ?_)
    obtain ⟨-, file, hfile⟩ := hseen path hmem
    cases hnone.symm.trans hfile
  · by_cases hmem : path ∈ seenPaths
    · exact h.settled path hmem (by simp) file hfile hread
    · rw [(h.untouched path (.inl hmem)).current_iff]
      refine ⟨.inl, fun hwill => hwill.resolve_right fun hright => hmem ?_⟩
      refine (h.seen_iff path).mpr ⟨manifestRow x path file, (mem_scopedManifest hscope).mpr ⟨?_, hpath⟩, rfl⟩
      exact (mem_collect _).mpr ⟨hright.1, file, hfile, rfl, rfl⟩
  · obtain ⟨row, hrow⟩ := (houtside path hpath).live_iff.mpr hlive
    exact mem_map.mpr ⟨(path, row), (store.mem_iterFiles path row).mpr hrow, rfl⟩
  · exact (houtside entry.1 hpath).live_iff.mp ⟨entry.2, (store.mem_iterFiles entry.1 entry.2).mp hentry⟩

theorem swept (h : Sweep x disk before pathScope store seenPaths ((path, existing) :: files)) (hpath : path ∉ pathScope)
    (generation : Nat) : Sweep x disk before pathScope (store.sweepPath path existing generation) seenPaths files := by
  have hother : ∀ other, other ≠ path → store.Untouched (store.sweepPath path existing generation) other := by
    intro other hne
    refine ⟨by rw [Store.get?_sweepPath, if_neg hne], ?_⟩
    rw [Store.rows_sweepPath, Function.update_of_ne hne]
  have hinside : ∀ other ∈ pathScope, store.Untouched (store.sweepPath path existing generation) other :=
    fun other hmem => hother other fun heq => hpath (heq ▸ hmem)
  have hlivePath : before.Live path := h.victims _ mem_cons_self hpath
  refine ⟨h.seen, fun other hmem hnone => ?_, fun other hmem file hfile hread => ?_, fun other hmem hdead => ?_,
    fun other hmem hlive => ?_, fun entry hentry => h.victims entry (mem_cons_of_mem _ hentry)⟩
  · have hbefore := h.gone other hmem hnone
    exact ⟨(hinside other hmem).1.trans hbefore.1, (hinside other hmem).2.trans hbefore.2⟩
  · exact (hinside other hmem).current_iff.trans (h.current other hmem file hfile hread)
  · have hne : other ≠ path := fun heq => hdead (heq ▸ hlivePath)
    have hbefore := h.dead other hmem hdead
    exact ⟨(hother other hne).1.trans hbefore.1, (hother other hne).2.trans hbefore.2⟩
  · by_cases heq : other = path
    · refine .inr ?_
      rintro ⟨row, hrow, hnot⟩
      rw [Store.get?_sweepPath, if_pos heq] at hrow
      cases hrow
      cases hnot
    · rcases h.live other hmem hlive with hleft | hdead
      · exact .inl ((mem_cons.mp hleft).resolve_left heq)
      · exact .inr fun hnow => hdead ((hother other heq).live_iff.mp hnow)

theorem spared (h : Sweep x disk before pathScope store seenPaths ((path, existing) :: files)) (hpath : path ∈ pathScope) :
    Sweep x disk before pathScope store seenPaths files where
  seen := h.seen
  gone := h.gone
  current := h.current
  dead := h.dead
  victims entry hentry := h.victims entry (mem_cons_of_mem _ hentry)
  live other hmem hlive := by
    refine (h.live other hmem hlive).imp_left fun hleft => (mem_cons.mp hleft).resolve_left ?_
    rintro rfl
    exact hmem hpath

theorem congr (h : Sweep x disk before pathScope store seenPaths files) (hfiles : store'.files = store.files)
    (hrows : store'.rows = store.rows) : Sweep x disk before pathScope store' seenPaths files := by
  obtain ⟨hseen, hgone, hcurrent, hdead, hlive, hvictims⟩ := h
  refine ⟨hseen, ?_, ?_, ?_, ?_, hvictims⟩
  · simpa only [Store.Untouched, hfiles, hrows] using hgone
  · simpa only [Store.Current, hfiles] using hcurrent
  · simpa only [Store.Untouched, hfiles, hrows] using hdead
  · simpa only [Store.Live, hfiles] using hlive

end Sweep

/-! ## Runs -/

theorem start_scoped (x : Indexer Content Fact) (disk : Disk Content) (before : Store Fact) (pathScope : List String) :
    ScopedJob x disk before pathScope (before, Job.start x disk before pathScope) where
  scope := rfl
  phase :=
    { queue := rfl
      order := rfl
      rows := fun _ hrow => hrow
      currentSeen := fun _ hnone => by cases hnone
      untouched := fun _ _ => ⟨rfl, rfl⟩
      settled := fun _ hseen => by cases hseen }

theorem scoped_step (hscope : pathScope ≠ []) (h : ScopedJob x disk before pathScope (store, job))
    (hstep : Job.Steps x disk store job move store' job') : ScopedJob x disk before pathScope (store', job') := by
  obtain ⟨hjobScope, hphase⟩ := h
  cases hstep with
  | stop => exact ⟨hjobScope, by rename_i stop _; cases stop <;> trivial⟩
  | fail => exact ⟨hjobScope, trivial⟩
  | advance hadvances =>
    cases hadvances with
    | scanned hcase =>
      rw [hcase] at hphase
      exact ⟨hjobScope, .of_scan hscope hphase⟩
    | skipped hcase hfilter =>
      rw [hcase] at hphase
      exact ⟨hjobScope, hphase.skip hfilter⟩
    | visited hcase hfilter =>
      rw [hcase] at hphase
      exact ⟨hjobScope, hphase.visit, hphase.visits hfilter, (hphase.untouched _ (.inl hphase.unseen)).1⟩
    | unhashed hcase hunreadable =>
      rw [hcase] at hphase
      refine ⟨hjobScope, hphase.1.settle fun file hfile hread => ?_⟩
      rw [hunreadable file hfile] at hread
      cases hread
    | hashed hcase hfile =>
      rw [hcase] at hphase
      exact ⟨hjobScope, hphase.1, hphase.2.1, hphase.2.2, _, hfile, rfl⟩
    | unmeasured hcase hnone =>
      rw [hcase] at hphase
      obtain ⟨-, -, -, file, hfile, -⟩ := hphase
      cases hnone.symm.trans hfile
    | reused hcase hfile hsame =>
      rw [hcase] at hphase
      obtain ⟨hscan, -, rfl, hashed, hhashed, rfl⟩ := hphase
      refine ⟨hjobScope, hscan.settle fun file hother _ => ?_⟩
      cases hhashed.symm.trans hother
      rw [hscan.current_iff]
      exact iff_of_true hsame (.inl hsame)
    | measured hcase hfile hdiffers =>
      rw [hcase] at hphase
      obtain ⟨hscan, hvisits, rfl, hashed⟩ := hphase
      exact ⟨hjobScope, hscan, hvisits, hdiffers, hashed⟩
    | unread => exact ⟨hjobScope, trivial⟩
    | unparsed hcase hfile hread hextract =>
      rw [hcase] at hphase
      obtain ⟨hscan, -, hdiffers, hashed, hhashed, hhash⟩ := hphase
      refine ⟨hjobScope, hscan.settle fun file hother _ => ?_⟩
      cases hfile.symm.trans hother
      cases hfile.symm.trans hhashed
      rw [hhash] at hdiffers hextract
      rw [hscan.current_iff]
      refine ⟨.inl, fun hwill => hwill.resolve_right fun hright => ?_⟩
      rw [hextract] at hright
      cases hright.2.2
    | prepared hcase hfile hread hextract =>
      rw [hcase] at hphase
      refine ⟨hjobScope, hphase.1, hphase.2.1, hphase.2.2, fun file hother => ?_⟩
      cases hfile.symm.trans hother
      obtain ⟨-, hashed, hhashed, hhash⟩ := hphase.2.2
      cases hfile.symm.trans hhashed
      rw [← hhash, hextract]
      rfl
    | replacedCached hcase | replaced hcase =>
      rw [hcase] at hphase
      exact ⟨hjobScope, hphase.1.replace hphase.2.1 hphase.2.2.1 hphase.2.2.2⟩
    | cached hcase =>
      rw [hcase] at hphase
      exact ⟨hjobScope, ⟨hphase.queue, hphase.order, hphase.rows, hphase.currentSeen, hphase.untouched, hphase.settled⟩⟩
    | swept hcase hvanished =>
      rw [hcase] at hphase
      have houtside : _ ∉ pathScope := hjobScope ▸ ((job.vanished_iff _).mp hvanished).2
      exact ⟨hjobScope, hphase.swept houtside _⟩
    | @spared path existing files hcase hkept =>
      rw [hcase] at hphase
      have hinside : path ∈ pathScope := by
        by_contra houtside
        have hvanished : job.vanished path = true :=
          (job.vanished_iff path).mpr ⟨fun hseen => houtside (hphase.seen path hseen), hjobScope ▸ houtside⟩
        rw [hkept] at hvanished
        cases hvanished
      exact ⟨hjobScope, hphase.spared hinside⟩
    | committed hcase | removed hcase =>
      rw [hcase] at hphase
      exact ⟨hjobScope, hphase.congr rfl rfl⟩
    | ended hcase =>
      rw [hcase] at hphase
      refine ⟨hjobScope, ?_⟩
      show Phase.Scoped _ _ _ _ _ _ (.finished job.endStatus)
      unfold Job.endStatus
      split <;> exact hphase

/-- A scoped reindex keeps its contract exactly when the index was ready for it. -/
theorem scope_contract_iff {moves : List JobMove} (hscope : pathScope ≠ [])
    (hrun : run (Job.step x disk) (before, Job.start x disk before pathScope) moves = some (store, job))
    (hstatus : job.status? = some .ok ∨ job.status? = some .skippedNoChanges) :
    ScopeContract x disk before store pathScope ↔ ScopeReady x disk before pathScope := by
  have hkeeps : ∀ s move next, ScopedJob x disk before pathScope s → Job.step x disk s move = some next →
      ScopedJob x disk before pathScope next := fun _ _ _ h hstep => scoped_step hscope h (Job.steps_of_step hstep)
  have hscoped : ScopedJob x disk before pathScope (store, job) := invariant hkeeps (start_scoped x disk before pathScope) hrun
  have hsweep : Sweep x disk before pathScope store job.seenPaths [] := by
    have hphase := hscoped.phase
    unfold Job.status? at hstatus
    cases hcase : job.phase with
    | finished status =>
      rw [hcase] at hstatus hphase
      simp only [Option.some.injEq] at hstatus
      rcases hstatus with rfl | rfl <;> exact hphase
    | visiting | hashing | measuring | extracting | replacing | caching | sweeping | removing => simp [hcase] at hstatus
  constructor
  · intro h
    refine ⟨fun path hpath hlive => ?_, fun path hpath hnone => ?_, fun path hpath file hfile hread => ?_⟩
    · have hdead : ¬store.Live path := (hsweep.live path hpath hlive).resolve_left not_mem_nil
      obtain ⟨row, hrow, hnot⟩ := hlive
      exact hdead ((h.outside path hpath (by rw [hrow]; rfl)).live_iff.mpr ⟨row, hrow, hnot⟩)
    · have huntouched := hsweep.gone path hpath hnone
      have hgone := h.gone path hpath hnone
      unfold Store.Gone at hgone ⊢
      rwa [huntouched.live_iff, huntouched.2] at hgone
    · exact (hsweep.current path hpath file hfile hread).mp (h.current path hpath file hfile hread)
  · intro h
    refine ⟨fun path hpath _ => hsweep.dead path hpath (h.outside path hpath), fun path hpath hnone => ?_,
      fun path hpath file hfile hread => ?_⟩
    · have huntouched := hsweep.gone path hpath hnone
      have hgone := h.gone path hpath hnone
      unfold Store.Gone at hgone ⊢
      rwa [huntouched.live_iff, huntouched.2]
    · exact (hsweep.current path hpath file hfile hread).mpr (h.current path hpath file hfile hread)

def twoIndexed : Disk String × Store Unit where
  fst := Dict.ofList [("a", { content := "1", mtimeNs := 1 }), ("b", { content := "2", mtimeNs := 1 })]
  snd :=
    { files := Dict.ofList [("a", { contentHash := "1", sizeBytes := 1, mtimeNs := 1, indexedGeneration := 1, isDeleted := false }),
          ("b", { contentHash := "2", sizeBytes := 1, mtimeNs := 1, indexedGeneration := 1, isDeleted := false })]
      currentGeneration := 1 }

def firstScoped : Option (Store Unit × Job Unit) :=
  run (Job.step plainIndexer twoIndexed.1) ({}, Job.start plainIndexer twoIndexed.1 {} ["a"]) (List.replicate 11 .advance)

theorem empty_ready : ScopeReady plainIndexer twoIndexed.1 {} ["a"] where
  outside _ _ h := by
    obtain ⟨row, hrow, -⟩ := h
    cases hrow
  gone _ _ _ := by
    refine ⟨?_, rfl, rfl, rfl, rfl, rfl⟩
    rintro ⟨row, hrow, -⟩
    cases hrow
  current path hpath _ _ _ := by
    rw [mem_singleton.mp hpath]
    exact .inr ⟨by decide +kernel, rfl, rfl⟩

theorem scope_contract_first : ScopeContract plainIndexer twoIndexed.1 {} (firstScoped.get (by decide +kernel)).1 ["a"] := by
  have hrun : firstScoped = some (firstScoped.get (by decide +kernel)) := (Option.some_get _).symm
  have hstatus : (firstScoped.get (by decide +kernel)).2.status? = some .ok := by decide +kernel
  exact (scope_contract_iff (by decide) hrun (.inl hstatus)).mpr empty_ready

/-- A reindex of one of two indexed files deletes the other from the index. -/
theorem other_file_swept : ∃ s, run (Job.step plainIndexer twoIndexed.1) (twoIndexed.2, Job.start plainIndexer twoIndexed.1 twoIndexed.2 ["a"])
        (List.replicate 7 .advance) = some s ∧
      s.2.status? = some .skippedNoChanges ∧ ¬ScopeContract plainIndexer twoIndexed.1 twoIndexed.2 s.1 ["a"] := by
  refine ⟨_, (Option.some_get (by decide +kernel)).symm, by decide +kernel, fun h => ?_⟩
  exact absurd (h.outside "b" (by decide) (by decide +kernel)).1 (by decide +kernel)

end RalphWorkflow.Explore
