import RalphWorkflow.Lib.Run
import RalphWorkflow.Workspace.SharedAwareness

/-! A poll shows every path of the owner at work, and tells it apart from what was claimed by the epoch alone. So nothing is missed as long as every
new owner goes on from the document on file, or the reader saw no epoch above the first. -/
namespace RalphWorkflow.Workspace
open Lib.Run List

/-! ## One owner -/

namespace SharedAwarenessSidecar

variable {sidecar next : SharedAwarenessSidecar} {file : Option SidecarDocument}

theorem mem_coalesce {known paths : List String} {path : String} : path ∈ coalesce known paths ↔ path ∈ known ∨ path ∈ paths := by
  unfold coalesce
  induction paths generalizing known with
  | nil => simp
  | cons first rest ih =>
    rw [foldl_cons, ih]
    by_cases hknown : first ∈ known
    · rw [if_pos hknown, mem_cons]
      constructor
      · rintro (hin | hin)
        · exact .inl hin
        · exact .inr (.inr hin)
      · rintro (hin | rfl | hin)
        · exact .inl hin
        · exact .inl hknown
        · exact .inr hin
    · rw [if_neg hknown, mem_append, mem_singleton, mem_cons, or_assoc]

theorem publishChanges_eq_some {paths : List String} {overflowed : Bool} (h : sidecar.publishChanges paths overflowed = some next) :
    sidecar.ownerId.isSome ∧ next.ownerId = sidecar.ownerId ∧ next.epoch = sidecar.epoch + 1 ∧
      next.paths.length ≤ maxPublishedPaths ∧
      ∀ path, path ∈ sidecar.paths ∨ sidecar.overflowed = true ∨ path ∈ paths → path ∈ next.paths ∨ next.overflowed = true := by
  unfold publishChanges at h
  rw [Option.ite_none_left_eq_some] at h
  obtain ⟨howner, hnext⟩ := h
  cases hnext
  refine ⟨Option.isSome_iff_ne_none.mpr (by simpa using howner), rfl, rfl, ?_, ?_⟩
  · simp only [length_drop]
    omega
  · intro path hpath
    have hcoalesced : sidecar.overflowed = true ∨ path ∈ coalesce sidecar.paths paths := by
      rw [mem_coalesce]
      rcases hpath with hin | hover | hin
      · exact .inr (.inl hin)
      · exact .inl hover
      · exact .inr (.inr hin)
    rcases hcoalesced with hover | hin
    · right
      simp [hover]
    · by_cases hlong : maxPublishedPaths < (coalesce sidecar.paths paths).length
      · right
        simp [hlong]
      · left
        have hnone : (coalesce sidecar.paths paths).length - maxPublishedPaths = 0 := by omega
        simpa only [hnone, drop_zero] using hin

variable (sidecar) in
theorem beginOwnership_of_retains {document : SidecarDocument} {ownerId : String} {priorHolder : Option String}
    (h : retains (some document) ownerId priorHolder = true) :
    (sidecar.beginOwnership (some document) ownerId priorHolder).epoch = document.epoch + 1 ∧
      (sidecar.beginOwnership (some document) ownerId priorHolder).paths = document.paths.take maxPublishedPaths ∧
      (sidecar.beginOwnership (some document) ownerId priorHolder).overflowed = document.overflowed := by
  unfold beginOwnership
  simp only [h, if_true, and_self]

variable (sidecar) in
theorem beginOwnership_of_reset {ownerId : String} {priorHolder : Option String} (h : retains file ownerId priorHolder = false) :
    (sidecar.beginOwnership file ownerId priorHolder).epoch = 1 ∧
      (sidecar.beginOwnership file ownerId priorHolder).paths = [] ∧
      (sidecar.beginOwnership file ownerId priorHolder).overflowed = false := by
  unfold beginOwnership
  cases file with
  | none => exact ⟨rfl, rfl, rfl⟩
  | some document =>
    simp only [h, Bool.false_eq_true, if_false]
    exact ⟨rfl, rfl, rfl⟩

theorem poll_of_error {document : SidecarDocument} {cause : String} (h : document.error = some cause) :
    sidecar.poll (some document) = .error cause := by
  simp only [poll, h]

theorem poll_of_ok {document : SidecarDocument} (h : document.error = none) : sidecar.poll (some document) = .ok
      { epoch := document.epoch, paths := document.paths, overflowed := document.overflowed,
        ownerId := document.ownerId.getD "unknown", changed := sidecar.lastClaimedEpoch < document.epoch } := by
  simp only [poll, h]

theorem poll_eq_ok {state : SharedAwarenessState} (h : sidecar.poll file = .ok state) : file = none ∧ state.epoch = 0 ∨
      ∃ document, file = some document ∧ document.error = none ∧ state.epoch = document.epoch := by
  cases file with
  | none =>
    cases h
    exact .inl ⟨rfl, rfl⟩
  | some document =>
    cases herror : document.error with
    | some cause =>
      rw [poll_of_error herror] at h
      cases h
    | none =>
      rw [poll_of_ok herror] at h
      cases h
      exact .inr ⟨document, rfl, herror, rfl⟩

theorem retains_some {ownerId : String} {priorHolder : Option String} (h : retains file ownerId priorHolder = true) :
    ∃ document, file = some document := by
  unfold retains at h
  cases file with
  | some document => exact ⟨document, rfl⟩
  | none => cases priorHolder <;> cases h

end SharedAwarenessSidecar

namespace SharedAwareness

variable {s next : SharedAwareness}

/-! ## Coverage -/

/-- The next poll reports a change with the path, or an overflow, or raises the owner's error. -/
def CoversPath (s : SharedAwareness) (reader : SharedAwarenessSidecar) (path : String) : Prop :=
  match reader.poll s.file with
  | .ok state => state.changed = true ∧ path ∈ state.paths ∨ state.overflowed = true
  | .error _ => True

/-- The next poll covers what was published since the last claim. -/
def Covers (s : SharedAwareness) : Prop := ∀ reader, s.reader = some reader → ∀ path ∈ s.published, s.CoversPath reader path

def pollableEpoch (s : SharedAwareness) : Nat :=
  match s.file with
  | some document => if document.error.isSome then 0 else document.epoch
  | none => 0

/-- A new owner goes on from the document on file; the sidecar is removed with nothing pending. -/
def Orderly (s : SharedAwareness) : AwarenessMove → Prop
  | .beginOwnership ownerId priorHolder written =>
    SharedAwarenessSidecar.retains s.file ownerId priorHolder = true ∨
      s.published = [] ∧ (∀ epoch ∈ s.observed, epoch ≤ 1) ∧ (written = true ∨ s.pollableEpoch ≤ 1)
  | .removeSidecar => s.published = []
  | _ => True

/-- What holds of the file, the owner at work and the reader in every run of orderly moves. -/
structure Sound (s : SharedAwareness) : Prop where
  unread : s.reader = none → s.observed = [] ∧ s.published = []
  claimed : ∀ reader, s.reader = some reader → reader.lastClaimedEpoch = 0 ∨ reader.lastClaimedEpoch ∈ s.observed
  bounded : ∀ document, s.file = some document → document.paths.length ≤ maxPublishedPaths
  seen : ∀ document, s.file = some document → ∀ epoch ∈ s.observed, epoch ≤ document.epoch
  ahead : s.owner.ownerId.isSome → ∀ epoch ∈ s.observed, epoch ≤ s.owner.epoch
  onFile : s.owner.ownerId.isSome → s.pollableEpoch ≤ s.owner.epoch
  held : s.owner.ownerId.isSome → ∀ path ∈ s.published, path ∈ s.owner.paths ∨ s.owner.overflowed = true
  shown : ∀ path ∈ s.published, ∃ document, s.file = some document ∧
    (path ∈ document.paths ∨ document.overflowed = true) ∧
      ∀ reader, s.reader = some reader → reader.lastClaimedEpoch < document.epoch

theorem Sound.covers (h : s.Sound) : s.Covers := by
  intro reader hreader path hpath
  obtain ⟨document, hfile, hlisted, hnewer⟩ := h.shown path hpath
  unfold CoversPath
  rw [hfile]
  cases herror : document.error with
  | some cause => rw [SharedAwarenessSidecar.poll_of_error herror]; trivial
  | none =>
    rw [SharedAwarenessSidecar.poll_of_ok herror]
    rcases hlisted with hin | hover
    · left
      exact ⟨decide_eq_true (hnewer reader hreader), hin⟩
    · right
      exact hover

theorem Sound.claimed_lt (h : s.Sound) {bound : Nat} (hbound : ∀ epoch ∈ s.observed, epoch ≤ bound)
    {reader : SharedAwarenessSidecar} (hreader : s.reader = some reader) : reader.lastClaimedEpoch < bound + 1 := by
  rcases h.claimed reader hreader with hnever | hobserved
  · omega
  · exact Nat.lt_succ_of_le (hbound _ hobserved)

/-! ## One move -/

theorem pollableEpoch_le {bound : Nat} (h : ∀ document, s.file = some document → document.epoch ≤ bound) : s.pollableEpoch ≤ bound := by
  unfold pollableEpoch
  cases hfile : s.file with
  | none => exact Nat.zero_le _
  | some document =>
    dsimp only
    split
    · exact Nat.zero_le _
    · exact h document hfile

theorem Sound.write (h : s.Sound) {owner : SharedAwarenessSidecar} {document : SidecarDocument} {written : Bool}
    {published : List String} (hahead : ∀ epoch ∈ s.observed, epoch ≤ owner.epoch) (hepoch : document.epoch = owner.epoch)
    (hbounded : document.paths.length ≤ maxPublishedPaths) (hunread : s.reader = none → published = [])
    (hheld : ∀ path ∈ published, path ∈ owner.paths ∨ owner.overflowed = true)
    (hwritten : written = true → ∀ path ∈ published, (path ∈ document.paths ∨ document.overflowed = true) ∧
      ∀ reader, s.reader = some reader → reader.lastClaimedEpoch < document.epoch)
    (hkept : written = false → s.pollableEpoch ≤ owner.epoch ∧ ∀ path ∈ published, path ∈ s.published) :
    Sound { s with owner, file := s.write written document, published } := by
  cases written with
  | true =>
    have hfile : ∀ other, s.write true document = some other → other = document := by
      rintro other ⟨⟩
      rfl
    refine ⟨fun hnone => ⟨(h.unread hnone).1, hunread hnone⟩, h.claimed, ?_, ?_, fun _ => hahead, fun _ => ?_,
      fun _ => hheld, ?_⟩
    · intro other hother
      rw [hfile other hother]
      exact hbounded
    · intro other hother
      rw [hfile other hother, hepoch]
      exact hahead
    · apply pollableEpoch_le
      intro other hother
      exact Nat.le_of_eq (by rw [hfile other hother, hepoch])
    · intro path hpath
      obtain ⟨hlisted, hnewer⟩ := hwritten rfl path hpath
      exact ⟨document, rfl, hlisted, hnewer⟩
  | false =>
    obtain ⟨hpollable, hsame⟩ := hkept rfl
    exact ⟨fun hnone => ⟨(h.unread hnone).1, hunread hnone⟩, h.claimed, h.bounded, h.seen, fun _ => hahead,
      fun _ => hpollable, fun _ => hheld, fun path hpath => h.shown path (hsame path hpath)⟩

theorem begin_sound {ownerId : String} {priorHolder : Option String} {written : Bool} (h : s.Sound)
    (horderly : s.Orderly (.beginOwnership ownerId priorHolder written))
    (hstep : s.step (.beginOwnership ownerId priorHolder written) = some next) : next.Sound := by
  unfold step at hstep
  rw [Option.ite_none_left_eq_some] at hstep
  obtain ⟨-, hstep⟩ := hstep
  cases hstep
  cases hretains : SharedAwarenessSidecar.retains s.file ownerId priorHolder with
  | true =>
    obtain ⟨document, hfile⟩ := SharedAwarenessSidecar.retains_some hretains
    rw [hfile] at hretains ⊢
    obtain ⟨hepoch, hpaths, hover⟩ := SharedAwarenessSidecar.beginOwnership_of_retains s.owner hretains
    have hall : document.paths.take maxPublishedPaths = document.paths := take_of_length_le (h.bounded document hfile)
    have hlisted : ∀ path ∈ s.published, path ∈ document.paths ∨ document.overflowed = true := by
      intro path hpath
      obtain ⟨shown, hshown, hlisted, -⟩ := h.shown path hpath
      cases hfile.symm.trans hshown
      exact hlisted
    have hheld : ∀ path ∈ s.published, path ∈ (s.owner.beginOwnership (some document) ownerId priorHolder).paths ∨
        (s.owner.beginOwnership (some document) ownerId priorHolder).overflowed = true := by
      intro path hpath
      rw [hpaths, hover, hall]
      exact hlisted path hpath
    apply h.write
    · intro epoch hobserved
      rw [hepoch]
      exact Nat.le_succ_of_le (h.seen document hfile epoch hobserved)
    · rfl
    · show (s.owner.beginOwnership (some document) ownerId priorHolder).paths.length ≤ _
      rw [hpaths, hall]
      exact h.bounded document hfile
    · exact fun hnone => (h.unread hnone).2
    · exact hheld
    · intro _ path hpath
      refine ⟨hheld path hpath, fun reader hreader => ?_⟩
      show _ < (s.owner.beginOwnership (some document) ownerId priorHolder).epoch
      rw [hepoch]
      exact h.claimed_lt (h.seen document hfile) hreader
    · intro _
      refine ⟨?_, fun _ hpath => hpath⟩
      rw [hepoch]
      apply pollableEpoch_le
      intro shown hshown
      cases hfile.symm.trans hshown
      exact Nat.le_succ _
  | false =>
    obtain ⟨hepoch, hpaths, -⟩ := SharedAwarenessSidecar.beginOwnership_of_reset s.owner hretains
    obtain ⟨hnothing, hobserved, hpollable⟩ : s.published = [] ∧ (∀ epoch ∈ s.observed, epoch ≤ 1) ∧ (written = true ∨ s.pollableEpoch ≤ 1) := by
      rcases horderly with hretained | hfresh
      · rw [hretains] at hretained
        cases hretained
      · exact hfresh
    apply h.write
    · rw [hepoch]
      exact hobserved
    · rfl
    · show (s.owner.beginOwnership s.file ownerId priorHolder).paths.length ≤ _
      rw [hpaths]
      exact Nat.zero_le _
    · exact fun _ => hnothing
    · rw [hnothing]
      simp
    · rw [hnothing]
      simp
    · intro hfailed
      rw [hepoch]
      refine ⟨hpollable.resolve_left ?_, fun _ hpath => hpath⟩
      rw [hfailed]
      exact Bool.false_ne_true

theorem publish_sound {paths : List String} {overflowed written : Bool} (h : s.Sound)
    (hstep : s.step (.publishChanges paths overflowed written) = some next) : next.Sound := by
  unfold step at hstep
  obtain ⟨owner, hpublish, rfl⟩ := Option.map_eq_some_iff.mp hstep
  obtain ⟨howner, -, hepoch, hbounded, hcovers⟩ := SharedAwarenessSidecar.publishChanges_eq_some hpublish
  have hbefore : ∀ path ∈ s.published, path ∈ owner.paths ∨ owner.overflowed = true := by
    intro path hpath
    rcases h.held howner path hpath with hin | hover
    · exact hcovers path (.inl hin)
    · exact hcovers path (.inr (.inl hover))
  have hheld : ∀ path ∈ (if written && s.reader.isSome then s.published ++ paths else s.published),
      path ∈ owner.paths ∨ owner.overflowed = true := by
    intro path hpath
    split at hpath
    · rcases mem_append.mp hpath with hold | hnew
      · exact hbefore path hold
      · exact hcovers path (.inr (.inr hnew))
    · exact hbefore path hpath
  apply h.write
  · intro epoch hobserved
    rw [hepoch]
    exact Nat.le_succ_of_le (h.ahead howner epoch hobserved)
  · rfl
  · exact hbounded
  · intro hnone
    rw [hnone]
    simp [(h.unread hnone).2]
  · exact hheld
  · intro _ path hpath
    refine ⟨hheld path hpath, fun reader hreader => ?_⟩
    show _ < owner.epoch
    rw [hepoch]
    exact h.claimed_lt (h.ahead howner) hreader
  · intro hfailed
    rw [hfailed, hepoch]
    exact ⟨Nat.le_succ_of_le (h.onFile howner), fun _ hpath => hpath⟩

theorem publishError_sound {cause : String} {written : Bool} (h : s.Sound)
    (hstep : s.step (.publishError cause written) = some next) : next.Sound := by
  unfold step at hstep
  cases howner : s.owner.ownerId with
  | none =>
    simp only [howner, Option.isNone_none, if_true, Option.some.injEq] at hstep
    exact hstep ▸ h
  | some ownerId =>
    have hsome : s.owner.ownerId.isSome = true := by rw [howner]; rfl
    simp only [howner, Option.isNone_some, Bool.false_eq_true, if_false, Option.some.injEq] at hstep
    subst hstep
    apply h.write
    · intro epoch hobserved
      exact Nat.le_succ_of_le (h.ahead hsome epoch hobserved)
    · rfl
    · exact Nat.zero_le _
    · exact fun hnone => (h.unread hnone).2
    · exact h.held hsome
    · intro _ path _
      exact ⟨.inr rfl, fun reader hreader => h.claimed_lt (h.ahead hsome) hreader⟩
    · intro _
      exact ⟨Nat.le_succ_of_le (h.onFile hsome), fun _ hpath => hpath⟩

theorem poll_sound (h : s.Sound) (hstep : s.step .poll = some next) : next.Sound := by
  unfold step at hstep
  obtain ⟨reader, hreader, rfl⟩ := Option.map_eq_some_iff.mp hstep
  have hreads : ¬s.reader = none := by
    rw [hreader]
    exact Option.some_ne_none reader
  -- what the poll returns is on file, and not past the owner at work
  have hnew : ∀ epoch, (∀ document, s.file = some document → epoch ≤ document.epoch) → epoch ≤ s.pollableEpoch →
      Sound { s with observed := epoch :: s.observed } := by
    intro epoch hfile hpollable
    refine ⟨fun hnone => absurd hnone hreads, fun other hother => ?_, h.bounded, fun document hdocument => ?_,
      fun howner => ?_, h.onFile, h.held, h.shown⟩
    · exact (h.claimed other hother).imp id (mem_cons_of_mem _)
    · exact forall_mem_cons.mpr ⟨hfile document hdocument, h.seen document hdocument⟩
    · exact forall_mem_cons.mpr ⟨Nat.le_trans hpollable (h.onFile howner), h.ahead howner⟩
  cases hpoll : reader.poll s.file with
  | error cause => exact h
  | ok state =>
    rcases SharedAwarenessSidecar.poll_eq_ok hpoll with ⟨hnone, hzero⟩ | ⟨document, hfile, herror, hepoch⟩
    · apply hnew
      · intro document hdocument
        rw [hnone] at hdocument
        cases hdocument
      · rw [hzero]
        exact Nat.zero_le _
    · apply hnew
      · intro other hother
        cases hfile.symm.trans hother
        exact Nat.le_of_eq hepoch
      · unfold pollableEpoch
        rw [hfile]
        simp [herror, hepoch]

theorem claim_sound {epoch : Nat} (h : s.Sound) (hstep : s.step (.claimEpoch epoch) = some next) : next.Sound := by
  unfold step at hstep
  obtain ⟨reader, hreader, hclaim⟩ := Option.bind_eq_some_iff.mp hstep
  rw [Option.ite_none_right_eq_some] at hclaim
  obtain ⟨hobserved, hclaim⟩ := hclaim
  cases hclaim
  refine ⟨fun hnone => by simp at hnone, fun other hother => ?_, h.bounded, h.seen, h.ahead, h.onFile, fun _ => ?_, ?_⟩
  · cases hother
    show max epoch reader.lastClaimedEpoch = 0 ∨ max epoch reader.lastClaimedEpoch ∈ s.observed
    rcases Nat.le_total epoch reader.lastClaimedEpoch with hle | hle
    · rw [Nat.max_eq_right hle]
      exact h.claimed reader hreader
    · rw [Nat.max_eq_left hle]
      exact .inr hobserved
  · simp
  · simp

theorem step_sound {move : AwarenessMove} (h : s.Sound) (horderly : s.Orderly move) (hstep : s.step move = some next) : next.Sound := by
  cases move with
  | beginOwnership ownerId priorHolder written => exact begin_sound h horderly hstep
  | publishChanges paths overflowed written => exact publish_sound h hstep
  | publishError cause written => exact publishError_sound h hstep
  | endOwnership =>
    cases hstep
    exact ⟨h.unread, h.claimed, h.bounded, h.seen, nofun, nofun, nofun, h.shown⟩
  | crash =>
    cases hstep
    exact ⟨h.unread, h.claimed, h.bounded, h.seen, nofun, nofun, nofun, h.shown⟩
  | removeSidecar =>
    have hnothing : s.published = [] := horderly
    cases hstep
    refine ⟨h.unread, h.claimed, nofun, nofun, h.ahead, fun _ => Nat.zero_le _, h.held, ?_⟩
    rw [hnothing]
    simp
  | startReading =>
    cases hstep
    refine ⟨nofun, fun reader hreader => ?_, h.bounded, by simp, by simp, h.onFile, by simp, by simp⟩
    cases hreader
    exact .inl rfl
  | poll => exact poll_sound h hstep
  | claimEpoch epoch => exact claim_sound h hstep

theorem initial_sound : ({} : SharedAwareness).Sound :=
  ⟨fun _ => ⟨rfl, rfl⟩, nofun, nofun, nofun, nofun, nofun, nofun, by simp⟩

/-! ## Disorder -/

def LeadsToMiss (s : SharedAwareness) : Prop :=
  ∃ moves reached, Throughout step (fun s move _ => s.Orderly move) s moves ∧ run step s moves = some reached ∧ ¬reached.Covers

theorem LeadsToMiss.now (h : ¬s.Covers) : s.LeadsToMiss := ⟨[], s, trivial, rfl, h⟩

theorem LeadsToMiss.after {move : AwarenessMove} (hstep : s.step move = some next) (horderly : s.Orderly move)
    (h : next.LeadsToMiss) : s.LeadsToMiss := by
  obtain ⟨moves, reached, hthroughout, hrun, hmiss⟩ := h
  refine ⟨move :: moves, reached, ?_, run_cons_iff.mpr ⟨next, hstep, hrun⟩, hmiss⟩
  unfold Throughout
  rw [hstep]
  exact ⟨horderly, hthroughout⟩

structure StartedOver (s : SharedAwareness) : Prop where
  owned : s.owner.ownerId.isSome
  epoch : s.owner.epoch = 1
  paths : s.owner.paths = []
  overflowed : s.owner.overflowed = false

theorem StartedOver.publish (h : s.StartedOver) (paths : List String) (hlength : paths.length ≤ 1) :
    ∃ reached, s.step (.publishChanges paths false true) = some reached ∧ reached.reader = s.reader ∧
      reached.file = some { ownerId := s.owner.ownerId, epoch := 2, paths, overflowed := false } ∧
      (s.reader.isSome → reached.published = s.published ++ paths) := by
  have hcoalesced : SharedAwarenessSidecar.coalesce [] paths = paths := by
    match paths, hlength with
    | [], _ => rfl
    | [path], _ => rfl
  have hshort : paths.length - maxPublishedPaths = 0 := by
    unfold maxPublishedPaths
    omega
  have hfits : ¬maxPublishedPaths < paths.length := by
    unfold maxPublishedPaths
    omega
  have howned : ¬s.owner.ownerId.isNone = true := by
    rw [Option.isNone_iff_eq_none]
    exact Option.isSome_iff_ne_none.mp h.owned
  have hpublish : s.owner.publishChanges paths false = some { s.owner with paths, overflowed := false, epoch := 2 } := by
    unfold SharedAwarenessSidecar.publishChanges
    rw [if_neg howned, h.paths, h.overflowed, h.epoch, hcoalesced]
    simp [hshort, hfits]
  refine ⟨_, Option.map_eq_some_iff.mpr ⟨_, hpublish, rfl⟩, rfl, rfl, fun hreads => ?_⟩
  exact if_pos hreads

theorem StartedOver.misses_pending (h : s.StartedOver) {reader : SharedAwarenessSidecar} (hreader : s.reader = some reader)
    {path : String} (hpending : path ∈ s.published) : s.LeadsToMiss := by
  obtain ⟨reached, hstep, hsame, hfile, hpublished⟩ := h.publish [] (Nat.zero_le _)
  refine .after hstep trivial (.now fun hcovers => ?_)
  have hreads : s.reader.isSome = true := by rw [hreader]; rfl
  have hcovered := hcovers reader (hsame.trans hreader) path (by rw [hpublished hreads]; simpa using hpending)
  unfold CoversPath at hcovered
  rw [hfile, SharedAwarenessSidecar.poll_of_ok rfl] at hcovered
  simp at hcovered

theorem StartedOver.misses_claimed (h : s.StartedOver) {reader : SharedAwarenessSidecar} (hreader : s.reader = some reader)
    {epoch : Nat} (hobserved : epoch ∈ s.observed) (hhigh : 1 < epoch) : s.LeadsToMiss := by
  have hclaim : s.step (.claimEpoch epoch) = some { s with reader := some (reader.claimEpoch epoch), published := [] } := by
    simp only [step, hreader, Option.bind_some, if_pos hobserved]
  have hstarted : StartedOver { s with reader := some (reader.claimEpoch epoch), published := [] } :=
    ⟨h.owned, h.epoch, h.paths, h.overflowed⟩
  obtain ⟨reached, hstep, hsame, hfile, hpublished⟩ := hstarted.publish ["changed"] (Nat.le_refl 1)
  refine .after hclaim trivial (.after hstep trivial (.now fun hcovers => ?_))
  have hcovered := hcovers (reader.claimEpoch epoch) hsame "changed" (by rw [hpublished rfl]; simp)
  have hold : ¬(reader.claimEpoch epoch).lastClaimedEpoch < 2 := by
    show ¬max epoch reader.lastClaimedEpoch < 2
    omega
  unfold CoversPath at hcovered
  rw [hfile, SharedAwarenessSidecar.poll_of_ok rfl] at hcovered
  simp [hold] at hcovered

theorem StartedOver.misses_shown (h : s.StartedOver) (hhigh : 1 < s.pollableEpoch) : s.LeadsToMiss := by
  have hstart : s.step .startReading = some { s with reader := some {}, observed := [], published := [] } := rfl
  obtain ⟨document, hfile, herror, hepoch⟩ : ∃ document, s.file = some document ∧ document.error = none ∧ 1 < document.epoch := by
    unfold pollableEpoch at hhigh
    cases hfile : s.file with
    | none => simp [hfile] at hhigh
    | some document =>
      cases herror : document.error with
      | some cause => simp [hfile, herror] at hhigh
      | none =>
        simp only [hfile, herror, Option.isSome_none, Bool.false_eq_true, if_false] at hhigh
        exact ⟨document, rfl, herror, hhigh⟩
  have hpoll : { s with reader := some {}, observed := [], published := [] }.step .poll =
      some { s with reader := some {}, observed := [document.epoch], published := [] } := by
    simp only [step, Option.map_some, hfile, SharedAwarenessSidecar.poll_of_ok herror]
  have hstarted : StartedOver { s with reader := some {}, observed := [document.epoch], published := [] } :=
    ⟨h.owned, h.epoch, h.paths, h.overflowed⟩
  exact .after hstart trivial (.after hpoll trivial (hstarted.misses_claimed rfl (mem_singleton_self _) hepoch))

theorem disorder_misses {move : AwarenessMove} (h : s.Sound) (hdisorder : ¬s.Orderly move) (hstep : s.step move = some next) :
    next.LeadsToMiss := by
  have hreads : ∀ path ∈ s.published, ∃ reader, s.reader = some reader := by
    intro path hpath
    refine Option.ne_none_iff_exists'.mp fun hnone => ?_
    rw [(h.unread hnone).2] at hpath
    cases hpath
  cases move with
  | beginOwnership ownerId priorHolder written =>
    unfold step at hstep
    rw [Option.ite_none_left_eq_some] at hstep
    obtain ⟨-, hstep⟩ := hstep
    obtain ⟨hretains, hharmful⟩ := not_or.mp hdisorder
    obtain ⟨hepoch, hpaths, hover⟩ :=
      SharedAwarenessSidecar.beginOwnership_of_reset s.owner (Bool.eq_false_iff.mpr hretains)
    cases hstep
    have hstarted : StartedOver { s with
        owner := s.owner.beginOwnership s.file ownerId priorHolder
        file := s.write written (s.owner.beginOwnership s.file ownerId priorHolder).document } :=
      ⟨rfl, hepoch, hpaths, hover⟩
    by_cases hpending : s.published = []
    · by_cases hobserved : ∀ epoch ∈ s.observed, epoch ≤ 1
      · have hfile : ¬(written = true ∨ s.pollableEpoch ≤ 1) := fun hfine => hharmful ⟨hpending, hobserved, hfine⟩
        obtain ⟨hfailed, hhigh⟩ := not_or.mp hfile
        cases Bool.eq_false_iff.mpr hfailed
        exact hstarted.misses_shown (Nat.lt_of_not_le hhigh)
      · simp only [not_forall, Nat.not_le] at hobserved
        obtain ⟨epoch, hepoch, hhigh⟩ := hobserved
        have hreader : ∃ reader, s.reader = some reader := by
          refine Option.ne_none_iff_exists'.mp fun hnone => ?_
          rw [(h.unread hnone).1] at hepoch
          cases hepoch
        obtain ⟨reader, hreader⟩ := hreader
        exact hstarted.misses_claimed hreader hepoch hhigh
    · obtain ⟨path, hpath⟩ := exists_mem_of_ne_nil _ hpending
      obtain ⟨reader, hreader⟩ := hreads path hpath
      exact hstarted.misses_pending hreader hpath
  | removeSidecar =>
    obtain ⟨path, hpath⟩ := exists_mem_of_ne_nil _ hdisorder
    obtain ⟨reader, hreader⟩ := hreads path hpath
    cases hstep
    refine .now fun hcovers => ?_
    have hcovered : (false = true ∧ path ∈ []) ∨ false = true := hcovers reader hreader path hpath
    simp at hcovered
  | publishChanges | publishError | endOwnership | crash | startReading | poll | claimEpoch => exact absurd trivial hdisorder

/-! ## Runs -/

instance (s : SharedAwareness) : (move : AwarenessMove) → Decidable (s.Orderly move)
  | .beginOwnership _ _ _ => inferInstanceAs (Decidable (_ ∨ _))
  | .removeSidecar => inferInstanceAs (Decidable (_ = _))
  | .publishChanges _ _ _ | .publishError _ _ | .endOwnership | .crash | .startReading | .poll | .claimEpoch _ => .isTrue trivial

/-- In a run of orderly moves nothing published is missed, and only these keep it so. -/
theorem published_change_seen_iff {moves : List AwarenessMove} (hrun : run step {} moves = some s)
    (horderly : Throughout step (fun s move _ => s.Orderly move) {} moves) :
    s.Covers ∧ ∀ move next, s.step move = some next →
      (s.Orderly move ↔ ∀ more reached, Throughout step (fun s move _ => s.Orderly move) next more →
        run step next more = some reached → reached.Covers) := by
  have hkeeps : ∀ s move next, Sound s → s.Orderly move → s.step move = some next → next.Sound :=
    fun _ _ _ h hmove hstep => step_sound h hmove hstep
  have hsound : s.Sound := horderly.invariant hkeeps initial_sound hrun
  refine ⟨hsound.covers, fun move next hstep => ⟨fun hmove more reached hmore hreached => ?_, fun hcovers => ?_⟩⟩
  · have hnext : next.Sound := step_sound hsound hmove hstep
    exact (hmore.invariant hkeeps hnext hreached).covers
  · by_contra hdisorder
    obtain ⟨more, reached, hmore, hreached, hmiss⟩ := disorder_misses hsound hdisorder hstep
    exact hmiss (hcovers more reached hmore hreached)

/-- A run in which the owner crashes and the next one goes on from its document. -/
def takenOver : List AwarenessMove :=
  [.beginOwnership "a" none true, .startReading, .publishChanges ["x"] false true, .poll, .claimEpoch 2, .crash,
    .beginOwnership "b" (some "a") true, .publishChanges ["y"] false true]

theorem taken_over_change_seen : ((run step {} takenOver).get rfl).Covers :=
  (@published_change_seen_iff ((run step {} takenOver).get rfl) takenOver rfl (by decide)).1

/-- What the next owner publishes is not above the epoch the reader claimed, and is missed. -/
theorem change_missed_after_restart : ∃ s reader, run step {}
        [.beginOwnership "a" none true, .startReading, .publishChanges ["x"] false true, .publishChanges ["y"] false true,
          .poll, .claimEpoch 3, .endOwnership, .beginOwnership "b" none true, .publishChanges ["z"] false true] = some s ∧
      s.reader = some reader ∧ "z" ∈ s.published ∧ ¬s.CoversPath reader "z" := by
  refine ⟨_, _, rfl, rfl, by decide, ?_⟩
  show ¬(false = true ∧ _ ∨ false = true)
  simp

end SharedAwareness

end RalphWorkflow.Workspace
