import RalphWorkflow.Proof.FanOut.Scheduling

/-! The reports of an aborted wave go by what the coordinator has read. A unit whose result was still in the queue is
reported as cancelled; a unit whose result was read is not reported again. -/
namespace RalphWorkflow.FanOut
open Lib Pipeline Pipeline.Parallel List Option Coordinator

def puts : FanOutStep → Option String
  | .succeed unitId => some unitId
  | .crash unitId true _ => some unitId
  | _ => none

def EveryResultRead (script : List FanOutStep) : Prop :=
  script.countP (fun s => (puts s).isSome) = script.countP (· = .read)

instance (script : List FanOutStep) : Decidable (EveryResultRead script) :=
  inferInstanceAs (Decidable (_ = _))

/-! ## The queue -/

inductive QueueStep (c c' : Coordinator) (s : FanOutStep) : Prop
  | put (unitId : String) (hputs : puts s = some unitId) (hnot : s ≠ .read)
      (hqueue : c'.queue = c.queue ++ [{ unitId := unitId, exitCode := 0 }]) (hcompleted : c'.completed = c.completed)
  | read (hread : s = .read) (result : WorkerResult) (hqueue : c.queue = result :: c'.queue)
      (hcompleted : c'.completed = addOnce result.unitId c.completed)
  | other (hputs : puts s = none) (hnot : s ≠ .read) (hqueue : c'.queue = c.queue)
      (hcompleted : c'.completed = c.completed)

variable {effect : FanOut} {c c' : Coordinator} {s : FanOutStep} {script : List FanOutStep} {x : String}

theorem step_queue (h : step effect c s = some c') : QueueStep c c' s := by
  cases s with
  | succeed unitId =>
    simp only [step, ite_none_right_eq_some] at h
    obtain ⟨-, h⟩ := h
    cases h
    exact .put unitId rfl (by simp) rfl rfl
  | fail unitId exitCode error =>
    simp only [step, ite_none_right_eq_some] at h
    obtain ⟨-, h⟩ := h
    cases h
    exact .other rfl (by simp) rfl rfl
  | crash unitId put exc =>
    simp only [step, ite_none_right_eq_some] at h
    obtain ⟨-, h⟩ := h
    cases h
    cases put
    · exact .other rfl (by simp) rfl rfl
    · exact .put unitId rfl (by simp) rfl rfl
  | cancel unitId =>
    simp only [step, ite_none_right_eq_some] at h
    obtain ⟨-, h⟩ := h
    cases h
    exact .other rfl (by simp) rfl rfl
  | abort =>
    simp only [step, ite_none_left_eq_some] at h
    obtain ⟨-, h⟩ := h
    cases h
    exact .other rfl (by simp) rfl rfl
  | read =>
    simp only [step, ite_none_left_eq_some] at h
    obtain ⟨-, h⟩ := h
    split at h
    · cases h
    · rename_i result rest hqueue
      cases h
      refine .read rfl result ?_ ?_
      · rw [resumeLoop_keeps queue (fun _ _ => rfl) (fun _ => rfl), hqueue]
        rfl
      · rw [resumeLoop_keeps completed (fun _ _ => rfl) (fun _ => rfl)]
        rfl

theorem steps_queue_length (h : steps effect c script = some c') :
    c'.queue.length + script.countP (· = .read) = c.queue.length + script.countP (fun s => (puts s).isSome) := by
  induction script generalizing c with
  | nil =>
    cases h
    rfl
  | cons s rest ih =>
    rw [steps] at h
    obtain ⟨mid, hmid, hrest⟩ := bind_eq_some_iff.mp h
    have hlater := ih hrest
    rw [countP_cons, countP_cons]
    cases step_queue hmid with
    | put unitId hputs hnot hqueue hcompleted =>
      rw [hqueue, length_append, length_singleton] at hlater
      simp only [hputs, hnot, decide_false, isSome_some, Bool.false_eq_true, if_false, if_true]
      omega
    | read hread result hqueue hcompleted =>
      subst hread
      have hputs : puts .read = none := rfl
      rw [hqueue, length_cons]
      simp only [hputs, decide_true, isSome_none, Bool.false_eq_true, if_false, if_true]
      omega
    | other hputs hnot hqueue hcompleted =>
      rw [hqueue] at hlater
      simp only [hputs, hnot, decide_false, isSome_none, Bool.false_eq_true, if_false]
      omega

theorem mem_addOnce {y : String} {xs : List String} : y ∈ addOnce x xs ↔ y = x ∨ y ∈ xs := by
  unfold addOnce
  split
  · rename_i hmem
    have hx : x ∈ xs := by simpa using hmem
    exact ⟨.inr, fun h => h.elim (fun heq => heq ▸ hx) id⟩
  · rw [mem_append, mem_singleton]
    exact or_comm

theorem step_keeps_result (h : step effect c s = some c') (hx : x ∈ queuedIds c ∨ x ∈ c.completed) : x ∈ queuedIds c' ∨ x ∈ c'.completed := by
  unfold queuedIds at hx ⊢
  cases step_queue h with
  | put unitId hputs hnot hqueue hcompleted =>
    rw [hqueue, hcompleted, map_append, mem_append]
    exact hx.imp_left .inl
  | read hread result hqueue hcompleted =>
    rw [hqueue, map_cons, mem_cons] at hx
    rw [hcompleted, mem_addOnce]
    rcases hx with (hx | hx) | hx
    · exact .inr (.inl hx)
    · exact .inl hx
    · exact .inr (.inr hx)
  | other hputs hnot hqueue hcompleted =>
    rw [hqueue, hcompleted]
    exact hx

theorem steps_keep_result (h : steps effect c script = some c') (hx : x ∈ queuedIds c ∨ x ∈ c.completed) : x ∈ queuedIds c' ∨ x ∈ c'.completed :=
  steps_invariant (fun _ _ _ hx hstep => step_keeps_result hstep hx)
    hx h

theorem succeeded_kept (h : steps effect c script = some c') (hx : .succeed x ∈ script) : x ∈ queuedIds c' ∨ x ∈ c'.completed := by
  induction script generalizing c with
  | nil => cases hx
  | cons s rest ih =>
    rw [steps] at h
    obtain ⟨mid, hmid, hrest⟩ := bind_eq_some_iff.mp h
    rcases mem_cons.mp hx with hs | hx
    · subst hs
      refine steps_keep_result hrest (.inl ?_)
      simp only [step, ite_none_right_eq_some] at hmid
      obtain ⟨-, hmid⟩ := hmid
      cases hmid
      exact mem_map.mpr ⟨_, mem_append_right _ (mem_singleton_self _), rfl⟩
    · exact ih hrest hx

theorem queued_put (h : steps effect c script = some c') (hx : x ∈ queuedIds c') : x ∈ queuedIds c ∨ ∃ s ∈ script, puts s = some x := by
  induction script generalizing c with
  | nil =>
    cases h
    exact .inl hx
  | cons s rest ih =>
    rw [steps] at h
    obtain ⟨mid, hmid, hrest⟩ := bind_eq_some_iff.mp h
    rcases ih hrest with hmem | ⟨t, ht, hputs⟩
    · unfold queuedIds at hmem ⊢
      cases step_queue hmid with
      | put unitId hputs hnot hqueue hcompleted =>
        rw [hqueue, map_append, mem_append, map_singleton, mem_singleton] at hmem
        rcases hmem with hmem | rfl
        · exact .inl hmem
        · exact .inr ⟨s, mem_cons_self, hputs⟩
      | read hread result hqueue hcompleted =>
        rw [hqueue]
        exact .inl (mem_cons_of_mem _ hmem)
      | other hputs hnot hqueue hcompleted =>
        rw [hqueue] at hmem
        exact .inl hmem
    · exact .inr ⟨t, mem_cons_of_mem _ ht, hputs⟩

/-! ## The end of a run -/

/-- The loop is left when nothing runs, and the group aborted when a worker has failed. -/
structure Closing (c : Coordinator) : Prop where
  left : c.left = true → c.running = []
  aborted : c.aborted = true → c.failures ≠ [] ∨ c.unexpected ≠ []

theorem resumeLoop_closing (hleft : c.left = false)
    (haborted : c.aborted = true → c.failures ≠ [] ∨ c.unexpected ≠ []) : Closing (resumeLoop effect c) := by
  constructor
  · unfold resumeLoop
    dsimp only
    split
    · rename_i hempty
      rw [Bool.and_eq_true, List.isEmpty_iff, List.isEmpty_iff] at hempty
      exact fun _ => hempty.2
    · split
      · rename_i hempty
        rw [List.isEmpty_iff] at hempty
        exact fun _ => hempty
      · -- The loop goes on, so it was not left.
        intro hlaunched
        have hkeeps := launchAll_keeps Coordinator.left (fun _ _ => rfl)
          (scheduleNextWave c.completed effect.workUnits c.running effect.maxWorkers) c
        rw [hkeeps, hleft] at hlaunched
        cases hlaunched
  · rw [resumeLoop_keeps Coordinator.aborted (fun _ _ => rfl) (fun _ => rfl),
      resumeLoop_keeps failures (fun _ _ => rfl) (fun _ => rfl),
      resumeLoop_keeps unexpected (fun _ _ => rfl) (fun _ => rfl)]
    exact haborted

theorem step_closing (h : Closing c) (hstep : step effect c s = some c') : Closing c' := by
  cases s with
  | succeed unitId =>
    simp only [step, ite_none_right_eq_some] at hstep
    obtain ⟨-, hstep⟩ := hstep
    cases hstep
    exact ⟨h.left, h.aborted⟩
  | fail unitId exitCode error =>
    simp only [step, ite_none_right_eq_some] at hstep
    obtain ⟨-, hstep⟩ := hstep
    cases hstep
    exact ⟨h.left, fun _ => .inl (append_ne_nil_of_right_ne_nil _ (cons_ne_nil _ _))⟩
  | crash unitId put exc =>
    simp only [step, ite_none_right_eq_some] at hstep
    obtain ⟨-, hstep⟩ := hstep
    cases hstep
    have hunexpected : c.unexpected ++ [exc] ≠ [] := append_ne_nil_of_right_ne_nil _ (cons_ne_nil _ _)
    cases put
    · exact ⟨h.left, fun _ => .inr hunexpected⟩
    · exact ⟨h.left, fun _ => .inr hunexpected⟩
  | cancel unitId =>
    simp only [step, ite_none_right_eq_some] at hstep
    obtain ⟨-, hstep⟩ := hstep
    cases hstep
    exact ⟨h.left, h.aborted⟩
  | abort =>
    simp only [step, ite_none_left_eq_some] at hstep
    obtain ⟨hguard, hstep⟩ := hstep
    cases hstep
    refine ⟨h.left, fun _ => ?_⟩
    by_cases hfailures : c.failures = []
    · refine .inr fun hunexpected => hguard ?_
      have hnone : c.unexpected = [] := hunexpected
      simp [hfailures, hnone]
    · exact .inl hfailures
  | read =>
    simp only [step, ite_none_left_eq_some] at hstep
    obtain ⟨hguard, hstep⟩ := hstep
    rw [Bool.or_eq_true, not_or, Bool.not_eq_true, Bool.not_eq_true] at hguard
    split at hstep
    · cases hstep
    · cases hstep
      exact resumeLoop_closing hguard.2 h.aborted

theorem run_closing (hrun : steps effect (start effect) script = some c) : Closing c :=
  steps_invariant (fun _ _ _ h hstep => step_closing h hstep) (resumeLoop_closing rfl fun h => by cases h) hrun

theorem step_keeps_unexpected (h : step effect c s = some c') (hne : c.unexpected ≠ []) : c'.unexpected ≠ [] := by
  cases s with
  | succeed | fail | cancel =>
    simp only [step, ite_none_right_eq_some] at h
    obtain ⟨-, h⟩ := h
    cases h
    exact hne
  | crash unitId put exc =>
    simp only [step, ite_none_right_eq_some] at h
    obtain ⟨-, h⟩ := h
    cases h
    exact append_ne_nil_of_left_ne_nil hne _
  | abort =>
    simp only [step, ite_none_left_eq_some] at h
    obtain ⟨-, h⟩ := h
    cases h
    exact hne
  | read =>
    simp only [step, ite_none_left_eq_some] at h
    obtain ⟨-, h⟩ := h
    split at h
    · cases h
    · cases h
      rw [resumeLoop_keeps unexpected (fun _ _ => rfl) (fun _ => rfl)]
      exact hne

theorem crashed_unexpected (h : steps effect c script = some c') {put : Bool} {exc : Recovery.RaisedException}
    (hx : .crash x put exc ∈ script) : c'.unexpected ≠ [] := by
  induction script generalizing c with
  | nil => cases hx
  | cons s rest ih =>
    rw [steps] at h
    obtain ⟨mid, hmid, hrest⟩ := bind_eq_some_iff.mp h
    rcases mem_cons.mp hx with hs | hx
    · subst hs
      have hmidNe : mid.unexpected ≠ [] := by
        simp only [step, ite_none_right_eq_some] at hmid
        obtain ⟨-, hmid⟩ := hmid
        cases hmid
        exact append_ne_nil_of_right_ne_nil _ (cons_ne_nil _ _)
      exact steps_invariant
        (fun _ _ _ hne hstep => step_keeps_unexpected hstep hne) hmidNe hrest
    · exact ih hrest hx

theorem queued_reported (h : Sound effect c) (hclosing : Closing c)
    {events : List Event} (hend : outcome effect c = some (.ok events)) (hx : x ∈ queuedIds c) : x ∈ failedIds events := by
  have hrunning := h.staffed.queued_running x hx
  have hunfailed : x ∉ failureIds c := fun hmem => h.staffed.failed_unqueued x hmem hx
  unfold outcome at hend
  split at hend
  · cases hend
  · rename_i hended
    rw [Bool.or_eq_true, not_or, Bool.not_eq_true, Bool.not_eq_true] at hended
    split at hend
    · -- Nothing failed, so the group was not aborted, and the loop not left with this unit running.
      rename_i hnone
      rw [Bool.and_eq_true, List.isEmpty_iff, List.isEmpty_iff] at hnone
      have hstopped : (c.aborted || c.left) = true := by
        cases hstop : (c.aborted || c.left) with
        | true => rfl
        | false =>
          rw [hstop] at hended
          cases hended.2
      rcases Bool.or_eq_true_iff.mp hstopped with habort | hleft
      · rcases hclosing.aborted habort with hne | hne
        · exact absurd hnone.1 hne
        · exact absurd hnone.2 hne
      · rw [hclosing.left hleft] at hrunning
        cases hrunning
    · split at hend
      · cases hend
        have hreport : x ∈ failedIds (workerReports c) := by
          refine appendUnseen_covers (mem_failedIds.mpr ⟨1, "Cancelled because another worker failed", ?_⟩)
          refine mem_map.mpr ⟨x, mem_filter.mpr ⟨hrunning, ?_⟩, rfl⟩
          rw [map_reverse]
          simpa [failureIds] using hunfailed
        rw [terminalEvents_eq]
        obtain ⟨added, hadded⟩ := appendUnseen_extends (workerReports c)
          (blockedPendingFailures effect.workUnits c.pending
            (c.failures.reverse.map WorkerFailure.unitId ++ failedIds (workerReports c)))
        rw [hadded, failedIds_append]
        exact mem_append_left _ hreport
      · cases hend

theorem outcome_expected {events : List Event} (hend : outcome effect c = some (.ok events)) : c.unexpected = [] := by
  unfold outcome at hend
  split at hend
  · cases hend
  · split at hend
    · rename_i hnone
      rw [Bool.and_eq_true, List.isEmpty_iff, List.isEmpty_iff] at hnone
      exact hnone.2
    · split at hend
      · rename_i hempty
        rwa [List.isEmpty_iff] at hempty
      · cases hend

/-- Workers that succeeded are reported so exactly in the runs in which every result put was read. -/
theorem success_kept_iff_read (effect : FanOut) (script : List FanOutStep) (c : Coordinator) (events : List Event)
    (hplan : validateGraph effect.workUnits = .ok ())
    (hrun : steps effect (start effect) script = some c)
    (hend : outcome effect c = some (.ok events)) :
    (∀ unitId, .succeed unitId ∈ script → ∀ code error, .workerFailed unitId code error ∉ events) ↔
      EveryResultRead script := by
  have hsound := run_sound ((validateGraph_iff _).mp hplan) hrun
  have hended := outcome_ended hsound hend
  have hstart : (start effect).queue = [] :=
    resumeLoop_keeps queue (fun _ _ => rfl) (fun _ => rfl) effect _
  have hlength := steps_queue_length hrun
  rw [hstart, length_nil, Nat.zero_add] at hlength
  constructor
  · intro hkept
    -- A result in the queue at the end is of a unit that is reported as failed.
    have hempty : c.queue = [] := by
      by_contra hne
      obtain ⟨result, hresult⟩ := exists_mem_of_ne_nil _ hne
      have hqueued : result.unitId ∈ queuedIds c := mem_map.mpr ⟨result, hresult, rfl⟩
      obtain ⟨code, error, hreported⟩ := mem_failedIds.mp (queued_reported hsound (run_closing hrun) hend hqueued)
      rcases queued_put hrun hqueued with hmem | ⟨s, hs, hputs⟩
      · unfold queuedIds at hmem
        rw [hstart] at hmem
        cases hmem
      · cases s with
        | succeed unitId =>
          cases hputs
          exact hkept _ hs code error hreported
        | crash unitId put exc => exact crashed_unexpected hrun hs (outcome_expected hend)
        | fail | cancel | abort | read => cases hputs
    unfold EveryResultRead
    rw [hempty, length_nil] at hlength
    omega
  · intro hread unitId hsucceeded code error hreported
    unfold EveryResultRead at hread
    have hempty : c.queue = [] := length_eq_zero_iff.mp (by omega)
    rcases succeeded_kept hrun hsucceeded with hqueued | hcompleted
    · unfold queuedIds at hqueued
      rw [hempty] at hqueued
      cases hqueued
    · exact hended.failed_open unitId (mem_failedIds.mpr ⟨code, error, hreported⟩) hcompleted

/-- The second worker's result is read before the first one fails. -/
def readRun : List FanOutStep := [.succeed "b", .read, .fail "a" 3 "boom", .abort, .cancel "c"]

def readEvents : List Event :=
  [.pipeline .fanOutStarted, .workerStarted "a", .workerStarted "b", .workerCompleted "b" 0, .workerStarted "c",
    .workerFailed "a" 3 "boom", cancelledEvent "c"]

theorem success_kept_when_read : runFanOut threeUnits readRun = some (.ok readEvents) ∧ EveryResultRead readRun ∧
      ∀ code error, .workerFailed "b" code error ∉ readEvents := by
  have hplan : validateGraph threeUnits.workUnits = .ok () := by decide +kernel
  obtain ⟨c, hrun, hend⟩ := bind_eq_some_iff.mp
    (by decide +kernel : (steps threeUnits (start threeUnits) readRun).bind (outcome threeUnits) =
      some (.ok readEvents))
  exact ⟨by decide +kernel, by decide, (success_kept_iff_read threeUnits readRun c readEvents hplan hrun hend).mpr
    (by decide) "b" (by decide)⟩

/-- The second worker succeeds after the first has failed and before the group learns of it. -/
def lostRun : List FanOutStep := [.fail "a" 3 "boom", .succeed "b", .abort]

def lostEvents : List Event :=
  [.pipeline .fanOutStarted, .workerStarted "a", .workerStarted "b", .workerFailed "a" 3 "boom", cancelledEvent "b",
    .workerFailed "c" 1 "Blocked by failed dependencies: b"]

theorem success_lost_at_abort : runFanOut threeUnits lostRun = some (.ok lostEvents) ∧
      ¬ ∀ unitId, .succeed unitId ∈ lostRun → ∀ code error, .workerFailed unitId code error ∉ lostEvents := by
  refine ⟨by decide +kernel, fun hkept => ?_⟩
  exact hkept "b" (by decide) 1 "Cancelled because another worker failed" (by decide)

end RalphWorkflow.FanOut
