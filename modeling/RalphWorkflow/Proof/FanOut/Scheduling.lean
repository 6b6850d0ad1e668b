import RalphWorkflow.Proof.FanOut.Workers

/-! Over every run of the event loop: units start after their dependencies, within the slots, once; each is reported once; and
what is blocked depends on a started unit that failed or was cancelled. -/
namespace RalphWorkflow.FanOut
open Relation Lib Pipeline Pipeline.Parallel List Option

/-! ## Failures come from workers -/

theorem resumeLoop_failures (effect : FanOut) (c : Coordinator) : (resumeLoop effect c).failures = c.failures :=
  resumeLoop_keeps Coordinator.failures (fun _ _ => rfl) (fun _ => rfl) effect c

variable {effect : FanOut} {c : Coordinator}

theorem step_failures {c' : Coordinator} {s : FanOutStep} (h : step effect c s = some c') :
    ∀ failure ∈ c'.failures, failure ∈ c.failures ∨ s = .fail failure.unitId failure.exitCode failure.error := by
  intro failure hmem
  cases s with
  | succeed unitId =>
    simp only [step, ite_none_right_eq_some] at h
    obtain ⟨-, h⟩ := h
    cases h
    exact .inl hmem
  | fail unitId exitCode error =>
    simp only [step, ite_none_right_eq_some] at h
    obtain ⟨-, h⟩ := h
    cases h
    rcases mem_append.mp hmem with hmem | hmem
    · exact .inl hmem
    · rw [mem_singleton] at hmem
      rw [hmem]
      exact .inr rfl
  | crash unitId put exc =>
    simp only [step, ite_none_right_eq_some] at h
    obtain ⟨-, h⟩ := h
    cases h
    cases put
    · exact .inl hmem
    · exact .inl hmem
  | cancel unitId =>
    simp only [step, ite_none_right_eq_some] at h
    obtain ⟨-, h⟩ := h
    cases h
    exact .inl hmem
  | abort =>
    simp only [step, ite_none_left_eq_some] at h
    obtain ⟨-, h⟩ := h
    cases h
    exact .inl hmem
  | read =>
    simp only [step, ite_none_left_eq_some] at h
    obtain ⟨-, h⟩ := h
    split at h
    · cases h
    · cases h
      rw [resumeLoop_failures] at hmem
      exact .inl hmem

theorem steps_failures {script : List FanOutStep} {c' : Coordinator} (h : steps effect c script = some c') :
    ∀ failure ∈ c'.failures, failure ∈ c.failures ∨ .fail failure.unitId failure.exitCode failure.error ∈ script := by
  induction script generalizing c with
  | nil =>
    cases h
    exact fun failure hmem => .inl hmem
  | cons s rest ih =>
    rw [steps] at h
    obtain ⟨mid, hmid, hrest⟩ := bind_eq_some_iff.mp h
    intro failure hmem
    rcases ih hrest failure hmem with hmem | hmem
    · rcases step_failures hmid failure hmem with hmem | rfl
      · exact .inl hmem
      · exact .inr mem_cons_self
    · exact .inr (mem_cons_of_mem _ hmem)

/-! ## The events of the end -/

theorem onlyFailures_map {α : Type} (report : α → Event) (xs : List α)
    (h : ∀ x, ∃ unitId code error, report x = .workerFailed unitId code error) : OnlyFailures (xs.map report) := by
  intro event hmem
  obtain ⟨x, -, rfl⟩ := mem_map.mp hmem
  exact h x

theorem onlyFailures_blocked (units : List WorkUnit) (pending failed : List String) :
    OnlyFailures (blockedPendingFailures units pending failed) := by
  intro event hmem
  obtain ⟨unit, -, -, error, rfl, -⟩ := mem_blockedPendingFailures hmem
  exact ⟨_, _, _, rfl⟩

theorem appendUnseen_inOrder {units : List WorkUnit} {events extra : List Event} (hextra : OnlyFailures extra)
    (h : InOrder units events) : InOrder units (appendUnseen events extra) := by
  induction extra generalizing events with
  | nil => exact h
  | cons head rest ih =>
    have hrest : OnlyFailures rest := fun event hmem => hextra event (mem_cons_of_mem _ hmem)
    obtain ⟨unitId, code, error, rfl⟩ := hextra head mem_cons_self
    rw [appendUnseen]
    split
    · exact ih hrest h
    · refine ih hrest (h.append ?_)
      intro started heq
      cases heq

structure Ended (effect : FanOut) (c : Coordinator) (events : List Event) : Prop where
  started : startedIds events = startedIds c.events
  completed : completedIds events = c.completed
  ordered : InOrder effect.workUnits events
  failed_nodup : (failedIds events).Nodup
  failed_open : ∀ x ∈ failedIds events, x ∉ c.completed
  blocked : ∀ x code error, .workerFailed x code error ∈ events → x ∉ startedIds c.events →
    code = 1 ∧ (∃ unit ∈ effect.workUnits, unit.unitId = x ∧ ∃ known, blockedDependencyError unit known = some error) ∧
    ∃ y, TransGen (DependsOn effect.workUnits) x y ∧ y ∈ startedIds c.events ∧
      ((∃ failure ∈ c.failures, failure.unitId = y ∧ failureEvent failure ∈ events) ∨ cancelledEvent y ∈ events)

theorem not_failed_of_none {events : List Event} (h : failedIds events = []) (unitId : String) (code : Int)
    (error : String) : .workerFailed unitId code error ∉ events := by
  intro hmem
  have hid := mem_failedIds.mpr ⟨code, error, hmem⟩
  rw [h] at hid
  cases hid

theorem ended_complete (h : Tracked effect c) : Ended effect c (c.events ++ [.pipeline .allWorkersComplete]) := by
  have hfailed : failedIds (c.events ++ [.pipeline .allWorkersComplete]) = [] := by
    rw [failedIds_append, h.none_failed]
    rfl
  refine ⟨?_, ?_, ?_, ?_, ?_, ?_⟩
  · unfold startedIds
    rw [filterMap_append]
    exact append_nil _
  · rw [← h.completed_events]
    unfold completedIds
    rw [filterMap_append]
    exact append_nil _
  · refine h.ordered.append ?_
    intro unitId heq
    cases heq
  · rw [hfailed]
    exact nodup_nil
  · rw [hfailed]
    intro x hx
    cases hx
  · intro x code error hmem
    exact absurd hmem (not_failed_of_none hfailed x code error)

def workerReports (c : Coordinator) : List Event :=
  let failures := c.failures.reverse
  appendUnseen (appendUnseen c.events (failures.map failureEvent))
    ((c.running.filter fun unitId => !(failures.map WorkerFailure.unitId).contains unitId).map cancelledEvent)

theorem workerReports_origin (h : Sound effect c) {x : String} {code : Int} {error : String} (hmem : .workerFailed x code error ∈ workerReports c) :
    x ∈ c.running ∧ ((∃ failure ∈ c.failures, failure.unitId = x ∧ .workerFailed x code error = failureEvent failure) ∨
      .workerFailed x code error = cancelledEvent x) := by
  rcases mem_appendUnseen hmem with hmem | hmem
  · rcases mem_appendUnseen hmem with hmem | hmem
    · exact absurd hmem (not_failed_of_none h.tracked.none_failed x code error)
    · obtain ⟨failure, hfailure, heq⟩ := mem_map.mp hmem
      rw [mem_reverse] at hfailure
      have hid : failure.unitId = x := by
        cases heq
        rfl
      refine ⟨hid ▸ h.staffed.failed_running _ (mem_map.mpr ⟨failure, hfailure, rfl⟩), .inl ?_⟩
      exact ⟨failure, hfailure, hid, heq.symm⟩
  · obtain ⟨unitId, hunitId, heq⟩ := mem_map.mp hmem
    have hid : unitId = x := by
      cases heq
      rfl
    subst hid
    exact ⟨(mem_filter.mp hunitId).1, .inr heq.symm⟩

theorem workerReports_covers {failure : WorkerFailure} (h : failure ∈ c.failures) : failure.unitId ∈ failedIds (workerReports c) := by
  have hfirst : failure.unitId ∈ failedIds (appendUnseen c.events (c.failures.reverse.map failureEvent)) := by
    refine appendUnseen_covers (mem_failedIds.mpr ⟨failure.exitCode, failure.error, ?_⟩)
    exact mem_map.mpr ⟨failure, mem_reverse.mpr h, rfl⟩
  unfold workerReports
  dsimp only
  obtain ⟨added, hadded⟩ := appendUnseen_extends (appendUnseen c.events (c.failures.reverse.map failureEvent))
    ((c.running.filter fun unitId => !(c.failures.reverse.map WorkerFailure.unitId).contains unitId).map cancelledEvent)
  rw [hadded, failedIds_append]
  exact mem_append_left _ hfirst

theorem terminalEvents_eq (effect : FanOut) (c : Coordinator) :
    appendTerminalFailureEvents c.events effect.workUnits c.pending c.running c.failures.reverse =
      appendUnseen (workerReports c) (blockedPendingFailures effect.workUnits c.pending
        (c.failures.reverse.map WorkerFailure.unitId ++ failedIds (workerReports c))) :=
  rfl

theorem ended_aborted (h : Sound effect c) :
    Ended effect c (appendTerminalFailureEvents c.events effect.workUnits c.pending c.running c.failures.reverse) := by
  have hraised : OnlyFailures (c.failures.reverse.map failureEvent) :=
    onlyFailures_map _ _ fun failure => ⟨_, _, _, rfl⟩
  have hcancelled : OnlyFailures ((c.running.filter fun unitId =>
      !(c.failures.reverse.map WorkerFailure.unitId).contains unitId).map cancelledEvent) :=
    onlyFailures_map _ _ fun unitId => ⟨_, _, _, rfl⟩
  rw [terminalEvents_eq]
  set failed := c.failures.reverse.map WorkerFailure.unitId ++ failedIds (workerReports c)
  have hblocked := onlyFailures_blocked effect.workUnits c.pending failed
  -- A report of the end is one of the workers' reports or blocks a pending unit.
  have horigin : ∀ x code error,
      .workerFailed x code error ∈ appendUnseen (workerReports c) (blockedPendingFailures effect.workUnits c.pending failed) →
      x ∈ c.running ∨ (x ∈ c.pending ∧ code = 1 ∧
        (∃ unit ∈ effect.workUnits, unit.unitId = x ∧ ∃ known, blockedDependencyError unit known = some error) ∧
        Blocked effect.workUnits failed x) := by
    intro x code error hmem
    rcases mem_appendUnseen hmem with hmem | hmem
    · exact .inl (workerReports_origin h hmem).1
    · obtain ⟨unit, hunit, hpending, text, heq, hknown, hpath⟩ := mem_blockedPendingFailures hmem
      cases heq
      exact .inr ⟨hpending, rfl, ⟨unit, hunit, rfl, hknown⟩, hpath⟩
  refine ⟨?_, ?_, ?_, ?_, ?_, ?_⟩
  · unfold startedIds
    rw [appendUnseen_keeps _ (fun _ _ _ => rfl) hblocked]
    unfold workerReports
    dsimp only
    rw [appendUnseen_keeps _ (fun _ _ _ => rfl) hcancelled, appendUnseen_keeps _ (fun _ _ _ => rfl) hraised]
  · rw [← h.tracked.completed_events]
    unfold completedIds
    rw [appendUnseen_keeps _ (fun _ _ _ => rfl) hblocked]
    unfold workerReports
    dsimp only
    rw [appendUnseen_keeps _ (fun _ _ _ => rfl) hcancelled, appendUnseen_keeps _ (fun _ _ _ => rfl) hraised]
  · refine appendUnseen_inOrder hblocked (appendUnseen_inOrder hcancelled (appendUnseen_inOrder hraised ?_))
    exact h.tracked.ordered
  · refine appendUnseen_nodup hblocked (appendUnseen_nodup hcancelled (appendUnseen_nodup hraised ?_))
    rw [h.tracked.none_failed]
    exact nodup_nil
  · intro x hx hcompleted
    obtain ⟨code, error, hmem⟩ := mem_failedIds.mp hx
    rcases horigin x code error hmem with hrunning | ⟨hpending, -⟩
    · exact ((h.tracked.running_iff x).mp hrunning).2 hcompleted
    · have hknown := h.tracked.pending_known x hpending
      exact (h.tracked.pending_iff x hknown).mp hpending (h.tracked.completed_started x hcompleted)
  · intro x code error hmem hnew
    rcases horigin x code error hmem with hrunning | ⟨-, hcode, hunit, y, hy, hpath⟩
    · exact absurd ((h.tracked.running_iff x).mp hrunning).1 hnew
    · have hreport : y ∈ failedIds (workerReports c) := by
        rcases mem_append.mp hy with hy | hy
        · obtain ⟨failure, hfailure, rfl⟩ := mem_map.mp hy
          exact workerReports_covers (mem_reverse.mp hfailure)
        · exact hy
      obtain ⟨code', error', hreported⟩ := mem_failedIds.mp hreport
      obtain ⟨added, hadded⟩ := appendUnseen_extends (workerReports c)
        (blockedPendingFailures effect.workUnits c.pending failed)
      have hstays : ∀ event ∈ workerReports c,
          event ∈ appendUnseen (workerReports c) (blockedPendingFailures effect.workUnits c.pending failed) := by
        intro event hevent
        rw [hadded]
        exact mem_append_left _ hevent
      obtain ⟨hrunning, hwhy⟩ := workerReports_origin h hreported
      refine ⟨hcode, hunit, y, hpath, ((h.tracked.running_iff y).mp hrunning).1, ?_⟩
      rcases hwhy with ⟨failure, hfailure, hid, heq⟩ | heq
      · exact .inl ⟨failure, hfailure, hid, heq ▸ hstays _ hreported⟩
      · exact .inr (heq ▸ hstays _ hreported)

theorem outcome_ended (h : Sound effect c) {events : List Event} (hend : outcome effect c = some (.ok events)) : Ended effect c events := by
  unfold outcome at hend
  split at hend
  · cases hend
  · split at hend
    · cases hend
      exact ended_complete h.tracked
    · split at hend
      · cases hend
        exact ended_aborted h
      · cases hend

/-! ## Every run -/

/-- Units start in order, in the slots and once, are reported once, and when blocked, by a started dependency. -/
theorem scheduling_is_safe (effect : FanOut) (script : List FanOutStep) (c : Coordinator) (hplan : validateGraph effect.workUnits = .ok ())
    (hrun : steps effect (Coordinator.start effect) script = some c) :
    InOrder effect.workUnits c.events ∧ c.executing.length ≤ effect.maxWorkers ∧ (startedIds c.events).Nodup ∧
      (terminalIds c.events).Nodup ∧
      ∀ events, outcome effect c = some (.ok events) →
        InOrder effect.workUnits events ∧ (startedIds events).Nodup ∧ (terminalIds events).Nodup ∧
        ∀ x code error, .workerFailed x code error ∈ events → x ∉ startedIds events →
          (∃ unit ∈ effect.workUnits, unit.unitId = x ∧ ∃ known, blockedDependencyError unit known = some error) ∧
          ∃ y, TransGen (DependsOn effect.workUnits) x y ∧ y ∈ startedIds events ∧
            ((∃ code error, .fail y code error ∈ script ∧ .workerFailed y code error ∈ events) ∨
              cancelledEvent y ∈ events) := by
  have hsound := run_sound ((validateGraph_iff _).mp hplan) hrun
  have hexecuting : c.executing.length ≤ c.running.length :=
    (hsound.staffed.executing_nodup.subperm hsound.staffed.executing_running).length_le
  refine ⟨hsound.tracked.ordered, hexecuting.trans hsound.slots, hsound.tracked.started_nodup, ?_, ?_⟩
  · unfold terminalIds
    rw [hsound.tracked.none_failed, append_nil, hsound.tracked.completed_events]
    exact hsound.tracked.completed_nodup
  · intro events hend
    have hended := outcome_ended hsound hend
    refine ⟨hended.ordered, hended.started ▸ hsound.tracked.started_nodup, ?_, ?_⟩
    · unfold terminalIds
      rw [hended.completed]
      refine hsound.tracked.completed_nodup.append hended.failed_nodup ?_
      intro x hcompleted hfailed
      exact hended.failed_open x hfailed hcompleted
    · rw [hended.started]
      intro x code error hmem hnew
      obtain ⟨-, hunit, y, hpath, hstarted, hwhy⟩ := hended.blocked x code error hmem hnew
      refine ⟨hunit, y, hpath, hstarted, ?_⟩
      rcases hwhy with ⟨failure, hfailure, rfl, hreported⟩ | hcancelled
      · rcases steps_failures hrun failure hfailure with hstart | hscript
        · have hnone : (Coordinator.start effect).failures = [] := resumeLoop_failures effect _
          rw [hnone] at hstart
          cases hstart
        · exact .inl ⟨_, _, hscript, hreported⟩
      · exact .inr hcancelled

def threeUnits : FanOut :=
  { workUnits :=
      [{ unitId := "a", allowedDirectories := ["x"] }, { unitId := "b", allowedDirectories := ["y"] },
        { unitId := "c", allowedDirectories := ["z"], dependencies := ["b"] }]
    maxWorkers := 2 }

def cancelledRun : List FanOutStep := [.fail "a" 3 "boom", .abort, .cancel "b"]

def cancelledEvents : List Event :=
  [.pipeline .fanOutStarted, .workerStarted "a", .workerStarted "b", .workerFailed "a" 3 "boom", cancelledEvent "b",
    .workerFailed "c" 1 "Blocked by failed dependencies: b"]

theorem scheduling_is_safe_cancelled : validateGraph threeUnits.workUnits = .ok () ∧
      ∃ c, steps threeUnits (Coordinator.start threeUnits) cancelledRun = some c ∧
        c.executing.length ≤ 2 ∧ (startedIds c.events).Nodup := by
  have hplan : validateGraph threeUnits.workUnits = .ok () := by decide +kernel
  obtain ⟨c, hrun⟩ := isSome_iff_exists.mp
    (by decide +kernel : (steps threeUnits (Coordinator.start threeUnits) cancelledRun).isSome)
  have hsafe := scheduling_is_safe threeUnits cancelledRun c hplan hrun
  exact ⟨hplan, c, hrun, hsafe.2.1, hsafe.2.2.1⟩

/-- The third unit is blocked by the second one, whose worker did not fail: it was cancelled. -/
theorem blocked_by_a_cancelled_unit : runFanOut threeUnits cancelledRun = some (.ok cancelledEvents) ∧
      .workerFailed "c" 1 "Blocked by failed dependencies: b" ∈ cancelledEvents ∧
      ¬ ∃ y, TransGen (DependsOn threeUnits.workUnits) "c" y ∧ ∃ code error, .fail y code error ∈ cancelledRun := by
  refine ⟨by decide +kernel, by decide +kernel, ?_⟩
  have hnone : ∀ y, ¬ DependsOn threeUnits.workUnits "b" y := by
    rintro y ⟨unit, hunit, hid, hdep⟩
    simp only [threeUnits, mem_cons, not_mem_nil, or_false] at hunit
    rcases hunit with rfl | rfl | rfl
    · cases hdep
    · cases hdep
    · exact absurd hid (by decide)
  have honly : ∀ y, TransGen (DependsOn threeUnits.workUnits) "c" y → y = "b" := by
    intro y hpath
    induction hpath with
    | single hedge =>
      obtain ⟨unit, hunit, hid, hdep⟩ := hedge
      simp only [threeUnits, mem_cons, not_mem_nil, or_false] at hunit
      rcases hunit with rfl | rfl | rfl
      · cases hdep
      · cases hdep
      · exact mem_singleton.mp hdep
    | tail _ hedge ih =>
      subst ih
      exact absurd hedge (hnone _)
  rintro ⟨y, hpath, code, error, hfail⟩
  rw [honly y hpath] at hfail
  simp [cancelledRun] at hfail

end RalphWorkflow.FanOut
