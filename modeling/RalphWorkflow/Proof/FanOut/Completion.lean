import RalphWorkflow.Proof.FanOut.LostSuccess

/-! When every worker succeeds, the loop is not left while units are pending: among the units that are not completed one has
all its dependencies, and it is running or can be started. Every worker and every read brings the wave nearer to its end. -/
namespace RalphWorkflow.FanOut
open Relation Lib Pipeline Pipeline.Parallel List

def Smooth (s : FanOutStep) : Prop := s = .read ∨ ∃ unitId, s = .succeed unitId

def DependenciesFirst (units : List WorkUnit) (order : List String) : Prop :=
  ∀ before x after, order = before ++ x :: after → ∀ unit ∈ units, unit.unitId = x → ∀ dep ∈ unit.dependencies, dep ∈ before

theorem DependenciesFirst.append {units : List WorkUnit} {order : List String} (h : DependenciesFirst units order)
    {x : String} (hx : ∀ unit ∈ units, unit.unitId = x → ∀ dep ∈ unit.dependencies, dep ∈ order) :
    DependenciesFirst units (order ++ [x]) := by
  intro before y after heq unit hunit hid dep hdep
  rcases eq_nil_or_concat after with rfl | ⟨after', last, rfl⟩
  · obtain ⟨rfl, hlast⟩ := append_inj' heq rfl
    have hsame : x = y := by simpa using hlast
    exact hx unit hunit (hid.trans hsame.symm) dep hdep
  · have heq' : order ++ [x] = (before ++ y :: after') ++ [last] := by
      rw [heq]
      simp
    exact h before y after' (append_inj' heq' rfl).1 unit hunit hid dep hdep

variable {effect : FanOut} {c : Coordinator}

theorem Tracked.started_ready (h : Tracked effect c) {x : String}
    (hx : x ∈ startedIds c.events) : ∀ unit ∈ effect.workUnits, unit.unitId = x → ∀ dep ∈ unit.dependencies, dep ∈ c.completed := by
  intro unit hunit hid dep hdep
  obtain ⟨event, hevent, hstarted⟩ := mem_filterMap.mp hx
  have hevent' : .workerStarted x ∈ c.events := by
    split at hstarted
    · cases hstarted
      exact hevent
    · cases hstarted
  obtain ⟨before, after, heq⟩ := append_of_mem hevent'
  have hdone := h.ordered before x after heq unit hunit hid dep hdep
  rw [← h.completed_events]
  refine mem_filterMap.mpr ⟨.workerCompleted dep 0, ?_, rfl⟩
  rw [heq]
  exact mem_append_left _ hdone

/-! ## The loop does not give up -/

theorem scheduled_runs (hplan : ValidPlan effect.workUnits) (hworkers : 1 ≤ effect.maxWorkers) (h : Tracked effect c) (hopen : ¬ (c.pending = [] ∧ c.running = [])) :
    ((scheduleNextWave c.completed effect.workUnits c.running effect.maxWorkers).foldl launch c).running ≠ [] := by
  obtain ⟨hwave, -⟩ := scheduled_wave hplan h
  rw [(launchAll_tracked hplan _ h hwave).2]
  by_cases hrunning : c.running = []
  · -- Nothing runs, so a pending unit is not completed, and a ready one is found.
    obtain ⟨a, ha⟩ := exists_mem_of_ne_nil c.pending fun hpending => hopen ⟨hpending, hrunning⟩
    have hknown := h.pending_known a ha
    have hundone : a ∉ c.completed := fun hmem =>
      (h.pending_iff a hknown).mp ha (h.completed_started a hmem)
    obtain ⟨unit, hunit, hnew, hready⟩ := hplan.exists_ready hknown hundone
    have hscheduled : unit ∈ sortedById (effect.workUnits.filter fun unit =>
        !c.completed.contains unit.unitId && !c.running.contains unit.unitId &&
          unit.dependencies.all fun dep => c.completed.contains dep) := by
      rw [mem_sortedById, mem_filter]
      refine ⟨hunit, ?_⟩
      rw [hrunning]
      simpa [hnew] using hready
    intro hnone
    have hids : ids (scheduleNextWave c.completed effect.workUnits c.running effect.maxWorkers) = [] :=
      (append_eq_nil_iff.mp hnone).2
    unfold ids scheduleNextWave at hids
    dsimp only at hids
    rw [map_eq_nil_iff, take_eq_nil_iff, hrunning, length_nil, Nat.sub_zero] at hids
    rcases hids with hzero | hempty
    · omega
    · rw [hrunning] at hscheduled
      rw [hempty] at hscheduled
      cases hscheduled
  · exact fun hnone => hrunning (append_eq_nil_iff.mp hnone).1

structure Healthy (effect : FanOut) (c : Coordinator) : Prop where
  sound : Sound effect c
  quiet : c.aborted = false
  busy : ∀ x ∈ c.running, x ∈ c.executing ∨ x ∈ queuedIds c
  goes : c.left = false → c.running ≠ []
  done : c.left = true → c.pending = [] ∧ c.running = []
  ordered : DependenciesFirst effect.workUnits c.completed

theorem launchAll_busy (wave : List WorkUnit) (h : ∀ x ∈ c.running, x ∈ c.executing ∨ x ∈ queuedIds c) :
    ∀ x ∈ (wave.foldl launch c).running, x ∈ (wave.foldl launch c).executing ∨ x ∈ queuedIds (wave.foldl launch c) := by
  induction wave generalizing c with
  | nil => exact h
  | cons unit wave ih =>
    refine ih ?_
    intro x hx
    rcases mem_addOnce.mp hx with rfl | hx
    · exact .inl (mem_append_right _ (mem_singleton_self _))
    · exact (h x hx).imp_left (mem_append_left _)

theorem resumeLoop_healthy (hplan : ValidPlan effect.workUnits) (hworkers : 1 ≤ effect.maxWorkers) (hsound : Sound effect c) (hquiet : c.aborted = false) (hleft : c.left = false)
    (hbusy : ∀ x ∈ c.running, x ∈ c.executing ∨ x ∈ queuedIds c) (hordered : DependenciesFirst effect.workUnits c.completed) :
    Healthy effect (resumeLoop effect c) := by
  have hruns := scheduled_runs hplan hworkers hsound.tracked
  refine ⟨resumeLoop_sound hplan hsound, ?_, ?_, ?_, ?_, ?_⟩
  · rw [resumeLoop_keeps Coordinator.aborted (fun _ _ => rfl) (fun _ => rfl), hquiet]
  · unfold resumeLoop
    dsimp only
    split
    · exact hbusy
    · split
      · exact launchAll_busy _ hbusy
      · exact launchAll_busy _ hbusy
  · unfold resumeLoop
    dsimp only
    split
    · intro hgoes
      cases hgoes
    · split
      · intro hgoes
        cases hgoes
      · rename_i hnonempty
        intro _ hnone
        rw [hnone] at hnonempty
        exact hnonempty rfl
  · unfold resumeLoop
    dsimp only
    split
    · rename_i hempty
      rw [Bool.and_eq_true, List.isEmpty_iff, List.isEmpty_iff] at hempty
      exact fun _ => hempty
    · rename_i hopen
      rw [Bool.and_eq_true, List.isEmpty_iff, List.isEmpty_iff] at hopen
      split
      · rename_i hnone
        exact absurd (List.isEmpty_iff.mp hnone) (hruns hopen)
      · intro hgone
        rw [launchAll_keeps Coordinator.left (fun _ _ => rfl), hleft] at hgone
        cases hgone
  · rw [resumeLoop_keeps Coordinator.completed (fun _ _ => rfl) (fun _ => rfl)]
    exact hordered

/-! ## Runs -/

/-- How far a wave has come: a result in the queue counts one, a completed unit two. -/
def progress (c : Coordinator) : Nat := c.queue.length + 2 * c.completed.length

theorem succeed_healthy {c' : Coordinator} (h : Healthy effect c) {unitId : String}
    (hplan : ValidPlan effect.workUnits) (hstep : step effect c (.succeed unitId) = some c') :
    Healthy effect c' ∧ progress c' = progress c + 1 := by
  have hsound := step_sound hplan h.sound hstep
  simp only [step, Option.ite_none_right_eq_some, contains_eq_mem, decide_eq_true_eq] at hstep
  obtain ⟨hexecuting, hstep⟩ := hstep
  cases hstep
  refine ⟨⟨hsound, h.quiet, ?_, h.goes, h.done, h.ordered⟩, ?_⟩
  · intro x hx
    by_cases hsame : x = unitId
    · refine .inr (mem_map.mpr ⟨{ unitId := unitId, exitCode := 0 }, ?_, hsame.symm⟩)
      exact mem_append_right _ (mem_singleton_self _)
    · rcases h.busy x hx with hx | hx
      · exact .inl (mem_filter.mpr ⟨hx, bne_iff_ne.mpr hsame⟩)
      · obtain ⟨result, hresult, hid⟩ := mem_map.mp hx
        exact .inr (mem_map.mpr ⟨result, mem_append_left _ hresult, hid⟩)
  · show (c.queue ++ [_]).length + 2 * c.completed.length = c.queue.length + 2 * c.completed.length + 1
    rw [length_append, length_singleton]
    omega

theorem read_healthy {c' : Coordinator} (h : Healthy effect c)
    (hplan : ValidPlan effect.workUnits) (hworkers : 1 ≤ effect.maxWorkers) (hstep : step effect c .read = some c') :
    Healthy effect c' ∧ progress c' = progress c + 1 := by
  simp only [step, Option.ite_none_left_eq_some] at hstep
  obtain ⟨hguard, hstep⟩ := hstep
  rw [Bool.or_eq_true, not_or, Bool.not_eq_true, Bool.not_eq_true] at hguard
  split at hstep
  · cases hstep
  · rename_i result rest hqueue
    cases hstep
    have hmem : result ∈ c.queue := by
      rw [hqueue]
      exact mem_cons_self
    have hrunning := h.sound.staffed.queued_running result.unitId (mem_map.mpr ⟨result, hmem, rfl⟩)
    obtain ⟨hstarted, hopen⟩ := (h.sound.tracked.running_iff _).mp hrunning
    have hcompleted : (readResult c result rest).completed = c.completed ++ [result.unitId] := addOnce_of_notMem hopen
    have hread : Sound effect (readResult c result rest) :=
      ⟨readResult_tracked h.sound.tracked rest hrunning (h.sound.staffed.queued_ok result hmem),
        readResult_staffed h.sound.staffed hqueue, (length_filter_le _ _).trans h.sound.slots⟩
    refine ⟨resumeLoop_healthy hplan hworkers hread hguard.1 hguard.2 ?_ ?_, ?_⟩
    · intro x hx
      obtain ⟨hx, hne⟩ := mem_filter.mp hx
      refine (h.busy x hx).imp_right fun hqueued => ?_
      unfold queuedIds at hqueued
      rw [hqueue, map_cons, mem_cons] at hqueued
      exact hqueued.resolve_left (bne_iff_ne.mp hne)
    · rw [hcompleted]
      exact h.ordered.append (h.sound.tracked.started_ready hstarted)
    · unfold progress
      rw [resumeLoop_keeps Coordinator.queue (fun _ _ => rfl) (fun _ => rfl),
        resumeLoop_keeps Coordinator.completed (fun _ _ => rfl) (fun _ => rfl), hcompleted, hqueue, length_append,
        length_singleton, length_cons]
      show rest.length + _ = _
      omega

theorem start_healthy (hplan : ValidPlan effect.workUnits) (hworkers : 1 ≤ effect.maxWorkers) : Healthy effect (Coordinator.start effect) := by
  refine resumeLoop_healthy hplan hworkers (initial_sound effect) rfl rfl ?_ ?_
  · intro x hx
    cases hx
  · intro before x after heq
    exact absurd heq.symm (append_ne_nil_of_right_ne_nil _ (cons_ne_nil _ _))

theorem smooth_run (hplan : ValidPlan effect.workUnits) (hworkers : 1 ≤ effect.maxWorkers)
    {script : List FanOutStep} (hsmooth : ∀ s ∈ script, Smooth s) {c' : Coordinator} (h : Healthy effect c)
    (hrun : steps effect c script = some c') : Healthy effect c' ∧ progress c' = progress c + script.length := by
  induction script generalizing c with
  | nil =>
    cases hrun
    exact ⟨h, rfl⟩
  | cons s rest ih =>
    rw [steps] at hrun
    obtain ⟨mid, hmid, hrest⟩ := Option.bind_eq_some_iff.mp hrun
    have hstep : Healthy effect mid ∧ progress mid = progress c + 1 := by
      rcases hsmooth s mem_cons_self with rfl | ⟨unitId, rfl⟩
      · exact read_healthy h hplan hworkers hmid
      · exact succeed_healthy h hplan hmid
    obtain ⟨hdone, hprogress⟩ := ih (fun t ht => hsmooth t (mem_cons_of_mem _ ht)) hstep.1 hrest
    refine ⟨hdone, ?_⟩
    rw [hprogress, hstep.2, length_cons]
    omega

theorem progress_le (h : Healthy effect c) : progress c ≤ 2 * effect.workUnits.length := by
  have hnodup : (queuedIds c ++ c.completed).Nodup := by
    refine h.sound.staffed.queued_nodup.append h.sound.tracked.completed_nodup ?_
    intro x hqueued hcompleted
    exact ((h.sound.tracked.running_iff x).mp (h.sound.staffed.queued_running x hqueued)).2 hcompleted
  have hplanned : ∀ x ∈ queuedIds c ++ c.completed, x ∈ ids effect.workUnits := by
    intro x hx
    rcases mem_append.mp hx with hx | hx
    · exact h.sound.tracked.started_known x ((h.sound.tracked.running_iff x).mp (h.sound.staffed.queued_running x hx)).1
    · exact h.sound.tracked.started_known x (h.sound.tracked.completed_started x hx)
  have hlength := (hnodup.subperm hplanned).length_le
  unfold queuedIds ids at hlength
  rw [length_append, length_map, length_map] at hlength
  unfold progress
  omega

theorem smooth_step_exists (h : Healthy effect c) (hleft : c.left = false) : ∃ s c', Smooth s ∧ step effect c s = some c' := by
  obtain ⟨x, hx⟩ := exists_mem_of_ne_nil _ (h.goes hleft)
  rcases h.busy x hx with hexecuting | hqueued
  · refine ⟨.succeed x, (c.ends x).put x, .inr ⟨x, rfl⟩, ?_⟩
    exact if_pos (by simpa using hexecuting)
  · obtain ⟨result, hresult, -⟩ := mem_map.mp hqueued
    cases hqueue : c.queue with
    | nil =>
      rw [hqueue] at hresult
      cases hresult
    | cons head rest =>
      refine ⟨.read, resumeLoop effect (readResult c head rest), .inl rfl, ?_⟩
      simp [step, h.quiet, hleft, hqueue]

theorem left_complete (hplan : ValidPlan effect.workUnits) (h : Healthy effect c) (hleft : c.left = true) :
    c.pending = [] ∧ (completedIds c.events).Perm (ids effect.workUnits) ∧
      DependenciesFirst effect.workUnits (completedIds c.events) := by
  obtain ⟨hpending, hrunning⟩ := h.done hleft
  rw [h.sound.tracked.completed_events]
  refine ⟨hpending, ?_, h.ordered⟩
  refine (perm_ext_iff_of_nodup h.sound.tracked.completed_nodup hplan.unique).mpr fun x => ⟨fun hx => ?_, fun hx => ?_⟩
  · exact h.sound.tracked.started_known x (h.sound.tracked.completed_started x hx)
  · by_contra hopen
    have hstarted : x ∈ startedIds c.events := by
      by_contra hnew
      have hmem := (h.sound.tracked.pending_iff x hx).mpr hnew
      rw [hpending] at hmem
      cases hmem
    have hmem := (h.sound.tracked.running_iff x).mpr ⟨hstarted, hopen⟩
    rw [hrunning] at hmem
    cases hmem

/-- The graph check is exact, and an accepted plan whose workers succeed completes in two steps a unit. -/
theorem accepted_plans_finish (units : List WorkUnit) : (validateGraph units = .ok () ↔
      (ids units).Nodup ∧ (∀ unit ∈ units, ∀ dep ∈ unit.dependencies, dep ∈ ids units) ∧
        ∀ a, ¬ TransGen (DependsOn units) a a) ∧
    (validateGraph units = .ok () → ∀ maxWorkers, 1 ≤ maxWorkers → ∀ script c, (∀ s ∈ script, Smooth s) →
      steps ⟨units, maxWorkers⟩ (Coordinator.start ⟨units, maxWorkers⟩) script = some c →
        (c.left = true → c.pending = [] ∧ (completedIds c.events).Perm (ids units) ∧
          DependenciesFirst units (completedIds c.events)) ∧
        (c.left = false → ∃ s c', Smooth s ∧ step ⟨units, maxWorkers⟩ c s = some c') ∧
        script.length ≤ 2 * units.length) := by
  refine ⟨?_, ?_⟩
  · rw [validateGraph_iff]
    exact ⟨fun h => ⟨h.unique, h.known, h.acyclic⟩, fun h => ⟨h.1, h.2.1, h.2.2⟩⟩
  · intro hgraph maxWorkers hworkers script c hsmooth hrun
    have hplan : ValidPlan (FanOut.mk units maxWorkers).workUnits := (validateGraph_iff units).mp hgraph
    obtain ⟨hhealthy, hprogress⟩ := smooth_run hplan hworkers hsmooth (start_healthy hplan hworkers) hrun
    refine ⟨left_complete hplan hhealthy, smooth_step_exists hhealthy, ?_⟩
    have hbound : progress c ≤ 2 * units.length := progress_le hhealthy
    omega

def smoothRun : List FanOutStep := [.succeed "b", .read, .succeed "c", .succeed "a", .read, .read]

theorem accepted_plans_finish_three : validateGraph threeUnits.workUnits = .ok () ∧
      ∃ c, steps threeUnits (Coordinator.start threeUnits) smoothRun = some c ∧ c.left = true ∧
        (completedIds c.events).Perm (ids threeUnits.workUnits) := by
  have hplan : validateGraph threeUnits.workUnits = .ok () := by decide +kernel
  have hsmooth : ∀ s ∈ smoothRun, Smooth s := by
    intro s hs
    simp only [smoothRun, mem_cons, not_mem_nil, or_false] at hs
    rcases hs with rfl | rfl | rfl | rfl | rfl | rfl <;> simp [Smooth]
  obtain ⟨c, hrun, hleft⟩ := Option.bind_eq_some_iff.mp
    (by decide +kernel : ((steps threeUnits (Coordinator.start threeUnits) smoothRun).bind fun c => some c.left) = some true)
  have hfinish := (accepted_plans_finish threeUnits.workUnits).2 hplan 2 (by decide) smoothRun c hsmooth hrun
  have hleft' : c.left = true := Option.some.inj hleft
  exact ⟨hplan, c, hrun, hleft', (hfinish.1 hleft').2.1⟩

end RalphWorkflow.FanOut
