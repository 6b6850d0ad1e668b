import RalphWorkflow.Proof.FanOut.Plan

/-! What holds of the coordinator between two reads: every unit is pending, running or completed, no unit was started twice or before its
dependencies, and the running ones fit the slots. Each running unit is executing, has a result in the queue, or has ended without one. -/
namespace RalphWorkflow.FanOut
open Lib Pipeline Pipeline.Parallel List

/-! ## Events -/

def startedIds (events : List Event) : List String :=
  events.filterMap fun
    | .workerStarted unitId => some unitId
    | _ => none

def completedIds (events : List Event) : List String :=
  events.filterMap fun
    | .workerCompleted unitId _ => some unitId
    | _ => none

def InOrder (units : List WorkUnit) (events : List Event) : Prop :=
  ∀ before unitId after, events = before ++ .workerStarted unitId :: after →
    ∀ unit ∈ units, unit.unitId = unitId → ∀ dep ∈ unit.dependencies, .workerCompleted dep 0 ∈ before

theorem InOrder.append {units : List WorkUnit} {events : List Event} (h : InOrder units events) {event : Event}
    (hevent : ∀ unitId, event = .workerStarted unitId →
      ∀ unit ∈ units, unit.unitId = unitId → ∀ dep ∈ unit.dependencies, .workerCompleted dep 0 ∈ events) :
    InOrder units (events ++ [event]) := by
  intro before unitId after heq unit hunit hid dep hdep
  rcases eq_nil_or_concat after with rfl | ⟨after', last, rfl⟩
  · obtain ⟨rfl, hlast⟩ := append_inj' heq rfl
    have hstarted : event = .workerStarted unitId := by simpa using hlast
    exact hevent unitId hstarted unit hunit hid dep hdep
  · have heq' : events ++ [event] = (before ++ .workerStarted unitId :: after') ++ [last] := by
      rw [heq]
      simp
    exact h before unitId after' (append_inj' heq' rfl).1 unit hunit hid dep hdep

/-! ## The coordinator -/

structure Tracked (effect : FanOut) (c : Coordinator) : Prop where
  pending_known : ∀ x ∈ c.pending, x ∈ ids effect.workUnits
  pending_iff : ∀ x ∈ ids effect.workUnits, (x ∈ c.pending ↔ x ∉ startedIds c.events)
  running_iff : ∀ x, x ∈ c.running ↔ x ∈ startedIds c.events ∧ x ∉ c.completed
  started_known : ∀ x ∈ startedIds c.events, x ∈ ids effect.workUnits
  started_nodup : (startedIds c.events).Nodup
  running_nodup : c.running.Nodup
  completed_started : ∀ x ∈ c.completed, x ∈ startedIds c.events
  completed_events : completedIds c.events = c.completed
  completed_ok : ∀ x ∈ c.completed, .workerCompleted x 0 ∈ c.events
  completed_nodup : c.completed.Nodup
  none_failed : failedIds c.events = []
  ordered : InOrder effect.workUnits c.events

structure Wave (effect : FanOut) (c : Coordinator) (wave : List WorkUnit) : Prop where
  planned : ∀ unit ∈ wave, unit ∈ effect.workUnits
  fresh : ∀ unit ∈ wave, unit.unitId ∉ startedIds c.events
  ready : ∀ unit ∈ wave, ∀ dep ∈ unit.dependencies, dep ∈ c.completed
  nodup : (ids wave).Nodup

theorem addOnce_of_notMem {x : String} {xs : List String} (h : x ∉ xs) : addOnce x xs = xs ++ [x] := by
  unfold addOnce
  rw [if_neg (by simpa using h)]

variable {effect : FanOut} {c : Coordinator}

theorem launch_tracked (hplan : ValidPlan effect.workUnits) (h : Tracked effect c)
    {unit : WorkUnit} (hunit : unit ∈ effect.workUnits) (hfresh : unit.unitId ∉ startedIds c.events)
    (hready : ∀ dep ∈ unit.dependencies, dep ∈ c.completed) : Tracked effect (launch c unit) := by
  have hstarted : startedIds (c.events ++ [.workerStarted unit.unitId]) = startedIds c.events ++ [unit.unitId] := by
    unfold startedIds
    rw [filterMap_append]
    rfl
  have hnotRunning : unit.unitId ∉ c.running := fun hmem => hfresh ((h.running_iff _).mp hmem).1
  have hnotCompleted : unit.unitId ∉ c.completed := fun hmem => hfresh (h.completed_started _ hmem)
  have hrunning : (launch c unit).running = c.running ++ [unit.unitId] := addOnce_of_notMem hnotRunning
  constructor
  · intro x hx
    exact h.pending_known x (mem_filter.mp hx).1
  · intro x hx
    show x ∈ c.pending.filter (· != unit.unitId) ↔ x ∉ startedIds (c.events ++ [.workerStarted unit.unitId])
    rw [hstarted, mem_filter, h.pending_iff x hx, mem_append, mem_singleton, not_or, bne_iff_ne]
  · intro x
    show x ∈ (launch c unit).running ↔ x ∈ startedIds (c.events ++ [.workerStarted unit.unitId]) ∧ x ∉ c.completed
    rw [hrunning, hstarted, mem_append, mem_append, mem_singleton, h.running_iff]
    constructor
    · rintro (⟨hx, hnot⟩ | rfl)
      · exact ⟨.inl hx, hnot⟩
      · exact ⟨.inr rfl, hnotCompleted⟩
    · rintro ⟨hx | rfl, hnot⟩
      · exact .inl ⟨hx, hnot⟩
      · exact .inr rfl
  · intro x hx
    have hx' : x ∈ startedIds (c.events ++ [.workerStarted unit.unitId]) := hx
    rw [hstarted, mem_append, mem_singleton] at hx'
    rcases hx' with hx' | rfl
    · exact h.started_known x hx'
    · exact mem_ids hunit
  · show (startedIds (c.events ++ [.workerStarted unit.unitId])).Nodup
    rw [hstarted]
    exact h.started_nodup.append (nodup_singleton _) (by simpa using hfresh)
  · rw [hrunning]
    exact h.running_nodup.append (nodup_singleton _) (by simpa using hnotRunning)
  · intro x hx
    show x ∈ startedIds (c.events ++ [.workerStarted unit.unitId])
    rw [hstarted]
    exact mem_append_left _ (h.completed_started x hx)
  · show completedIds (c.events ++ [.workerStarted unit.unitId]) = c.completed
    rw [← h.completed_events]
    unfold completedIds
    rw [filterMap_append]
    exact append_nil _
  · intro x hx
    exact mem_append_left _ (h.completed_ok x hx)
  · exact h.completed_nodup
  · show failedIds (c.events ++ [.workerStarted unit.unitId]) = []
    unfold failedIds
    rw [filterMap_append]
    exact (append_nil _).trans h.none_failed
  · refine h.ordered.append ?_
    intro unitId heq other hother hid dep hdep
    cases heq
    have hsame := unit_eq_of_id hplan.unique hother hunit hid
    subst hsame
    exact h.completed_ok dep (hready dep hdep)

structure SameBooks (c c' : Coordinator) : Prop where
  pending : c'.pending = c.pending
  completed : c'.completed = c.completed
  running : c'.running = c.running
  events : c'.events = c.events

theorem Tracked.of_sameBooks {c' : Coordinator} (h : Tracked effect c) (hsame : SameBooks c c') : Tracked effect c' := by
  obtain ⟨hpending, hcompleted, hrunning, hevents⟩ := hsame
  constructor
  all_goals first
    | rw [hpending, hevents]
    | rw [hpending]
    | rw [hrunning, hcompleted, hevents]
    | rw [hcompleted, hevents]
    | rw [hrunning]
    | rw [hevents]
    | rw [hcompleted]
  exacts [h.pending_known, h.pending_iff, h.running_iff, h.started_known, h.started_nodup, h.running_nodup,
    h.completed_started, h.completed_events, h.completed_ok, h.completed_nodup, h.none_failed, h.ordered]

theorem Wave.tail {unit : WorkUnit} {wave : List WorkUnit} (h : Wave effect c (unit :: wave)) : Wave effect (launch c unit) wave := by
  have hnodup := nodup_cons.mp h.nodup
  refine ⟨fun u hu => h.planned u (mem_cons_of_mem _ hu), ?_, fun u hu => h.ready u (mem_cons_of_mem _ hu),
    hnodup.2⟩
  intro u hu hmem
  have hmem' : u.unitId ∈ startedIds c.events ++ [unit.unitId] := by
    have hsplit : startedIds (c.events ++ [.workerStarted unit.unitId]) = startedIds c.events ++ [unit.unitId] := by
      unfold startedIds
      rw [filterMap_append]
      rfl
    rw [← hsplit]
    exact hmem
  rcases mem_append.mp hmem' with hmem' | hmem'
  · exact h.fresh u (mem_cons_of_mem _ hu) hmem'
  · rw [mem_singleton] at hmem'
    exact hnodup.1 (hmem' ▸ mem_ids hu)

theorem launchAll_tracked (hplan : ValidPlan effect.workUnits) (wave : List WorkUnit) (h : Tracked effect c) (hwave : Wave effect c wave) :
    Tracked effect (wave.foldl launch c) ∧ (wave.foldl launch c).running = c.running ++ ids wave := by
  induction wave generalizing c with
  | nil => exact ⟨h, (append_nil _).symm⟩
  | cons unit wave ih =>
    have hunit := hwave.planned unit mem_cons_self
    have hfresh := hwave.fresh unit mem_cons_self
    have hlaunched := launch_tracked hplan h hunit hfresh (hwave.ready unit mem_cons_self)
    obtain ⟨htracked, hrunning⟩ := ih hlaunched hwave.tail
    refine ⟨htracked, ?_⟩
    have hnotRunning : unit.unitId ∉ c.running := fun hmem => hfresh ((h.running_iff _).mp hmem).1
    rw [foldl_cons, hrunning]
    show addOnce unit.unitId c.running ++ ids wave = c.running ++ ids (unit :: wave)
    rw [addOnce_of_notMem hnotRunning, append_assoc]
    rfl

/-! ## The scheduler -/

theorem mem_sortedById {units : List WorkUnit} {unit : WorkUnit} : unit ∈ sortedById units ↔ unit ∈ units :=
  mem_insertionSort _

theorem scheduled_wave (hplan : ValidPlan effect.workUnits) (h : Tracked effect c) :
    Wave effect c (scheduleNextWave c.completed effect.workUnits c.running effect.maxWorkers) ∧
      (scheduleNextWave c.completed effect.workUnits c.running effect.maxWorkers).length ≤
        effect.maxWorkers - c.running.length := by
  unfold scheduleNextWave
  dsimp only
  refine ⟨⟨?_, ?_, ?_, ?_⟩, length_take_le _ _⟩
  · intro unit hunit
    exact (mem_filter.mp (mem_sortedById.mp (mem_of_mem_take hunit))).1
  · intro unit hunit hstarted
    have hfilter := (mem_filter.mp (mem_sortedById.mp (mem_of_mem_take hunit))).2
    simp only [Bool.and_eq_true, Bool.not_eq_true', contains_eq_mem, decide_eq_false_iff_not] at hfilter
    exact hfilter.1.2 ((h.running_iff _).mpr ⟨hstarted, hfilter.1.1⟩)
  · intro unit hunit dep hdep
    have hfilter := (mem_filter.mp (mem_sortedById.mp (mem_of_mem_take hunit))).2
    simp only [Bool.and_eq_true, all_eq_true, contains_eq_mem, decide_eq_true_eq] at hfilter
    exact hfilter.2 dep hdep
  · have hsub : (effect.workUnits.filter fun unit =>
        !c.completed.contains unit.unitId && !c.running.contains unit.unitId &&
          unit.dependencies.all fun dep => c.completed.contains dep).map WorkUnit.unitId |>.Nodup :=
      hplan.unique.sublist (filter_sublist.map _)
    have hperm := (perm_insertionSort (fun a b : WorkUnit => a.unitId ≤ b.unitId)
      (effect.workUnits.filter fun unit => !c.completed.contains unit.unitId && !c.running.contains unit.unitId &&
        unit.dependencies.all fun dep => c.completed.contains dep)).map WorkUnit.unitId
    exact (hperm.nodup_iff.mpr hsub).sublist ((take_sublist _ _).map _)

theorem resumeLoop_tracked (hplan : ValidPlan effect.workUnits) (h : Tracked effect c) (hslots : c.running.length ≤ effect.maxWorkers) :
    Tracked effect (resumeLoop effect c) ∧ (resumeLoop effect c).running.length ≤ effect.maxWorkers := by
  obtain ⟨hwave, hlength⟩ := scheduled_wave hplan h
  obtain ⟨htracked, hrunning⟩ := launchAll_tracked hplan _ h hwave
  have hfits : (c.running ++ ids (scheduleNextWave c.completed effect.workUnits c.running effect.maxWorkers)).length ≤ effect.maxWorkers := by
    unfold ids
    rw [length_append, length_map]
    omega
  rw [← hrunning] at hfits
  unfold resumeLoop
  split
  · exact ⟨h.of_sameBooks ⟨rfl, rfl, rfl, rfl⟩, hslots⟩
  · dsimp only
    split
    · exact ⟨htracked.of_sameBooks ⟨rfl, rfl, rfl, rfl⟩, hfits⟩
    · exact ⟨htracked, hfits⟩

theorem launchAll_keeps {α : Type} (field : Coordinator → α) (hlaunch : ∀ c unit, field (launch c unit) = field c)
    (wave : List WorkUnit) (c : Coordinator) : field (wave.foldl launch c) = field c := by
  induction wave generalizing c with
  | nil => rfl
  | cons unit wave ih => exact (ih (launch c unit)).trans (hlaunch c unit)

theorem resumeLoop_keeps {α : Type} (field : Coordinator → α) (hlaunch : ∀ c unit, field (launch c unit) = field c)
    (hleft : ∀ c : Coordinator, field { c with left := true } = field c) (effect : FanOut) (c : Coordinator) :
    field (resumeLoop effect c) = field c := by
  have hwave := launchAll_keeps field hlaunch
  unfold resumeLoop
  dsimp only
  split
  · exact hleft c
  · split
    · exact (hleft _).trans (hwave _ c)
    · exact hwave _ c

theorem readResult_tracked (h : Tracked effect c) {result : WorkerResult}
    (rest : List WorkerResult) (hrunning : result.unitId ∈ c.running) (hcode : result.exitCode = 0) :
    Tracked effect (readResult c result rest) := by
  obtain ⟨hstarted, hnotCompleted⟩ := (h.running_iff _).mp hrunning
  have hcompleted : (readResult c result rest).completed = c.completed ++ [result.unitId] :=
    addOnce_of_notMem hnotCompleted
  have hstartedIds : startedIds (readResult c result rest).events = startedIds c.events := by
    show startedIds (c.events ++ [_]) = _
    unfold startedIds
    rw [filterMap_append]
    exact append_nil _
  constructor
  · exact h.pending_known
  · rw [hstartedIds]
    exact h.pending_iff
  · intro x
    rw [hstartedIds, hcompleted, mem_append, mem_singleton, not_or]
    show x ∈ c.running.filter (· != result.unitId) ↔ _
    rw [mem_filter, h.running_iff, bne_iff_ne, and_assoc]
  · rw [hstartedIds]
    exact h.started_known
  · rw [hstartedIds]
    exact h.started_nodup
  · exact h.running_nodup.filter _
  · intro x hx
    rw [hstartedIds]
    rw [hcompleted, mem_append, mem_singleton] at hx
    rcases hx with hx | rfl
    · exact h.completed_started x hx
    · exact hstarted
  · rw [hcompleted, ← h.completed_events]
    show completedIds (c.events ++ [_]) = _
    unfold completedIds
    rw [filterMap_append]
    rfl
  · intro x hx
    rw [hcompleted, mem_append, mem_singleton] at hx
    rcases hx with hx | rfl
    · exact mem_append_left _ (h.completed_ok x hx)
    · refine mem_append_right _ (mem_singleton.mpr ?_)
      rw [hcode]
  · rw [hcompleted]
    exact h.completed_nodup.append (nodup_singleton _) (by simpa using hnotCompleted)
  · show failedIds (c.events ++ [_]) = []
    unfold failedIds
    rw [filterMap_append]
    exact (append_nil _).trans h.none_failed
  · refine h.ordered.append ?_
    intro unitId heq
    cases heq

end RalphWorkflow.FanOut
