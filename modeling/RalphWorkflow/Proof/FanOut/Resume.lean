import RalphWorkflow.Policy.Default
import RalphWorkflow.Proof.FanOut.Completion

/-! The coordinator validates what is left of a plan as a plan of its own. It accepts it, and then completes the whole plan,
exactly when no unit that is left depends on one that has already succeeded. -/
namespace RalphWorkflow.FanOut

open Relation Lib Lib.Text Policy Pipeline List
  RalphWorkflow.Pipeline.Reducer RalphWorkflow.Pipeline.Parallel


/-! ## Parts of a plan -/

variable {units : List WorkUnit} {state resumed : PipelineState} {policy : PipelinePolicy} {c : Coordinator} {effect : FanOut}

theorem validateForSameWorkspace_sublist {part : List WorkUnit} (hsub : part.Sublist units)
    (h : validateForSameWorkspace units = .ok ()) : validateForSameWorkspace part = .ok () := by
  unfold validateForSameWorkspace at h ⊢
  rw [bind_eq_ok_iff] at h ⊢
  obtain ⟨_, hareas, hoverlap⟩ := h
  refine ⟨(), (forM_eq_ok_iff _ _).mpr fun unit hunit => (forM_eq_ok_iff _ _).mp hareas unit (hsub.subset hunit), ?_⟩
  rw [checkNoOverlap_iff, editAreas_pairwise_iff] at hoverlap ⊢
  exact hoverlap.sublist (hsub.flatMap areasOf)

theorem preflight_iff (units : List WorkUnit) : preflight units = .ok () ↔ ValidPlan units ∧ validateForSameWorkspace units = .ok () := by
  rw [← validateGraph_iff]
  unfold preflight
  cases hgraph : validateGraph units with
  | error message => exact iff_of_false (fun h => by cases h) fun h => by cases h.1
  | ok =>
    cases hareas : validateForSameWorkspace units with
    | error message => exact iff_of_false (fun h => by cases h) fun h => by cases h.2
    | ok => exact iff_of_true rfl ⟨rfl, rfl⟩

theorem ValidPlan.sublist {part : List WorkUnit} (h : ValidPlan units) (hsub : part.Sublist units)
    (hknown : ∀ unit ∈ part, ∀ dep ∈ unit.dependencies, dep ∈ ids part) : ValidPlan part := by
  refine ⟨h.unique.sublist (hsub.map _), hknown, fun a hcycle => h.acyclic a (TransGen.mono ?_ a a hcycle)⟩
  rintro x y ⟨unit, hunit, hid, hdep⟩
  exact ⟨unit, hsub.subset hunit, hid, hdep⟩

/-! ## What a state records -/

def Succeeded (state : PipelineState) (unitId : String) : Prop :=
  (state.workerStates.get? unitId).map WorkerState.status = some .succeeded

/-- An interrupted or partly failed wave: none of its workers is recorded yet, or each of them. -/
structure Interrupted (state : PipelineState) (units : List WorkUnit) : Prop where
  carried : state.workUnits = [] ∨ state.workUnits = units
  workers : state.workerStates.entries = [] ∨ ∀ x ∈ ids units, state.workerStates.contains x = true

@[simp] theorem restoreWorkUnits_workerStates (state newState : PipelineState) :
    (state.restoreWorkUnits newState).workerStates = newState.workerStates := by
  unfold PipelineState.restoreWorkUnits
  split
  · rfl
  · rfl

theorem seededState_workerStates (state : PipelineState) (units : List WorkUnit) : (seededState state units).workerStates = state.workerStates := by
  unfold seededState
  split
  · rfl
  · rfl

theorem seededState_workUnits (h : state.workUnits = [] ∨ state.workUnits = units) : (seededState state units).workUnits = units := by
  unfold seededState
  split
  · rfl
  · rename_i hne
    exact h.resolve_left fun hnil => hne (by rw [hnil]; rfl)

theorem handleWorkersResumed_get? (state : PipelineState) (x : String) : (handleWorkersResumed state).workerStates.get? x =
      (state.workerStates.get? x).map fun worker =>
        if worker.status = .running then { worker with status := .pending } else worker := by
  have hentries : (handleWorkersResumed state).workerStates.entries = state.workerStates.entries.map fun entry =>
      (entry.1, if entry.2.status = .running then { entry.2 with status := .pending } else entry.2) := by
    refine Dict.entries_ofList _ ?_
    rw [List.map_map]
    exact state.workerStates.nodup
  show (handleWorkersResumed state).workerStates.entries.lookup x = _
  rw [hentries]
  show _ = (state.workerStates.entries.lookup x).map _
  induction state.workerStates.entries with
  | nil => rfl
  | cons entry rest ih =>
    obtain ⟨unitId, worker⟩ := entry
    rw [map_cons, Dict.lookup_cons_ite, Dict.lookup_cons_ite, ih]
    split
    · rfl
    · rfl

theorem resumed_succeeded_iff (state : PipelineState) (x : String) : Succeeded (handleWorkersResumed state) x ↔ Succeeded state x := by
  unfold Succeeded
  rw [handleWorkersResumed_get?]
  cases state.workerStates.get? x with
  | none => exact Iff.rfl
  | some worker =>
    by_cases hrunning : worker.status = .running
    · simp [hrunning]
    · simp [hrunning]

def remaining (state : PipelineState) (units : List WorkUnit) : List WorkUnit :=
  units.filter fun unit => (state.workerStates.get? unit.unitId).map WorkerState.status != some .succeeded

theorem mem_remaining {unit : WorkUnit} : unit ∈ remaining state units ↔ unit ∈ units ∧ ¬ Succeeded state unit.unitId := by
  unfold remaining Succeeded
  rw [mem_filter, bne_iff_ne]

theorem mem_ids_remaining {x : String} : x ∈ ids (remaining state units) ↔ x ∈ ids units ∧ ¬ Succeeded state x := by
  constructor
  · intro hx
    obtain ⟨unit, hunit, rfl⟩ := mem_map.mp hx
    rw [mem_remaining] at hunit
    exact ⟨mem_ids hunit.1, hunit.2⟩
  · rintro ⟨hx, hopen⟩
    obtain ⟨unit, hunit, rfl⟩ := mem_map.mp hx
    exact mem_ids (mem_remaining.mpr ⟨hunit, hopen⟩)

theorem resumeFanOutState_eq (state : PipelineState) (policy : PipelinePolicy) (units : List WorkUnit) :
    resumeFanOutState (seededState state units) policy units =
      .ok ((seededState state units).restoreWorkUnits (handleWorkersResumed (seededState state units)),
        remaining state units) := by
  have hremaining : remaining (handleWorkersResumed (seededState state units)) units = remaining state units := by
    unfold remaining
    refine filter_congr fun unit _ => ?_
    have hiff := resumed_succeeded_iff (seededState state units) unit.unitId
    unfold Succeeded at hiff
    rw [seededState_workerStates] at hiff
    rw [Bool.eq_iff_iff, bne_iff_ne, bne_iff_ne]
    exact not_congr hiff
  unfold resumeFanOutState
  show Except.ok (_, remaining _ units) = _
  unfold remaining at hremaining ⊢
  rw [restoreWorkUnits_workerStates, hremaining]

/-! ## What the wave records -/

theorem reduceWave_append {start mid : PipelineState} {events : List Event} (h : reduceWave policy start events = (mid, none)) (event : Event) :
    reduceWave policy start (events ++ [event]) = reduceWave policy mid [event] := by
  induction events generalizing start with
  | nil =>
    cases h
    rfl
  | cons head rest ih =>
    rw [reduceWave] at h
    rw [cons_append, reduceWave]
    split at h
    · exact ih h
    · cases h

theorem updateWorker_get? {unitId : String} (hknown : state.workerStates.contains unitId = true)
    (update : WorkerState → WorkerState) (x : String) : (updateWorker state unitId update).workerStates.get? x =
      if x = unitId then (state.workerStates.get? unitId).map update else state.workerStates.get? x := by
  obtain ⟨worker, hworker⟩ := (Dict.contains_iff _ _).mp hknown
  unfold updateWorker
  rw [hworker]
  exact Dict.get?_set _ _ _ _

/-- The state knows every unit, and has those completed, now or before, as succeeded. -/
structure Recorded (policy : PipelinePolicy) (resumed : PipelineState) (units rest : List WorkUnit) (c : Coordinator)
    (wave : PipelineState) : Prop where
  reduced : reduceWave policy resumed c.events = (wave, none)
  known : ∀ x ∈ ids units, wave.workerStates.contains x = true
  succeeded : ∀ x ∈ ids units, x ∉ ids rest ∨ x ∈ c.completed → Succeeded wave x

theorem recorded_update {wave : PipelineState} {rest : List WorkUnit}
    {c' : Coordinator} (h : Recorded policy resumed units rest c wave) {event : Event} {unitId : String}
    {update : WorkerState → WorkerState} (hunit : unitId ∈ ids units) (hevents : c'.events = c.events ++ [event])
    (hreduce : reduceForward wave event policy = .ok (wave.restoreWorkUnits (updateWorker wave unitId update)))
    (hothers : ∀ x, x ≠ unitId → x ∈ c'.completed → x ∈ c.completed)
    (hown : unitId ∉ ids rest ∨ unitId ∈ c'.completed → ∀ worker, (update worker).status = .succeeded) :
    ∃ wave', Recorded policy resumed units rest c' wave' := by
  have hget := updateWorker_get? (h.known unitId hunit) update
  refine ⟨wave.restoreWorkUnits (updateWorker wave unitId update), ?_, ?_, ?_⟩
  · rw [hevents, reduceWave_append h.reduced, reduceWave, hreduce]
    rfl
  · intro x hx
    rw [restoreWorkUnits_workerStates]
    obtain ⟨worker, hworker⟩ := (Dict.contains_iff _ _).mp (h.known x hx)
    refine (Dict.contains_iff _ _).mpr ?_
    rw [hget]
    split
    · rename_i hsame
      rw [← hsame, hworker]
      exact ⟨_, rfl⟩
    · exact ⟨worker, hworker⟩
  · intro x hx hdone
    unfold Succeeded
    rw [restoreWorkUnits_workerStates, hget]
    split
    · rename_i hsame
      subst hsame
      obtain ⟨worker, hworker⟩ := (Dict.contains_iff _ _).mp (h.known x hx)
      rw [hworker]
      exact congrArg some (hown hdone worker)
    · rename_i hother
      exact h.succeeded x hx (hdone.imp_right (hothers x hother))

theorem launch_recorded {rest : List WorkUnit} (h : ∃ wave, Recorded policy resumed units rest c wave) {unit : WorkUnit}
    (hunit : unit.unitId ∈ ids units) (hrest : unit.unitId ∈ ids rest) (hopen : unit.unitId ∉ c.completed) :
    ∃ wave, Recorded policy resumed units rest (launch c unit) wave := by
  obtain ⟨wave, h⟩ := h
  refine recorded_update h hunit rfl rfl
    (fun x _ hx => hx) ?_
  rintro (hnot | hdone)
  · exact absurd hrest hnot
  · exact absurd hdone hopen

theorem launchAll_recorded
    (hplan : ValidPlan effect.workUnits) (hpart : ∀ x ∈ ids effect.workUnits, x ∈ ids units) (wave : List WorkUnit) (htracked : Tracked effect c) (hwave : Wave effect c wave)
    (h : ∃ st, Recorded policy resumed units effect.workUnits c st) :
    ∃ st, Recorded policy resumed units effect.workUnits (wave.foldl launch c) st := by
  induction wave generalizing c with
  | nil => exact h
  | cons unit wave ih =>
    have hunit := mem_ids (hwave.planned unit mem_cons_self)
    have hfresh := hwave.fresh unit mem_cons_self
    refine ih (launch_tracked hplan htracked (hwave.planned unit mem_cons_self) hfresh
      (hwave.ready unit mem_cons_self)) hwave.tail ?_
    exact launch_recorded h (hpart _ hunit) hunit fun hdone => hfresh (htracked.completed_started _ hdone)

theorem resumeLoop_recorded (hplan : ValidPlan effect.workUnits) (hpart : ∀ x ∈ ids effect.workUnits, x ∈ ids units) (htracked : Tracked effect c) (h : ∃ st, Recorded policy resumed units effect.workUnits c st) :
    ∃ st, Recorded policy resumed units effect.workUnits (resumeLoop effect c) st := by
  have hleft : ∀ c' : Coordinator, (∃ st, Recorded policy resumed units effect.workUnits c' st) →
      ∃ st, Recorded policy resumed units effect.workUnits { c' with left := true } st := by
    rintro c' ⟨st, hst⟩
    exact ⟨st, hst.reduced, hst.known, hst.succeeded⟩
  have hlaunched := launchAll_recorded hplan hpart _ htracked (scheduled_wave hplan htracked).1 h
  unfold resumeLoop
  dsimp only
  split
  · exact hleft c h
  · split
    · exact hleft _ hlaunched
    · exact hlaunched

theorem readResult_recorded {rest : List WorkUnit} (h : ∃ wave, Recorded policy resumed units rest c wave) {result : WorkerResult}
    (queue : List WorkerResult) (hunit : result.unitId ∈ ids units) :
    ∃ wave, Recorded policy resumed units rest (readResult c result queue) wave := by
  obtain ⟨wave, h⟩ := h
  refine recorded_update h hunit rfl rfl ?_
    (fun _ _ => rfl)
  intro x hother hx
  exact (mem_addOnce.mp hx).resolve_left hother

theorem smooth_step_recorded (hplan : ValidPlan effect.workUnits) (hpart : ∀ x ∈ ids effect.workUnits, x ∈ ids units)
    {c' : Coordinator} {s : FanOutStep} (hsmooth : Smooth s) (hsound : Sound effect c)
    (h : ∃ st, Recorded policy resumed units effect.workUnits c st) (hstep : step effect c s = some c') :
    ∃ st, Recorded policy resumed units effect.workUnits c' st := by
  rcases hsmooth with rfl | ⟨unitId, rfl⟩
  · simp only [step, Option.ite_none_left_eq_some] at hstep
    obtain ⟨-, hstep⟩ := hstep
    split at hstep
    · cases hstep
    · rename_i result queue hqueue
      cases hstep
      have hmem : result ∈ c.queue := by
        rw [hqueue]
        exact mem_cons_self
      have hrunning := hsound.staffed.queued_running result.unitId (mem_map.mpr ⟨result, hmem, rfl⟩)
      have hunit := hsound.tracked.started_known _ ((hsound.tracked.running_iff _).mp hrunning).1
      exact resumeLoop_recorded hplan hpart
        (readResult_tracked hsound.tracked queue hrunning (hsound.staffed.queued_ok result hmem))
        (readResult_recorded h queue (hpart _ hunit))
  · simp only [step, Option.ite_none_right_eq_some] at hstep
    obtain ⟨-, hstep⟩ := hstep
    cases hstep
    obtain ⟨st, hst⟩ := h
    exact ⟨st, hst.reduced, hst.known, hst.succeeded⟩

theorem smooth_recorded (hplan : ValidPlan effect.workUnits) (hpart : ∀ x ∈ ids effect.workUnits, x ∈ ids units)
    {script : List FanOutStep} (hsmooth : ∀ s ∈ script, Smooth s) {c' : Coordinator} (hsound : Sound effect c)
    (h : ∃ st, Recorded policy resumed units effect.workUnits c st) (hrun : steps effect c script = some c') :
    ∃ st, Recorded policy resumed units effect.workUnits c' st := by
  induction script generalizing c with
  | nil =>
    cases hrun
    exact h
  | cons s rest ih =>
    rw [steps] at hrun
    obtain ⟨mid, hmid, hrest⟩ := Option.bind_eq_some_iff.mp hrun
    exact ih (fun t ht => hsmooth t (mem_cons_of_mem _ ht)) (step_sound hplan hsound hmid)
      (smooth_step_recorded hplan hpart (hsmooth s mem_cons_self) hsound h hmid) hrest

theorem start_recorded (policy : PipelinePolicy) (hunique : (ids units).Nodup) (hstate : Interrupted state units) (c : Coordinator)
    (hevents : c.events = [.pipeline .fanOutStarted]) (hcompleted : c.completed = []) :
    ∃ wave, Recorded policy ((seededState state units).restoreWorkUnits (handleWorkersResumed (seededState state units)))
      units (remaining state units) c wave := by
  set resumed := (seededState state units).restoreWorkUnits (handleWorkersResumed (seededState state units))
  have hworkers : resumed.workerStates = (handleWorkersResumed (seededState state units)).workerStates :=
    restoreWorkUnits_workerStates _ _
  have hresumed : ∀ x, Succeeded resumed x ↔ Succeeded state x := by
    intro x
    have hiff := resumed_succeeded_iff (seededState state units) x
    unfold Succeeded at hiff ⊢
    rw [hworkers, hiff, seededState_workerStates]
  have hunits : resumed.workUnits = units := by
    have hhandled : (handleWorkersResumed (seededState state units)).workUnits = units :=
      seededState_workUnits hstate.carried
    show ((seededState state units).restoreWorkUnits _).workUnits = units
    unfold PipelineState.restoreWorkUnits
    split
    · exact seededState_workUnits hstate.carried
    · exact hhandled
  have hget : ∀ x, (resumed.workerStates.get? x).isSome = (state.workerStates.get? x).isSome := by
    intro x
    rw [hworkers, handleWorkersResumed_get?, seededState_workerStates, Option.isSome_map]
  have hreduce : reduceWave policy resumed c.events = (resumed.restoreWorkUnits (handleFanOutStarted resumed), none) := by
    rw [hevents]
    rfl
  refine ⟨_, hreduce, ?_, ?_⟩
  · intro x hx
    rw [restoreWorkUnits_workerStates]
    unfold handleFanOutStarted
    split
    · rename_i hkept
      rw [hunits, Bool.or_eq_true, List.isEmpty_iff] at hkept
      rcases hkept with hnil | hkept
      · rw [hnil] at hx
        cases hx
      · -- The workers are recorded, and all of them are.
        have hrecorded : state.workerStates.entries ≠ [] := by
          intro hnil
          have hfresh : resumed.workerStates.entries = [] := by
            rw [hworkers]
            unfold handleWorkersResumed
            dsimp only
            rw [seededState_workerStates, hnil]
            rfl
          rw [hfresh] at hkept
          cases hkept
        have hknown := hstate.workers.resolve_left hrecorded x hx
        unfold Dict.contains at hknown ⊢
        rw [hget, hknown]
    · -- They are not, and are seeded from the units.
      rw [hunits]
      refine (Dict.mem_keys_iff _ _).mp ?_
      unfold Dict.keys
      dsimp only
      rw [Dict.entries_ofList _ (by rw [List.map_map]; exact hunique), List.map_map]
      exact hx
  · intro x hx hdone
    rw [hcompleted] at hdone
    have hsucceeded : Succeeded state x := by
      rcases hdone with hnot | hdone
      · by_contra hopen
        exact hnot (mem_ids_remaining.mpr ⟨hx, hopen⟩)
      · cases hdone
    have hsome : resumed.workerStates.entries ≠ [] := by
      intro hnil
      have hstill := (hresumed x).mpr hsucceeded
      unfold Succeeded Dict.get? at hstill
      rw [hnil] at hstill
      cases hstill
    unfold Succeeded
    rw [restoreWorkUnits_workerStates]
    unfold handleFanOutStarted
    rw [if_pos (by simp [hsome])]
    exact (hresumed x).mpr hsucceeded

/-! ## The resumed plan -/

/-- Started units come after their dependencies, those that had succeeded before counted as satisfied. -/
def InOrderFrom (state : PipelineState) (units : List WorkUnit) (events : List Event) : Prop :=
  ∀ before x after, events = before ++ .workerStarted x :: after → ∀ unit ∈ units, unit.unitId = x →
    ∀ dep ∈ unit.dependencies, Succeeded state dep ∨ .workerCompleted dep 0 ∈ before

/-- The units left are an accepted plan; only they start, in order; their success completes the plan. -/
def ResumeCompletes (state : PipelineState) (policy : PipelinePolicy) (effect : FanOut) : Prop :=
  ∃ resumed rest,
    resumeFanOutState (seededState state effect.workUnits) policy effect.workUnits = .ok (resumed, rest) ∧
    (∀ unit, unit ∈ rest ↔ unit ∈ effect.workUnits ∧ ¬ Succeeded state unit.unitId) ∧
    (rest = [] ∨ preflight rest = .ok ()) ∧
    ∀ script c, steps { effect with workUnits := rest } (Coordinator.start { effect with workUnits := rest }) script = some c →
      (∀ x ∈ startedIds c.events, x ∈ ids rest) ∧ InOrderFrom state effect.workUnits c.events ∧
      ((∀ s ∈ script, Smooth s) →
        (c.left = false → ∃ s c', Smooth s ∧ step { effect with workUnits := rest } c s = some c') ∧
        script.length ≤ 2 * rest.length ∧
        (c.left = true → (startedIds c.events).Perm (ids rest) ∧
          ∃ wave, reduceWave policy resumed c.events = (wave, none) ∧ ∀ x ∈ ids effect.workUnits, Succeeded wave x))

theorem resume_completes (hvalid : preflight effect.workUnits = .ok ()) (hworkers : 1 ≤ effect.maxWorkers)
    (hstate : Interrupted state effect.workUnits)
    (hleft : ∀ unit ∈ effect.workUnits, ¬ Succeeded state unit.unitId → ∀ dep ∈ unit.dependencies, ¬ Succeeded state dep) :
    ResumeCompletes state policy effect := by
  obtain ⟨hplan, hareas⟩ := (preflight_iff _).mp hvalid
  have hsub : (remaining state effect.workUnits).Sublist effect.workUnits := filter_sublist
  have hrest : ValidPlan (remaining state effect.workUnits) := by
    refine hplan.sublist hsub fun unit hunit dep hdep => ?_
    rw [mem_remaining] at hunit
    exact mem_ids_remaining.mpr ⟨hplan.known unit hunit.1 dep hdep, hleft unit hunit.1 hunit.2 dep hdep⟩
  have hpart : ∀ x ∈ ids (remaining state effect.workUnits), x ∈ ids effect.workUnits :=
    fun x hx => (mem_ids_remaining.mp hx).1
  refine ⟨_, remaining state effect.workUnits, resumeFanOutState_eq state policy effect.workUnits,
    fun unit => mem_remaining, .inr ?_, ?_⟩
  · exact (preflight_iff _).mpr ⟨hrest, validateForSameWorkspace_sublist hsub hareas⟩
  · intro script c hrun
    have hsound := run_sound hrest hrun
    refine ⟨hsound.tracked.started_known, ?_, ?_⟩
    · intro before x after heq unit hunit hid dep hdep
      have hstarted : x ∈ ids (remaining state effect.workUnits) := by
        refine hsound.tracked.started_known x (mem_filterMap.mpr ⟨.workerStarted x, ?_, rfl⟩)
        rw [heq]
        exact mem_append_right _ mem_cons_self
      have hopen := (mem_ids_remaining.mp hstarted).2
      exact .inr (hsound.tracked.ordered before x after heq unit
        (mem_remaining.mpr ⟨hunit, hid ▸ hopen⟩) hid dep hdep)
    · intro hsmooth
      obtain ⟨hhealthy, hprogress⟩ := @smooth_run { effect with workUnits := remaining state effect.workUnits }
        _ hrest hworkers _ hsmooth _ (start_healthy hrest hworkers) hrun
      have hbound := progress_le hhealthy
      dsimp only at hbound
      refine ⟨smooth_step_exists hhealthy, by omega, ?_⟩
      intro hdone
      obtain ⟨hpending, hperm, -⟩ := left_complete hrest hhealthy hdone
      have hcompleted : ∀ x ∈ ids (remaining state effect.workUnits), x ∈ c.completed := by
        intro x hx
        rw [← hsound.tracked.completed_events]
        exact hperm.mem_iff.mpr hx
      refine ⟨?_, ?_⟩
      · refine (perm_ext_iff_of_nodup hsound.tracked.started_nodup hrest.unique).mpr fun x => ⟨?_, ?_⟩
        · exact hsound.tracked.started_known x
        · exact fun hx => hsound.tracked.completed_started x (hcompleted x hx)
      · have hstart := start_recorded policy hplan.unique hstate
          { pending := (remaining state effect.workUnits).map WorkUnit.unitId } rfl rfl
        obtain ⟨wave, hwave⟩ := smooth_recorded
          hrest hpart hsmooth (start_sound hrest) (resumeLoop_recorded hrest hpart (initial_sound _).tracked hstart) hrun
        refine ⟨wave, hwave.reduced, fun x hx => hwave.succeeded x hx ?_⟩
        by_cases hmem : x ∈ ids (remaining state effect.workUnits)
        · exact .inr (hcompleted x hmem)
        · exact .inl hmem

/-- Resuming completes a plan exactly when none of the units left depends on one that has succeeded. -/
theorem resume_completes_iff (state : PipelineState) (policy : PipelinePolicy) (effect : FanOut)
    (hvalid : preflight effect.workUnits = .ok ()) (hworkers : 1 ≤ effect.maxWorkers)
    (hstate : Interrupted state effect.workUnits) :
    ResumeCompletes state policy effect ↔
      ∀ unit ∈ effect.workUnits, ¬ Succeeded state unit.unitId → ∀ dep ∈ unit.dependencies, ¬ Succeeded state dep := by
  constructor
  · rintro ⟨resumed, rest, -, hrest, haccepted, -⟩ unit hunit hopen dep hdep
    have hmem := (hrest unit).mpr ⟨hunit, hopen⟩
    rcases haccepted with hnil | haccepted
    · rw [hnil] at hmem
      cases hmem
    · obtain ⟨other, hother, rfl⟩ := mem_map.mp (((preflight_iff _).mp haccepted).1.known unit hmem dep hdep)
      exact ((hrest other).mp hother).2
  · exact resume_completes hvalid hworkers hstate

/-- The first unit succeeded, the second one ended as given, and the third one failed. -/
def interruptedState (second : WorkerStatus) : PipelineState :=
  { phase := "development", workUnits := threeUnits.workUnits,
    workerStates := Dict.ofList
      [("a", { unitId := "a", status := .succeeded }), ("b", { unitId := "b", status := second }),
        ("c", { unitId := "c", status := .failed })] }

theorem interruptedState_interrupted (second : WorkerStatus) : Interrupted (interruptedState second) threeUnits.workUnits := by
  refine ⟨.inr rfl, .inr ?_⟩
  cases second
  all_goals decide +kernel

theorem resume_completes_failed_second :
    preflight threeUnits.workUnits = .ok () ∧ ResumeCompletes (interruptedState .failed) Default.pipeline threeUnits := by
  have hvalid : preflight threeUnits.workUnits = .ok () := by decide +kernel
  refine ⟨hvalid, (resume_completes_iff _ _ threeUnits hvalid (by decide) (interruptedState_interrupted .failed)).mpr ?_⟩
  unfold Succeeded
  decide +kernel

/-- With two units succeeded, the third is handed on alone, and knows no unit `b`. -/
theorem resume_rejects_its_own_plan : preflight threeUnits.workUnits = .ok () ∧ Interrupted (interruptedState .succeeded) threeUnits.workUnits ∧
      (∀ unit ∈ threeUnits.workUnits, Succeeded (interruptedState .succeeded) unit.unitId →
        ∀ dep ∈ unit.dependencies, Succeeded (interruptedState .succeeded) dep) ∧
      (∀ script, (runResumedWave (interruptedState .succeeded) Default.pipeline threeUnits true script).map Prod.snd =
        some (some { typeName := "ValidationError", text := "Unknown dependency 'b' in work unit 'c'" })) ∧
      ¬ ResumeCompletes (interruptedState .succeeded) Default.pipeline threeUnits := by
  refine ⟨by decide +kernel, interruptedState_interrupted .succeeded, ?_, ?_, ?_⟩
  · unfold Succeeded
    decide +kernel
  · intro script
    -- The plan that is left is refused before any step of the coordinator.
    rw [runResumedWave, resumeFanOutState_eq]
    have hrefused : runFanOut { threeUnits with workUnits := remaining (interruptedState .succeeded) threeUnits.workUnits }
        script = some (.error (.plan "Unknown dependency 'b' in work unit 'c'")) := by
      have hplan : preflight (remaining (interruptedState .succeeded) threeUnits.workUnits) =
          .error (.invalidModel "Unknown dependency 'b' in work unit 'c'") := by decide +kernel
      have hsome : (remaining (interruptedState .succeeded) threeUnits.workUnits).isEmpty = false := by decide +kernel
      unfold runFanOut
      dsimp only
      rw [hsome, hplan]
      rfl
    dsimp only
    rw [hrefused]
    decide +kernel
  · rintro ⟨resumed, rest, -, hrest, haccepted, -⟩
    have hmem := (hrest { unitId := "c", allowedDirectories := ["z"], dependencies := ["b"] }).mpr
      ⟨by decide +kernel, by unfold Succeeded; decide +kernel⟩
    rcases haccepted with hnil | haccepted
    · rw [hnil] at hmem
      cases hmem
    · have hplan := ((preflight_iff _).mp haccepted).1
      obtain ⟨other, hother, hid⟩ := mem_map.mp (hplan.known _ hmem "b" mem_cons_self)
      have hopen := ((hrest other).mp hother).2
      rw [hid] at hopen
      exact hopen (by unfold Succeeded; decide +kernel)

end RalphWorkflow.FanOut
