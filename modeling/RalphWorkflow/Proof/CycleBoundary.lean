import RalphWorkflow.Pipeline.CycleTiming
import RalphWorkflow.Policy.Default

/-! At load time `_phases_inside_cycle` follows success transitions and decisions around the loop, at run time `_outside_cycle_phases` every
declared edge from before the cycle and from its end. Both are characterised by paths, and compared. -/
namespace RalphWorkflow.CycleBoundary
open Lib Lib.Worklist Policy Policy.PipelinePolicy List Default
open Pipeline

/-! ## The run-time walk -/

/-- A path of declared edges to the phase, from before the cycle or from its end, past neither entry. -/
def ReachedOutside (policy : PipelinePolicy) (ct : CycleTimeboxPolicy) (phase : String) : Prop :=
  ∃ root ∈ [policy.entryPhase, ct.startSource, ct.endEntry], Reaches (outsideExpand policy ct) root phase

theorem outsideExpand_isSome_iff (policy : PipelinePolicy) (ct : CycleTimeboxPolicy) (phase : String) :
    (outsideExpand policy ct phase).isSome = true ↔
      phase ≠ ct.startEntry ∧ phase ≠ ct.guardedEntry ∧ policy.hasPhase phase = true := by
  unfold outsideExpand
  by_cases hentry : phase = ct.startEntry ∨ phase = ct.guardedEntry
  · rw [if_pos hentry]
    constructor
    · intro h
      exact absurd h Bool.false_ne_true
    · rintro ⟨hstart, hguarded, _⟩
      exact (hentry.elim hstart hguarded).elim
  · rw [if_neg hentry, Option.isSome_map]
    rw [not_or] at hentry
    exact ⟨fun h => ⟨hentry.1, hentry.2, h⟩, fun h => h.2.2⟩

variable {policy : PipelinePolicy} {phase : String} {ct : CycleTimeboxPolicy}

theorem mem_keys_of_isSome (h : policy.hasPhase phase = true) : phase ∈ policy.phases.keys :=
  (Dict.mem_keys_iff policy.phases phase).mpr h

theorem mem_outsideCyclePhases_iff (policy : PipelinePolicy) (ct : CycleTimeboxPolicy) (phase : String) :
    phase ∈ outsideCyclePhases policy ct ↔ ReachedOutside policy ct phase := by
  have hnodes : ∀ x, (outsideExpand policy ct x).isSome = true → x ∈ policy.phases.keys := by
    intro x hx
    exact mem_keys_of_isSome ((outsideExpand_isSome_iff policy ct x).mp hx).2.2
  unfold outsideCyclePhases ReachedOutside
  rw [mem_sweep_iff policy.phases.keys hnodes]
  · simp only [mem_reverse]
  · rw [length_reverse]
    exact lt_walkFuel _ _ _

/-! ## The load-time walk -/

/-- One or more forward edges lead from `phase` to `target`, past no avoided phase. -/
def ReachesForward (policy : PipelinePolicy) (avoid : List String) (phase target : String) : Prop :=
  ∃ targets next, policy.forwardAvoiding avoid phase = some targets ∧ next ∈ targets ∧
    Reaches (policy.forwardAvoiding avoid) next target

/-- The phase lies on the way round the loop of the guarded entry, past no phase before the cycle. -/
def OnCycle (policy : PipelinePolicy) (ct : CycleTimeboxPolicy) (phase : String) : Prop :=
  (∃ entry ∈ [ct.startEntry, ct.guardedEntry], Reaches (policy.forwardAvoiding [policy.entryPhase, ct.startSource]) entry phase) ∧
    ReachesForward policy [policy.entryPhase, ct.startSource] phase ct.guardedEntry

section

variable (policy : PipelinePolicy)

section

variable (avoid : List String)

theorem forwardAvoiding_isSome_iff (phase : String) :
    (policy.forwardAvoiding avoid phase).isSome = true ↔ phase ∉ avoid ∧ policy.hasPhase phase = true := by
  unfold forwardAvoiding
  by_cases havoid : phase ∈ avoid
  · simp [havoid]
  · rw [if_neg havoid, Option.isSome_map]
    exact ⟨fun h => ⟨havoid, h⟩, fun h => h.2⟩

theorem forwardAvoiding_nodes : ∀ x, (policy.forwardAvoiding avoid x).isSome = true → x ∈ policy.phases.keys := by
  intro x hx
  exact mem_keys_of_isSome ((forwardAvoiding_isSome_iff policy avoid x).mp hx).2

theorem reachableAvoidingLoop_eq_sweep (excludeStart first : Bool)
    (hplain : (first && excludeStart) = false) (fuel : Nat) (frontier seen : List String) :
    policy.reachableAvoidingLoop avoid excludeStart fuel frontier seen first = sweep (policy.forwardAvoiding avoid) fuel frontier seen := by
  induction fuel generalizing frontier seen first with
  | zero => rfl
  | succ fuel ih =>
    cases frontier with
    | nil => rfl
    | cons phase rest =>
      unfold reachableAvoidingLoop sweep
      cases hexpand : policy.forwardAvoiding avoid phase with
      | none =>
        dsimp only
        rw [ih false rfl, ite_self]
      | some targets =>
        dsimp only
        rw [hplain, ih first hplain, ih false rfl]
        rfl

theorem mem_reachableAvoiding_iff (starts avoid : List String) (phase : String) : phase ∈ policy.reachableAvoiding starts avoid false ↔
      ∃ start ∈ starts, Reaches (policy.forwardAvoiding avoid) start phase := by
  unfold reachableAvoiding
  rw [reachableAvoidingLoop_eq_sweep policy avoid false true rfl,
    mem_sweep_iff policy.phases.keys (forwardAvoiding_nodes policy avoid)]
  · simp only [mem_reverse]
  · have hfuel := lt_walkFuel (policy.forwardAvoiding avoid) policy.phases.keys starts
    rw [length_reverse]
    omega

theorem targets_length_le {targets : List String} (hexpand : policy.forwardAvoiding avoid phase = some targets) :
    targets.length ≤ unseenPushes (policy.forwardAvoiding avoid) [] policy.phases.keys := by
  have hmem := forwardAvoiding_nodes policy avoid phase (by rw [hexpand]; rfl)
  have hmark := unseenPushes_mark _ policy.phases.keys [] phase targets hexpand hmem not_mem_nil
  omega

theorem mem_reachableAvoiding_excluded_iff (start phase : String) :
    phase ∈ policy.reachableAvoiding [start] avoid true ↔ ReachesForward policy avoid start phase := by
  have hfuel : walkFuel (policy.forwardAvoiding avoid) policy.phases.keys [start] +
        unseenPushes (policy.forwardAvoiding avoid) [] policy.phases.keys =
      (2 * unseenPushes (policy.forwardAvoiding avoid) [] policy.phases.keys + 1) + 1 := by
    rw [walkFuel, length_singleton]
    omega
  unfold reachableAvoiding ReachesForward
  dsimp only
  rw [hfuel, reverse_singleton, reachableAvoidingLoop]
  cases hexpand : policy.forwardAvoiding avoid start with
  | none =>
    dsimp only
    rw [reachableAvoidingLoop_eq_sweep policy avoid true false rfl]
    constructor
    · intro h
      have hreach := sweep_sound _ _ _ _ h
      simp at hreach
    · rintro ⟨targets, _, hsome, _⟩
      exact absurd hsome (by simp)
  | some targets =>
    have hlength := targets_length_le policy avoid hexpand
    dsimp only
    rw [if_neg not_mem_nil, reachableAvoidingLoop_eq_sweep policy avoid true false rfl,
      Bool.true_and, if_pos rfl, append_nil, mem_sweep_iff policy.phases.keys (forwardAvoiding_nodes policy avoid)]
    · constructor
      · rintro ⟨next, hnext, hreach⟩
        exact ⟨targets, next, rfl, mem_reverse.mp hnext, hreach⟩
      · rintro ⟨targets', next, htargets, hnext, hreach⟩
        cases htargets
        exact ⟨next, mem_reverse.mpr hnext, hreach⟩
    · rw [length_reverse]
      omega

end

theorem mem_phasesInsideCycle_iff (ct : CycleTimeboxPolicy) (phase : String) : phase ∈ policy.phasesInsideCycle ct ↔ OnCycle policy ct phase := by
  unfold phasesInsideCycle OnCycle
  dsimp only
  rw [mem_filter, decide_eq_true_eq, mem_reachableAvoiding_iff, mem_reachableAvoiding_excluded_iff]

end

/-! ## The two walks together -/

/-- No phase is on both sides, and a hop onto a phase of the cycle keeps the timer running. -/
def SidesDisjoint (policy : PipelinePolicy) (ct : CycleTimeboxPolicy) : Prop :=
  (∀ phase ∈ policy.phasesInsideCycle ct, phase ∉ outsideCyclePhases policy ct) ∧
    ∀ phase ∈ policy.phasesInsideCycle ct, ∀ state : PipelineState, state.cycleTimeboxActive = true →
      (concludeCycleOnRouteOutOfCycle state phase policy).cycleTimeboxActive = true

def EnteredOnlyAtEntries (policy : PipelinePolicy) (ct : CycleTimeboxPolicy) : Prop :=
  ∀ phase next phaseDef, ReachedOutside policy ct phase → ¬ OnCycle policy ct phase →
    policy.phases.get? phase = some phaseDef → next ∈ declaredTargets phaseDef → OnCycle policy ct next →
    next = ct.startEntry ∨ next = ct.guardedEntry

theorem OnCycle.declared (h : OnCycle policy ct phase) : phase ∉ [policy.entryPhase, ct.startSource] ∧ policy.hasPhase phase = true := by
  obtain ⟨⟨entry, _, hreach⟩, _⟩ := h
  exact (forwardAvoiding_isSome_iff policy _ phase).mp hreach.isSome

theorem endEntry_not_onCycle (haccepted : policy.Accepted) (hct : policy.cycleTimebox = some ct) : ¬ OnCycle policy ct ct.endEntry := by
  have hpass := haccepted.passes cycleTimeboxEndsOutsideTheCycle (by simp [modelValidators])
  unfold cycleTimeboxEndsOutsideTheCycle at hpass
  rw [hct] at hpass
  have hend := (forM_eq_ok_iff _ _).mp hpass ("end_entry", ct.endEntry) (by simp)
  rw [require_eq_ok_iff, decide_eq_true_eq, mem_phasesInsideCycle_iff] at hend
  exact hend

theorem root_not_onCycle (haccepted : policy.Accepted) (hct : policy.cycleTimebox = some ct) {root : String}
    (hroot : root ∈ [policy.entryPhase, ct.startSource, ct.endEntry]) : ¬ OnCycle policy ct root := by
  intro hcycle
  have hnot := hcycle.declared.1
  simp only [mem_cons, not_mem_nil, or_false, not_or] at hroot hnot
  rcases hroot with h | h | h
  · exact hnot.1 h
  · exact hnot.2 h
  · rw [h] at hcycle
    exact endEntry_not_onCycle haccepted hct hcycle

theorem Edge.declaredTargets {next : String} (hedge : Edge (outsideExpand policy ct) phase next) :
    ∃ phaseDef, policy.phases.get? phase = some phaseDef ∧ next ∈ Pipeline.declaredTargets phaseDef := by
  obtain ⟨⟨targets, hexpand, hnext⟩, _⟩ := hedge
  unfold outsideExpand at hexpand
  split at hexpand
  · exact absurd hexpand (by simp)
  · obtain ⟨phaseDef, hphase, htargets⟩ := Option.map_eq_some_iff.mp hexpand
    exact ⟨phaseDef, hphase, htargets ▸ hnext⟩

/-- The walk starts off the cycle, and an edge onto it leads to an entry, where it stops. -/
theorem not_onCycle_of_reaches (hentered : EnteredOnlyAtEntries policy ct) {root : String}
    (hroot : root ∈ [policy.entryPhase, ct.startSource, ct.endEntry]) (hstart : ¬ OnCycle policy ct root)
    (hsome : (outsideExpand policy ct root).isSome = true)
    (hpath : Relation.ReflTransGen (Edge (outsideExpand policy ct)) root phase) : ¬ OnCycle policy ct phase := by
  induction hpath with
  | refl => exact hstart
  | tail hprefix hedge ih =>
    intro hcycle
    obtain ⟨phaseDef, hphase, hnext⟩ := Edge.declaredTargets hedge
    have hentry := hentered _ _ phaseDef ⟨root, hroot, hsome, hprefix⟩ ih hphase hnext hcycle
    have hboundary := (outsideExpand_isSome_iff policy ct _).mp hedge.2
    exact (hentry.elim hboundary.1 hboundary.2.1).elim

theorem concludeCycle_active (hct : policy.cycleTimebox = some ct) {state : PipelineState} (hactive : state.cycleTimeboxActive = true) :
    (concludeCycleOnRouteOutOfCycle state phase policy).cycleTimeboxActive = true ↔
      phase ∉ outsideCyclePhases policy ct ∧ phase ∉ policy.terminalStates := by
  unfold concludeCycleOnRouteOutOfCycle endsCycle
  rw [hct]
  dsimp only
  rw [hactive, Bool.true_and]
  by_cases houtside : phase ∈ outsideCyclePhases policy ct
  · simp [houtside, concluded]
  · by_cases hterminal : phase ∈ policy.terminalStates
    · simp [hterminal, concluded]
    · simp [houtside, hterminal, hactive]

/-- The walks agree exactly when the outside enters the cycle at entries only and no phase of it is a terminal. -/
theorem sidesDisjoint_iff (policy : PipelinePolicy) (ct : CycleTimeboxPolicy) (haccepted : policy.Accepted) (hct : policy.cycleTimebox = some ct) :
    SidesDisjoint policy ct ↔
      EnteredOnlyAtEntries policy ct ∧ ∀ phase, OnCycle policy ct phase → phase ∉ policy.terminalStates := by
  simp only [SidesDisjoint, mem_phasesInsideCycle_iff, mem_outsideCyclePhases_iff]
  constructor
  · rintro ⟨hdisjoint, hkept⟩
    constructor
    · intro phase next phaseDef houtside _ hphase hnext hcycle
      by_contra hentry
      rw [not_or] at hentry
      obtain ⟨root, hroot, hreach⟩ := houtside
      have hboundary := (outsideExpand_isSome_iff policy ct phase).mp hreach.isSome
      have hexpand : outsideExpand policy ct phase = some (declaredTargets phaseDef) := by
        unfold outsideExpand
        rw [if_neg (not_or.mpr ⟨hboundary.1, hboundary.2.1⟩), hphase]
        rfl
      have hsome := (outsideExpand_isSome_iff policy ct next).mpr ⟨hentry.1, hentry.2, hcycle.declared.2⟩
      exact hdisjoint next hcycle ⟨root, hroot, hreach.tail hexpand hnext hsome⟩
    · intro phase hcycle
      have hactive := hkept phase hcycle { phase := phase, cycleTimeboxActive := true } rfl
      exact ((concludeCycle_active hct rfl).mp hactive).2
  · rintro ⟨hentered, hterminal⟩
    have hdisjoint : ∀ phase, OnCycle policy ct phase → ¬ ReachedOutside policy ct phase := by
      rintro phase hcycle ⟨root, hroot, hsome, hpath⟩
      exact not_onCycle_of_reaches hentered hroot (root_not_onCycle haccepted hct hroot) hsome hpath hcycle
    refine ⟨hdisjoint, ?_⟩
    intro phase hcycle state hactive
    rw [concludeCycle_active hct hactive, mem_outsideCyclePhases_iff]
    exact ⟨hdisjoint phase hcycle, hterminal phase hcycle⟩

/-- The cycle of the bundled policy is entered at `development` only. -/
theorem bundled_enteredOnlyAtEntries : EnteredOnlyAtEntries pipeline cycleTimebox := by
  have hinside : ∀ phase ∈ pipeline.phasesInsideCycle cycleTimebox,
      phase ∉ outsideCyclePhases pipeline cycleTimebox ∧
        phase ∉ pipeline.terminalStates := by decide +kernel
  refine ((sidesDisjoint_iff pipeline cycleTimebox pipeline_accepted rfl).mp ⟨?_, ?_⟩).1
  · intro phase hphase
    exact (hinside phase hphase).1
  · intro phase hphase state hactive
    exact (concludeCycle_active rfl hactive).mpr (hinside phase hphase)

/-! ## A cycle entered from its end -/

def reopeningCleanup : PhaseDefinition :=
  { developmentFinalCommitCleanup with
    transitions := { onSuccess := "development_final_commit", onFailure := some "development_final_commit",
                     onLoopback := some "development_analysis" } }

def reopeningPolicy : PipelinePolicy :=
  { pipeline with
    phases := Default.pipeline.phases.set "development_final_commit_cleanup" reopeningCleanup }

/-- The analysis phase is on both sides, and the hop onto it inside the cycle stops the clock. -/
theorem reopeningPolicy_overlaps : reopeningPolicy.Accepted ∧ reopeningPolicy.cycleTimebox = some Default.cycleTimebox ∧
      "development_analysis" ∈ reopeningPolicy.phasesInsideCycle Default.cycleTimebox ∧
      "development_commit" ∈ reopeningPolicy.phasesInsideCycle Default.cycleTimebox ∧
      "development_analysis" ∈ outsideCyclePhases reopeningPolicy Default.cycleTimebox ∧
      resolveNextPhase "development_commit" .success reopeningPolicy = .ok "development_analysis" ∧
      (concludeCycleOnRouteOutOfCycle { phase := "development_commit", cycleTimeboxActive := true }
        "development_analysis" reopeningPolicy).cycleTimeboxActive = false ∧
      ¬ SidesDisjoint reopeningPolicy cycleTimebox := by
  have hinside : "development_analysis" ∈ reopeningPolicy.phasesInsideCycle cycleTimebox := by
    decide +kernel
  have houtside : "development_analysis" ∈ outsideCyclePhases reopeningPolicy cycleTimebox := by
    decide +kernel
  refine ⟨by decide +kernel, rfl, hinside, by decide +kernel, houtside, rfl, by decide +kernel, ?_⟩
  intro hsides
  exact hsides.1 _ hinside houtside

end RalphWorkflow.CycleBoundary
