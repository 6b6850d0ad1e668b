import Mathlib.Data.List.Dedup
import RalphWorkflow.Policy.Completeness
import RalphWorkflow.Policy.Default
import RalphWorkflow.Pipeline.Reducer

/-! The live matcher of `handoffs.py` and the load-time matcher of `_pipeline_validators.py` walk the same table by different code, and pick the
same entry. Route tables are classified by whether a commit can still fall through to `on_success`. -/
namespace RalphWorkflow.PostCommitRouting
open Lib Policy Policy.PipelinePolicy List
open Pipeline Pipeline.Reducer

/-! ## Accepted transitions resolve -/

variable {policy : PipelinePolicy} {phase : String} {phaseDef : PhaseDefinition} {label : BudgetLabel}

theorem known_onSuccess (h : policy.Accepted)
    (hphase : policy.phases.get? phase = some phaseDef) : policy.known phaseDef.transitions.onSuccess = true := by
  have hpass := h.passes allTransitionsReferenceKnownPhases (by simp [modelValidators])
  have hmem := (Dict.get?_eq_some_iff policy.phases phase phaseDef).mp hphase
  have hentry := (forM_eq_ok_iff _ _).mp hpass _ hmem
  have hedge := (forM_eq_ok_iff _ _).mp hentry ("on_success", some phaseDef.transitions.onSuccess) (by simp)
  exact (require_eq_ok_iff _ _).mp hedge

theorem resolveNextPhase_success (h : policy.Accepted) (hphase : policy.phases.get? phase = some phaseDef) :
    resolveNextPhase phase .success policy = .ok phaseDef.transitions.onSuccess := by
  have hknown := known_onSuccess h hphase
  simp only [resolveNextPhase, hphase, Signal.target, hknown, if_true]

/-! ## One counter -/

theorem firstNonEmpty_eq (a b : Option String) : nonEmptyCounter (firstNonEmpty a b) = match nonEmptyCounter a with
      | some counter => some counter
      | none => nonEmptyCounter b := by
  cases a with
  | none => rfl
  | some name =>
    by_cases h : name = ""
    · subst h
      rfl
    · simp [firstNonEmpty, nonEmptyCounter_some, h]

theorem trackedCounter_eq (counter : Option String) (policy : PipelinePolicy) :
    trackedCounter counter policy = trackedCounter (nonEmptyCounter counter) policy := by
  cases counter with
  | none => rfl
  | some name =>
    by_cases h : name = ""
    · subst h
      rfl
    · rw [nonEmptyCounter_some, if_neg h]

theorem trackedCounter_some {counter : Option String} {name : String}
    (h : trackedCounter counter policy = some name) : nonEmptyCounter counter = some name := by
  unfold trackedCounter at h
  split at h
  · exact absurd h (by simp)
  · rename_i counter
    split at h
    · exact absurd h (by simp)
    · rename_i hname
      push Not at hname
      split at h
      · split at h
        · cases h
          rw [nonEmptyCounter_some, if_neg hname.1]
        · exact absurd h (by simp)
      · exact absurd h (by simp)

theorem budgetCounterForPhase_eq (hphase : policy.phases.get? phase = some phaseDef) :
    budgetCounterForPhase phase policy = trackedCounter (policy.routeBudgetCounter phase phaseDef) policy := by
  unfold budgetCounterForPhase routeBudgetCounter
  cases hlife : policy.lifecyclePhases.get? phase with
  | some lifecycle => exact trackedCounter_eq lifecycle.incrementsCounter policy
  | none =>
    rw [hphase, Option.bind_some]
    cases phaseDef.commitPolicy with
    | none => rfl
    | some commitPolicy =>
      show trackedCounter (firstNonEmpty commitPolicy.routeCounter commitPolicy.incrementsCounter) policy = _
      exact (trackedCounter_eq _ _).trans (congrArg (trackedCounter · policy) (firstNonEmpty_eq _ _))

theorem nonEmpty_routeBudgetCounter (policy : PipelinePolicy) (phase : String) (phaseDef : PhaseDefinition) :
    nonEmptyCounter (policy.routeBudgetCounter phase phaseDef) = policy.routeBudgetCounter phase phaseDef := by
  have hidem : ∀ counter : Option String, nonEmptyCounter (nonEmptyCounter counter) = nonEmptyCounter counter := by
    intro counter
    cases counter with
    | none => rfl
    | some name => by_cases h : name = "" <;> simp [h, nonEmptyCounter]
  unfold routeBudgetCounter
  split
  · exact hidem _
  · split
    · rfl
    · split
      · rename_i counter hcounter
        rw [← hcounter]
        exact hidem _
      · exact hidem _

theorem trackedRouteCounter_eq (hphase : policy.phases.get? phase = some phaseDef) :
    policy.trackedRouteCounter phase phaseDef = budgetCounterForPhase phase policy := by
  rw [budgetCounterForPhase_eq hphase]
  have hne := nonEmpty_routeBudgetCounter policy phase phaseDef
  unfold trackedRouteCounter
  cases hcounter : policy.routeBudgetCounter phase phaseDef with
  | none => rfl
  | some counter =>
    rw [hcounter] at hne
    have hname : counter ≠ "" := by
      intro h
      subst h
      exact absurd hne (by simp [nonEmptyCounter_some])
    simp only [trackedCounter, hname, false_or]
    split
    · rfl
    · cases policy.budgetCounters.get? counter <;> rfl

theorem computeBudgetState_isSome {state : PipelineState} {counter : String} (hcounter : budgetCounterForPhase state.phase policy = some counter) :
    ∃ label, computeBudgetState state policy = some label := by
  unfold computeBudgetState
  rw [hcounter]
  dsimp only
  split
  · exact ⟨_, rfl⟩
  · split
    · exact ⟨_, rfl⟩
    · exact ⟨_, rfl⟩

/-! ## One entry -/

theorem outcomeMatches_iff (route : PostCommitRoute) (outcome : Option CycleOutcome) :
    outcomeMatches route outcome = true ↔ route.when.cycleOutcome = none ∨ route.when.cycleOutcome = outcome := by
  unfold outcomeMatches
  rw [Bool.or_eq_true, beq_iff_eq, beq_iff_eq]

theorem firstTarget_filter (candidate : Option CycleOutcome) (keep : PostCommitRoute → Bool) (routes : List PostCommitRoute) :
    firstTarget candidate (routes.filter keep) =
      (routes.find? fun route => keep route && outcomeMatches route candidate).map PostCommitRoute.target := by
  induction routes with
  | nil => rfl
  | cons route rest ih =>
    rw [filter_cons, List.find?_cons]
    cases hkeep : keep route with
    | false => simpa using ih
    | true =>
      simp only [if_true, firstTarget, Bool.true_and]
      by_cases hmatch : route.when.cycleOutcome = none ∨ route.when.cycleOutcome = candidate
      · have hlive : outcomeMatches route candidate = true := (outcomeMatches_iff route candidate).mpr hmatch
        rw [if_pos hmatch, hlive]
        rfl
      · have hlive : outcomeMatches route candidate = false :=
          Bool.eq_false_iff.mpr fun h => hmatch ((outcomeMatches_iff route candidate).mp h)
        rw [if_neg hmatch, hlive]
        exact ih

theorem firstTarget_stateRoutes (policy : PipelinePolicy) (phase : String) (label : BudgetLabel) (candidate : Option CycleOutcome) :
    firstTarget candidate (policy.stateRoutes phase label) =
      (matchingRoute policy phase label candidate).map PostCommitRoute.target :=
  firstTarget_filter candidate _ policy.postCommitRoutes

theorem routedTarget_stateRoutes (policy : PipelinePolicy) (state : PipelineState) (label : BudgetLabel) :
    routedTarget (policy.stateRoutes state.phase label) state.pendingCycleOutcome =
      ((candidateCycleOutcomes state).findSome? (matchingRoute policy state.phase label)).map
        PostCommitRoute.target := by
  unfold routedTarget candidateCycleOutcomes
  cases state.pendingCycleOutcome with
  | some outcome =>
    simp only [firstTarget_stateRoutes, List.findSome?_cons, List.findSome?_nil]
    cases matchingRoute policy state.phase label (some outcome) <;> rfl
  | none =>
    simp only [firstTarget_stateRoutes, List.findSome?_cons, List.findSome?_nil, forwardOutcome,
      unrecordedFallbackOutcome]
    cases matchingRoute policy state.phase label none with
    | some route => rfl
    | none => cases matchingRoute policy state.phase label (some .completed) <;> rfl

theorem phaseHasRole_of_get? {role : PhaseRole} (hphase : policy.phases.get? phase = some phaseDef) (hrole : phaseDef.role = some role) :
    phaseHasRole policy phase role = true := by
  simp [phaseHasRole, hphase, hrole]

theorem declaredPostCommitRoute_eq {state : PipelineState} (hphase : policy.phases.get? state.phase = some phaseDef)
    (hrole : phaseDef.role = some .commit) (hlabel : computeBudgetState state policy = some label) :
    declaredPostCommitRoute state policy =
      (candidateCycleOutcomes state).findSome? (matchingRoute policy state.phase label) := by
  unfold declaredPostCommitRoute
  rw [if_pos (phaseHasRole_of_get? hphase hrole), hlabel]

theorem resolvePostCommitPhase_of_label {state : PipelineState} (hphase : policy.phases.get? state.phase = some phaseDef)
    (hrole : phaseDef.role = some .commit) (hlabel : computeBudgetState state policy = some label)
    (hoverride : state.postCommitPhaseOverride = none) :
    resolvePostCommitPhase state policy =
      (match routedTarget (policy.stateRoutes state.phase label) state.pendingCycleOutcome with
        | some target => .ok target
        | none => resolveNextPhase state.phase .success policy) := by
  unfold resolvePostCommitPhase
  rw [hoverride, declaredPostCommitRoute_eq hphase hrole hlabel, routedTarget_stateRoutes]
  cases (candidateCycleOutcomes state).findSome? (matchingRoute policy state.phase label) <;> rfl

/-- The validator and the live router use one counter and pick one target. -/
theorem resolvePostCommitPhase_eq_routedTarget (policy : PipelinePolicy) (state : PipelineState)
    (phaseDef : PhaseDefinition) (counter : String) (hphase : policy.phases.get? state.phase = some phaseDef)
    (hrole : phaseDef.role = some .commit) (hcounter : budgetCounterForPhase state.phase policy = some counter)
    (hoverride : state.postCommitPhaseOverride = none) :
    policy.routeBudgetCounter state.phase phaseDef = some counter ∧
      policy.trackedRouteCounter state.phase phaseDef = some counter ∧
      ∃ label, computeBudgetState state policy = some label ∧
        resolvePostCommitPhase state policy =
          (match routedTarget (policy.stateRoutes state.phase label) state.pendingCycleOutcome with
            | some target => .ok target
            | none => resolveNextPhase state.phase .success policy) ∧
        (policy.Accepted → resolvePostCommitPhase state policy =
          .ok ((routedTarget (policy.stateRoutes state.phase label) state.pendingCycleOutcome).getD
            phaseDef.transitions.onSuccess)) := by
  obtain ⟨label, hlabel⟩ := computeBudgetState_isSome hcounter
  have hsame := resolvePostCommitPhase_of_label hphase hrole hlabel hoverride
  refine ⟨?_, ?_, label, hlabel, hsame, ?_⟩
  · rw [budgetCounterForPhase_eq hphase] at hcounter
    rw [← nonEmpty_routeBudgetCounter]
    exact trackedCounter_some hcounter
  · rw [trackedRouteCounter_eq hphase, hcounter]
  · intro haccepted
    rw [hsame, resolveNextPhase_success haccepted hphase]
    cases routedTarget (policy.stateRoutes state.phase label) state.pendingCycleOutcome <;> rfl

def spentFailedCommit : PipelineState where
  phase := "development_final_commit"
  pendingCycleOutcome := some .failed

theorem resolvePostCommitPhase_spentFailedCommit : ∃ label, computeBudgetState spentFailedCommit Default.pipeline = some label ∧
      resolvePostCommitPhase spentFailedCommit Default.pipeline =
        .ok ((routedTarget (Default.pipeline.stateRoutes "development_final_commit" label) (some .failed)).getD
          "complete") := by
  obtain ⟨_, _, label, hlabel, _, hresolve⟩ := resolvePostCommitPhase_eq_routedTarget Default.pipeline
    spentFailedCommit Default.developmentFinalCommit "iteration" rfl rfl rfl rfl
  exact ⟨label, hlabel, hresolve Default.pipeline_accepted⟩

/-! ## Falling through -/

/-- The commit takes a route of the table, not the default `on_success`. -/
def FollowsDeclaredRoute (state : PipelineState) (policy : PipelinePolicy) : Prop :=
  ∃ route ∈ policy.postCommitRoutes, route.when.phase = state.phase ∧
    declaredPostCommitRoute state policy = some route ∧ resolvePostCommitPhase state policy = .ok route.target

def opposite : CycleOutcome → CycleOutcome
  | .completed => .failed
  | .failed => .completed

def OnlyOppositeRoutes (policy : PipelinePolicy) (phase : String) (label : BudgetLabel) (outcome : CycleOutcome) : Prop :=
  ∀ route ∈ policy.stateRoutes phase label, route.when.cycleOutcome = some (opposite outcome)

theorem ne_opposite_iff (declared : Option CycleOutcome) (outcome : CycleOutcome) :
    declared ≠ some (opposite outcome) ↔ declared = none ∨ declared = some outcome := by
  cases declared with
  | none => simp
  | some declared => cases declared <;> cases outcome <;> simp [opposite]

theorem mem_stateRoutes_iff (policy : PipelinePolicy) (phase : String) (label : BudgetLabel) (route : PostCommitRoute) :
    route ∈ policy.stateRoutes phase label ↔
      route ∈ policy.postCommitRoutes ∧ route.when.phase = phase ∧ route.when.budgetState = label := by
  unfold stateRoutes
  rw [mem_filter, Bool.and_eq_true, beq_iff_eq, beq_iff_eq]

theorem matchingRoute_isSome_iff (policy : PipelinePolicy) (phase : String) (label : BudgetLabel) (outcome : Option CycleOutcome) :
    (matchingRoute policy phase label outcome).isSome = true ↔
      ∃ route ∈ policy.stateRoutes phase label,
        route.when.cycleOutcome = none ∨ route.when.cycleOutcome = outcome := by
  unfold matchingRoute
  rw [List.find?_isSome]
  simp only [mem_stateRoutes_iff, Bool.and_eq_true, beq_iff_eq, outcomeMatches_iff, and_assoc]

theorem mem_of_matchingRoute {outcome : Option CycleOutcome} {route : PostCommitRoute}
    (h : matchingRoute policy phase label outcome = some route) : route ∈ policy.stateRoutes phase label := by
  have hmem := mem_of_find?_eq_some h
  have hcond := List.find?_some h
  rw [Bool.and_eq_true, Bool.and_eq_true, beq_iff_eq, beq_iff_eq] at hcond
  exact (mem_stateRoutes_iff policy phase label route).mpr ⟨hmem, hcond.1.1, hcond.1.2⟩

theorem candidates_isSome_iff (policy : PipelinePolicy) (state : PipelineState) (label : BudgetLabel) :
    ((candidateCycleOutcomes state).findSome? (matchingRoute policy state.phase label)).isSome = true ↔
      ¬ OnlyOppositeRoutes policy state.phase label (state.pendingCycleOutcome.getD forwardOutcome) := by
  have hcond : ∀ outcome : CycleOutcome, (matchingRoute policy state.phase label (some outcome)).isSome = true ↔
      ¬ OnlyOppositeRoutes policy state.phase label outcome := by
    intro outcome
    rw [matchingRoute_isSome_iff]
    unfold OnlyOppositeRoutes
    push Not
    simp only [ne_opposite_iff]
  unfold candidateCycleOutcomes
  cases state.pendingCycleOutcome with
  | some outcome =>
    rw [← Option.getD_some (a := outcome) (b := forwardOutcome), ← hcond]
    simp only [List.findSome?_cons, List.findSome?_nil, Option.getD_some]
    cases matchingRoute policy state.phase label (some outcome) <;> rfl
  | none =>
    rw [Option.getD_none, ← hcond]
    simp only [List.findSome?_cons, List.findSome?_nil]
    cases hwild : matchingRoute policy state.phase label none with
    | none => cases matchingRoute policy state.phase label (some forwardOutcome) <;> rfl
    | some route =>
      -- a wildcard route matches the forward outcome as well
      have hsome : (matchingRoute policy state.phase label (some forwardOutcome)).isSome = true := by
        rw [matchingRoute_isSome_iff]
        have hmatch := (matchingRoute_isSome_iff policy state.phase label none).mp (by rw [hwild]; rfl)
        obtain ⟨r, hr, hnone⟩ := hmatch
        exact ⟨r, hr, .inl (hnone.elim id id)⟩
      simp only [hsome, Option.isSome_some]

/-- A table that mentions a budget state has an entry for every recordable outcome. -/
theorem not_onlyOpposite_of_recordable (haccepted : policy.Accepted) {outcome : CycleOutcome}
    (hphase : policy.phases.get? phase = some phaseDef) (hdeclared : policy.stateRoutes phase label ≠ [])
    (hrecordable : outcome ∈ policy.recordableCycleOutcomes) : ¬ OnlyOppositeRoutes policy phase label outcome := by
  obtain ⟨route, hroute⟩ := exists_mem_of_ne_nil _ hdeclared
  obtain ⟨hmem, hname, hstate⟩ := (mem_stateRoutes_iff policy phase label route).mp hroute
  have hpass := haccepted.passes recordableCycleOutcomesAreRoutable (by simp [modelValidators])
  have hphaseMem : phase ∈ Text.sortedText (policy.postCommitRoutes.map fun r => r.when.phase).dedup := by
    rw [Text.mem_sortedText, mem_dedup, mem_map]
    exact ⟨route, hmem, hname⟩
  have hcheck := (forM_eq_ok_iff _ _).mp hpass phase hphaseMem
  rw [hphase] at hcheck
  have houtcome := (forM_eq_ok_iff _ _).mp hcheck outcome (by
    rw [mem_filter]
    exact ⟨by cases outcome <;> simp, by simpa using hrecordable⟩)
  have hlabel := (forM_eq_ok_iff _ _).mp houtcome label (by
    rw [mem_filter]
    refine ⟨by cases label <;> simp, ?_⟩
    simp only [decide_eq_true_eq, mem_map, mem_filter, beq_iff_eq]
    exact ⟨route, ⟨hmem, hname⟩, hstate⟩)
  rw [require_eq_ok_iff, any_eq_true] at hlabel
  obtain ⟨other, hother, hmatch⟩ := hlabel
  rw [mem_filter, beq_iff_eq] at hother
  simp only [Bool.and_eq_true, Bool.or_eq_true, beq_iff_eq] at hmatch
  intro honly
  have hopposite := honly other ((mem_stateRoutes_iff policy phase label other).mpr ⟨hother.1, hother.2, hmatch.1⟩)
  exact (ne_opposite_iff _ outcome).mpr hmatch.2 hopposite

theorem stateRoutes_ne_nil (h : policy.missingBudgetStates phase = []) (label : BudgetLabel) : policy.stateRoutes phase label ≠ [] := by
  have hall := filter_eq_nil_iff.mp h label (by cases label <;> simp)
  have hdeclared : label ∈ (policy.phaseRoutes phase).map fun route => route.when.budgetState := by
    by_contra hmissing
    exact hall (decide_eq_true hmissing)
  simp only [phaseRoutes, mem_map, mem_filter, beq_iff_eq] at hdeclared
  obtain ⟨route, ⟨hmem, hname⟩, hstate⟩ := hdeclared
  exact ne_nil_of_mem ((mem_stateRoutes_iff policy phase label route).mpr ⟨hmem, hname, hstate⟩)

/-- When a commit takes a route of its table: unless every entry for its budget is for the opposite verdict. -/
theorem followsDeclaredRoute_iff (policy : PipelinePolicy) (state : PipelineState) (phaseDef : PhaseDefinition)
    (counter : String) (label : BudgetLabel) (haccepted : policy.Accepted) (hcomplete : policy.RoutesComplete)
    (hphase : policy.phases.get? state.phase = some phaseDef) (hrole : phaseDef.role = some .commit)
    (hcounter : budgetCounterForPhase state.phase policy = some counter)
    (hlabel : computeBudgetState state policy = some label) (hoverride : state.postCommitPhaseOverride = none) :
    (FollowsDeclaredRoute state policy ↔ ¬ OnlyOppositeRoutes policy state.phase label (state.pendingCycleOutcome.getD forwardOutcome)) ∧
      ∀ outcome ∈ policy.recordableCycleOutcomes, state.pendingCycleOutcome = some outcome →
        FollowsDeclaredRoute state policy := by
  have hroute := declaredPostCommitRoute_eq hphase hrole hlabel
  have hiff : FollowsDeclaredRoute state policy ↔
      ¬ OnlyOppositeRoutes policy state.phase label (state.pendingCycleOutcome.getD forwardOutcome) := by
    rw [← candidates_isSome_iff, ← hroute, Option.isSome_iff_exists]
    constructor
    · rintro ⟨route, _, _, hsome, _⟩
      exact ⟨route, hsome⟩
    · rintro ⟨route, hsome⟩
      have hmem : route ∈ policy.stateRoutes state.phase label := by
        rw [hroute] at hsome
        obtain ⟨outcome, _, hmatch⟩ := exists_of_findSome?_eq_some hsome
        exact mem_of_matchingRoute hmatch
      obtain ⟨htable, hname, _⟩ := (mem_stateRoutes_iff policy state.phase label route).mp hmem
      refine ⟨route, htable, hname, hsome, ?_⟩
      simp only [resolvePostCommitPhase, hoverride, hsome]
  refine ⟨hiff, ?_⟩
  intro outcome hrecordable hpending
  have hmissing := (hcomplete.tracked hphase hrole (by rw [trackedRouteCounter_eq hphase, hcounter])).1
  rw [hiff, hpending, Option.getD_some]
  exact not_onlyOpposite_of_recordable haccepted hphase (stateRoutes_ne_nil hmissing label) hrecordable

theorem spentFailedCommit_follows : FollowsDeclaredRoute spentFailedCommit Default.pipeline := by
  have h := followsDeclaredRoute_iff Default.pipeline spentFailedCommit Default.developmentFinalCommit "iteration"
    .noReview Default.pipeline_accepted (by decide +kernel) rfl rfl rfl rfl rfl
  exact h.2 .failed (by decide) rfl

/-! ## A table that falls through -/

def failedOnlyRoute (label : BudgetLabel) (target : String) : PostCommitRoute where
  when := { phase := "final_commit", budgetState := label, cycleOutcome := some .failed }
  target := target

def failedOnlyCommit : PhaseDefinition where
  drain := "commit"
  role := some .commit
  transitions := { onSuccess := "complete" }
  commitPolicy := some { incrementsCounter := some "iteration" }

theorem iteration_counter_nodup : ([("iteration", ({ defaultMax := 5 } : BudgetCounterConfig))].map Prod.fst).Nodup := by decide

theorem iteration_cap_nodup : ([("iteration", (5 : Int))].map Prod.fst).Nodup := by decide

def failedOnlyPolicy : PipelinePolicy where
  phases := ⟨[("planning", { drain := "planning", role := some .execution, transitions := { onSuccess := "final_commit" } }),
    ("final_commit", failedOnlyCommit), ("complete", Default.complete),
    ("failed_terminal", Default.failedTerminal)], by decide⟩
  budgetCounters := ⟨[("iteration", { defaultMax := 5 })], iteration_counter_nodup⟩
  postCommitRoutes := [failedOnlyRoute .remaining "planning", failedOnlyRoute .exhausted "failed_terminal",
    failedOnlyRoute .noReview "failed_terminal"]

def failedOnlyStart : PipelineState where
  phase := "planning"
  budgetCaps := ⟨[("iteration", 5)], iteration_cap_nodup⟩

def failedOnlyAtCommit : PipelineState :=
  { failedOnlyStart with
    phase := "final_commit"
    previousPhase := some "planning"
    currentDrain := some "commit" }

/-- The commit ends the run at `on_success`, with four cycles of budget left. -/
theorem failedOnlyPolicy_falls_through : failedOnlyPolicy.Accepted ∧ failedOnlyPolicy.RoutesComplete ∧
      (reduce failedOnlyStart (.pipeline .agentSuccess) failedOnlyPolicy none none).result =
        .ok (failedOnlyAtCommit, []) ∧
      budgetCounterForPhase "final_commit" failedOnlyPolicy = some "iteration" ∧
      failedOnlyAtCommit.pendingCycleOutcome = none ∧ failedOnlyAtCommit.postCommitPhaseOverride = none ∧
      resolvePostCommitPhase failedOnlyAtCommit failedOnlyPolicy = .ok "complete" ∧
      (∀ route ∈ failedOnlyPolicy.postCommitRoutes, route.target ≠ "complete") ∧
      ¬ FollowsDeclaredRoute failedOnlyAtCommit failedOnlyPolicy ∧
      ∃ ended, (reduce failedOnlyAtCommit (.pipeline .commitSuccess) failedOnlyPolicy none none).result = .ok (ended, []) ∧
        ended.phase = "complete" ∧ ended.getBudgetRemaining "iteration" = 4 := by
  refine ⟨by decide +kernel, by decide +kernel, rfl, rfl, rfl, rfl, rfl, by decide, ?_, _, rfl, rfl, rfl⟩
  intro hfollows
  obtain ⟨route, _, _, hroute, _⟩ := hfollows
  have hnone : declaredPostCommitRoute failedOnlyAtCommit failedOnlyPolicy = none := rfl
  rw [hnone] at hroute
  exact absurd hroute (by simp)

end RalphWorkflow.PostCommitRouting
