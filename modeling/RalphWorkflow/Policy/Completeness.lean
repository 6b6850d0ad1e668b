import RalphWorkflow.Policy.Validators

/-! The load-time checks of `ralph/policy/validation` that routing relies on: route tables cover every budget state, a spent budget can end the run,
and a gate names the execution phase whose loop it guards. Each returns the errors it appends. -/
namespace RalphWorkflow.Policy.PipelinePolicy
open Lib Lib.Text Lib.Worklist

/-! ## Post-commit routes -/

def nonEmptyCounter (counter : Option String) : Option String := counter.filter fun name => name != ""

theorem nonEmptyCounter_some (name : String) : nonEmptyCounter (some name) = if name = "" then none else some name := by
  by_cases h : name = "" <;> simp [nonEmptyCounter, Option.filter, h]

/-- The budget counter post-commit routing will use for a phase; a lifecycle entry is authoritative. -/
def routeBudgetCounter (policy : PipelinePolicy) (phaseName : String) (phaseDef : PhaseDefinition) : Option String :=
  match policy.lifecyclePhases.get? phaseName with
  | some lifecycle => nonEmptyCounter lifecycle.incrementsCounter
  | none =>
    match phaseDef.commitPolicy with
    | none => none
    | some commitPolicy =>
      match nonEmptyCounter commitPolicy.routeCounter with
      | some counter => some counter
      | none => nonEmptyCounter commitPolicy.incrementsCounter

/-- The outcome an unrecorded cycle is routed as once the wildcard routes fail to match. -/
def unrecordedFallbackOutcome : CycleOutcome := .completed

def firstTarget (candidate : Option CycleOutcome) : List PostCommitRoute → Option String
  | [] => none
  | route :: rest =>
    if route.when.cycleOutcome = none ∨ route.when.cycleOutcome = candidate then some route.target
    else firstTarget candidate rest

/-- The target post-commit routing would take, as the load-time check models it. -/
def routedTarget (routes : List PostCommitRoute) (outcome : Option CycleOutcome) : Option String :=
  match outcome with
  | some _ => firstTarget outcome routes
  | none =>
    match firstTarget none routes with
    | some target => some target
    | none => firstTarget (some unrecordedFallbackOutcome) routes

def phaseRoutes (policy : PipelinePolicy) (phase : String) : List PostCommitRoute :=
  policy.postCommitRoutes.filter fun route => route.when.phase == phase

def stateRoutes (policy : PipelinePolicy) (phase : String) (budgetState : BudgetLabel) : List PostCommitRoute :=
  policy.postCommitRoutes.filter fun route => route.when.phase == phase && route.when.budgetState == budgetState

/-- The targets that the walk of `_terminal_is_reachable` pushes for a declared phase. -/
def spentTargets (policy : PipelinePolicy) (outcome : Option CycleOutcome) (phase : String) (phaseDef : PhaseDefinition) : List String :=
  (routedTarget (policy.phaseRoutes phase) outcome).getD phaseDef.transitions.onSuccess ::
    phaseDef.decisions.values.map PhaseDecisionRoute.target

def spentExpand (policy : PipelinePolicy) (outcome : Option CycleOutcome) (phase : String) : Option (List String) :=
  (policy.phases.get? phase).map (policy.spentTargets outcome phase)

def terminalIsReachable (policy : PipelinePolicy) (start : String) (outcome : Option CycleOutcome) : Bool :=
  search (fun phase => decide (phase ∈ policy.terminalStates)) (policy.spentExpand outcome)
    (walkFuel (policy.spentExpand outcome) policy.phases.keys [start]) [start] []

def outcomeText : Option CycleOutcome → String
  | none => "None"
  | some outcome => outcome.name

def declaredOutcomes (routes : List PostCommitRoute) : List (Option CycleOutcome) :=
  [none, some CycleOutcome.completed, some .failed].filter (· ∈ routes.map fun route => route.when.cycleOutcome)

def spentRouteErrors (policy : PipelinePolicy) (phaseName counter : String) (budgetState : BudgetLabel)
    (outcome : Option CycleOutcome) : List String :=
  match routedTarget (policy.stateRoutes phaseName budgetState) outcome with
  | none => []
  | some target =>
    if policy.terminalIsReachable target outcome then []
    else
      [s!"phases.{phaseName}: with budget_state='{budgetState.name}' and cycle outcome " ++
        s!"'{outcomeText outcome}', post-commit routing goes to '{target}', from which no terminal " ++
        s!"is reachable without failing. Once counter '{counter}' is spent the run " ++
        "would re-enter the cycle forever. Route that combination to a terminal, or to " ++
        "a phase from which one is reachable."]

def validateSpentBudgetCanEndTheRun (policy : PipelinePolicy) (phaseName counter : String) : List String :=
  [BudgetLabel.exhausted, .noReview].flatMap fun budgetState =>
    (declaredOutcomes (policy.stateRoutes phaseName budgetState)).flatMap
      (policy.spentRouteErrors phaseName counter budgetState)

def trackedRouteCounter (policy : PipelinePolicy) (phaseName : String) (phaseDef : PhaseDefinition) : Option String :=
  match policy.routeBudgetCounter phaseName phaseDef with
  | none => none
  | some counter =>
    if counter = "none" then none
    else match policy.budgetCounters.get? counter with
      | none => none
      | some config => if config.tracksBudget then some counter else none

def missingBudgetStates (policy : PipelinePolicy) (phaseName : String) : List BudgetLabel :=
  [BudgetLabel.exhausted, .noReview, .remaining].filter fun budgetState =>
    budgetState ∉ (policy.phaseRoutes phaseName).map fun route => route.when.budgetState

def commitRouteErrors (policy : PipelinePolicy) (phaseName : String) (phaseDef : PhaseDefinition) : List String :=
  if phaseDef.role ≠ some .commit then []
  else match policy.trackedRouteCounter phaseName phaseDef with
    | none => []
    | some counter =>
      let missing := policy.missingBudgetStates phaseName
      (if missing.isEmpty then []
        else
          [s!"phases.{phaseName}: increments budget-tracking counter '{counter}' " ++
            "but post_commit_routes do not cover all budget states. " ++
            s!"Missing: {pyReprList (missing.map BudgetLabel.name)}. " ++
            s!"Add [[post_commit_routes]] entries with when.phase='{phaseName}' " ++
            "for each missing budget_state. " ++
            "See docs/sphinx/policy-driven-overhaul-migration.md."]) ++
        policy.validateSpentBudgetCanEndTheRun phaseName counter

def validatePostCommitRoutesComplete (policy : PipelinePolicy) : List String :=
  policy.phases.entries.flatMap fun (phaseName, phaseDef) => policy.commitRouteErrors phaseName phaseDef

def RoutesComplete (policy : PipelinePolicy) : Prop := policy.validatePostCommitRoutesComplete = []

instance (policy : PipelinePolicy) : Decidable policy.RoutesComplete :=
  inferInstanceAs (Decidable (policy.validatePostCommitRoutesComplete = []))

theorem RoutesComplete.commitRouteErrors_eq {policy : PipelinePolicy} (h : policy.RoutesComplete)
    {phase : String} {phaseDef : PhaseDefinition} (hphase : policy.phases.get? phase = some phaseDef) :
    policy.commitRouteErrors phase phaseDef = [] := by
  have hmem := (Dict.get?_eq_some_iff policy.phases phase phaseDef).mp hphase
  exact List.flatMap_eq_nil_iff.mp h (phase, phaseDef) hmem

/-- A commit phase with a tracked counter has a route for every budget state, checked for spent ones. -/
theorem RoutesComplete.tracked {policy : PipelinePolicy} (h : policy.RoutesComplete) {phase counter : String}
    {phaseDef : PhaseDefinition} (hphase : policy.phases.get? phase = some phaseDef)
    (hrole : phaseDef.role = some .commit) (hcounter : policy.trackedRouteCounter phase phaseDef = some counter) :
    policy.missingBudgetStates phase = [] ∧ policy.validateSpentBudgetCanEndTheRun phase counter = [] := by
  have herrors := h.commitRouteErrors_eq hphase
  unfold commitRouteErrors at herrors
  rw [if_neg (not_not.mpr hrole), hcounter] at herrors
  obtain ⟨hmissing, hspent⟩ := List.append_eq_nil_iff.mp herrors
  refine ⟨?_, hspent⟩
  by_contra hne
  rw [if_neg (by simpa using hne)] at hmissing
  exact absurd hmissing (List.cons_ne_nil _ _)

/-! ## Invocation gates -/

def executionResultStatuses : List String := ["completed", "partial", "failed"]

def successExpand (policy : PipelinePolicy) (phase : String) : Option (List String) :=
  (policy.phases.get? phase).map fun phaseDef => [phaseDef.transitions.onSuccess]

def phasesReachableViaSuccess (policy : PipelinePolicy) (start : String) : List String :=
  sweep policy.successExpand (walkFuel policy.successExpand policy.phases.keys [start]) [start] []

def roleText : Option PhaseRole → String
  | none => "None"
  | some role => role.name

def optionText : Option String → String
  | none => "None"
  | some text => text

def validateInvocationGate (policy : PipelinePolicy) (phaseName : String) (phaseDef : PhaseDefinition) : List String :=
  match phaseDef.invocationGate with
  | none => []
  | some gate =>
    let upstream := gate.upstreamExecutionPhase
    let field := s!"phases.{phaseName}.invocation_gate.upstream_execution_phase: "
    match policy.phases.get? upstream with
    | none => [field ++ s!"'{upstream}' is not a declared phase."]
    | some upstreamDef =>
      let invalidStatuses := gate.alwaysInvokeStatuses.filter (· ∉ executionResultStatuses)
      (if upstreamDef.role = some .execution then []
        else [field ++ s!"'{upstream}' must have role='execution' (got role='{roleText upstreamDef.role}')."]) ++
      (if phaseDef.transitions.onLoopback = some upstream then []
        else [field ++ s!"'{upstream}' must match the analysis phase's transitions.on_loopback " ++
          s!"('{optionText phaseDef.transitions.onLoopback}')."]) ++
      (if gate.minimumElapsedSeconds < 0 then
          [s!"phases.{phaseName}.invocation_gate.minimum_elapsed_seconds: " ++
            s!"must be non-negative (got {gate.minimumElapsedSeconds})."]
        else []) ++
      (if phaseName ∈ policy.phasesReachableViaSuccess upstream then []
        else [field ++ s!"'{upstream}' must reach '{phaseName}' via on_success transitions " ++
          "(the policy-defined success path), but no such path exists."]) ++
      (if invalidStatuses.isEmpty then []
        else [s!"phases.{phaseName}.invocation_gate.always_invoke_statuses: " ++
          s!"{pyReprList invalidStatuses} are not valid execution result statuses. " ++
          s!"Valid values: {pyReprList executionResultStatuses}."])

def GatesValid (policy : PipelinePolicy) : Prop :=
  ∀ e ∈ policy.phases.entries, e.2.role = some .analysis → policy.validateInvocationGate e.1 e.2 = []

instance (policy : PipelinePolicy) : Decidable policy.GatesValid :=
  inferInstanceAs (Decidable (∀ e ∈ policy.phases.entries,
    e.2.role = some .analysis → policy.validateInvocationGate e.1 e.2 = []))

end RalphWorkflow.Policy.PipelinePolicy
