import RalphWorkflow.Proof.PostCommitRouting

/-! `_validate_spent_budget_can_end_the_run` walks a graph in which every commit phase follows the first table entry for the outcome; the run
follows the entry for its budget state. The walk is sound wherever the two choices agree. -/
namespace RalphWorkflow.SpentBudget
open Lib Lib.Worklist Policy Policy.PipelinePolicy List
open Pipeline PostCommitRouting

/-! ## What the live router can do -/

/-- The run of `base` in another phase, its budgets unchanged, carrying the verdict `outcome`. -/
def atPhase (base : PipelineState) (phase : String) (outcome : Option CycleOutcome) : PipelineState :=
  { base with
    phase := phase
    pendingCycleOutcome := outcome
    postCommitPhaseOverride := none }

/-- Post-commit routing for some verdict, a declared transition or a declared decision. -/
inductive LiveStep (base : PipelineState) (policy : PipelinePolicy) : String → String → Prop
  | commit (phase target : String) (outcome : Option CycleOutcome) (hrole : phaseHasRole policy phase .commit = true)
      (hresolve : resolvePostCommitPhase (atPhase base phase outcome) policy = .ok target) :
      LiveStep base policy phase target
  | transition (phase target : String) (signal : Signal)
      (hother : phaseHasRole policy phase .commit = false ∨ signal ≠ .success)
      (hresolve : resolveNextPhase phase signal policy = .ok target) : LiveStep base policy phase target
  | decision (phase name : String) (phaseDef : PhaseDefinition) (route : PhaseDecisionRoute)
      (hphase : policy.phases.get? phase = some phaseDef) (hroute : phaseDef.decisions.get? name = some route) :
      LiveStep base policy phase route.target

def CanEndRun (state : PipelineState) (policy : PipelinePolicy) : Prop :=
  ∃ target terminal, resolvePostCommitPhase state policy = .ok target ∧
    Relation.ReflTransGen (LiveStep state policy) target terminal ∧ terminal ∈ policy.terminalStates

/-! ## Where the walk is live -/

abbrev WalkStep (policy : PipelinePolicy) (outcome : Option CycleOutcome) : String → String → Prop :=
  SearchStep (fun phase => decide (phase ∈ policy.terminalStates)) (policy.spentExpand outcome)

def liveChoice (base : PipelineState) (policy : PipelinePolicy) (phase : String) (outcome : Option CycleOutcome) : Option String :=
  if phaseHasRole policy phase .commit then
    (computeBudgetState (atPhase base phase outcome) policy).bind fun label =>
      routedTarget (policy.stateRoutes phase label) outcome
  else none

/-- Along the walk from `start`, pooling the budget states of a table does not change its choice. -/
def PoolingIsLive (base : PipelineState) (policy : PipelinePolicy) (outcome : Option CycleOutcome) (start : String) : Prop :=
  ∀ phase, Relation.ReflTransGen (WalkStep policy outcome) start phase → phase ∉ policy.terminalStates →
    routedTarget (policy.phaseRoutes phase) outcome = liveChoice base policy phase outcome

variable {policy : PipelinePolicy} {phase : String} {outcome : Option CycleOutcome}

theorem phaseHasRole_eq {phaseDef : PhaseDefinition} (role : PhaseRole) (hphase : policy.phases.get? phase = some phaseDef) :
    phaseHasRole policy phase role = true ↔ phaseDef.role = some role := by
  unfold phaseHasRole
  rw [hphase]
  exact beq_iff_eq

theorem resolvePostCommitPhase_atPhase (haccepted : policy.Accepted)
    (base : PipelineState) {phaseDef : PhaseDefinition} (outcome : Option CycleOutcome)
    (hphase : policy.phases.get? phase = some phaseDef) (hrole : phaseHasRole policy phase .commit = true) :
    resolvePostCommitPhase (atPhase base phase outcome) policy =
      .ok ((liveChoice base policy phase outcome).getD phaseDef.transitions.onSuccess) := by
  have hsuccess := resolveNextPhase_success haccepted hphase
  have hphase' : policy.phases.get? (atPhase base phase outcome).phase = some phaseDef := hphase
  unfold liveChoice
  rw [if_pos hrole]
  cases hlabel : computeBudgetState (atPhase base phase outcome) policy with
  | some label =>
    rw [resolvePostCommitPhase_of_label hphase' ((phaseHasRole_eq .commit hphase).mp hrole) hlabel rfl]
    dsimp only [atPhase]
    rw [hsuccess, Option.bind_some]
    cases routedTarget (policy.stateRoutes phase label) outcome <;> rfl
  | none =>
    have hnone : declaredPostCommitRoute (atPhase base phase outcome) policy = none := by
      unfold declaredPostCommitRoute
      rw [hlabel]
      exact ite_self none
    unfold resolvePostCommitPhase
    rw [hnone]
    exact hsuccess

theorem WalkStep.liveStep (haccepted : policy.Accepted) (base : PipelineState) {next : String} (hstep : WalkStep policy outcome phase next)
    (hlive : routedTarget (policy.phaseRoutes phase) outcome = liveChoice base policy phase outcome) :
    LiveStep base policy phase next := by
  obtain ⟨_, targets, hexpand, hnext⟩ := hstep
  unfold spentExpand at hexpand
  obtain ⟨phaseDef, hphase, htargets⟩ := Option.map_eq_some_iff.mp hexpand
  rw [← htargets, spentTargets, hlive] at hnext
  rcases mem_cons.mp hnext with hrouted | hdecision
  · cases hrole : phaseHasRole policy phase .commit with
    | true =>
      have hresolve := resolvePostCommitPhase_atPhase haccepted base outcome hphase hrole
      rw [← hrouted] at hresolve
      exact LiveStep.commit phase next outcome hrole hresolve
    | false =>
      have hnone : liveChoice base policy phase outcome = none := by simp [liveChoice, hrole]
      rw [hnone, Option.getD_none] at hrouted
      rw [hrouted]
      exact LiveStep.transition phase _ .success (.inl hrole) (resolveNextPhase_success haccepted hphase)
  · obtain ⟨route, hroute, htarget⟩ := mem_map.mp hdecision
    obtain ⟨name, hname⟩ := (Dict.mem_values_iff phaseDef.decisions route).mp hroute
    rw [← htarget]
    exact LiveStep.decision phase name phaseDef route hphase hname

theorem terminal_of_terminalIsReachable (haccepted : policy.Accepted) (base : PipelineState) {start : String}
    (hreach : policy.terminalIsReachable start outcome = true) (hlive : PoolingIsLive base policy outcome start) :
    ∃ terminal, Relation.ReflTransGen (LiveStep base policy) start terminal ∧ terminal ∈ policy.terminalStates := by
  obtain ⟨x, hx, terminal, hpath, hterminal⟩ := search_sound _ _ _ hreach
  rw [mem_singleton] at hx
  subst hx
  refine ⟨terminal, ?_, of_decide_eq_true hterminal⟩
  clear hterminal hreach
  induction hpath with
  | refl => exact Relation.ReflTransGen.refl
  | tail hprefix hstep ih =>
    have hnot := of_decide_eq_false hstep.1
    exact ih.tail (WalkStep.liveStep haccepted base hstep (hlive _ hprefix hnot))

/-! ## Soundness of the check -/

/-- The outcome whose entry the load-time check covers a verdict by. -/
local instance : LawfulBEq (Option CycleOutcome) := inferInstance

def checkedOutcome (routes : List PostCommitRoute) (outcome : Option CycleOutcome) : Option CycleOutcome :=
  if outcome ∈ routes.map fun route => route.when.cycleOutcome then outcome
  else if none ∈ routes.map fun route => route.when.cycleOutcome then none
  else some unrecordedFallbackOutcome

theorem mem_declaredOutcomes_iff (routes : List PostCommitRoute) (outcome : Option CycleOutcome) :
    outcome ∈ declaredOutcomes routes ↔ outcome ∈ routes.map fun route => route.when.cycleOutcome := by
  unfold declaredOutcomes
  rw [mem_filter, decide_eq_true_eq]
  refine and_iff_right ?_
  cases outcome with
  | none => simp
  | some outcome => cases outcome <;> simp

theorem firstTarget_of_not_declared (routes : List PostCommitRoute) (candidate : Option CycleOutcome)
    (h : candidate ∉ routes.map fun route => route.when.cycleOutcome) :
    firstTarget candidate routes = firstTarget none routes := by
  induction routes with
  | nil => rfl
  | cons route rest ih =>
    rw [map_cons, mem_cons, not_or] at h
    have hne : route.when.cycleOutcome ≠ candidate := fun heq => h.1 heq.symm
    simp only [firstTarget, hne, or_false, or_self]
    rw [ih h.2]

theorem firstTarget_none_of_no_wildcard (routes : List PostCommitRoute)
    (h : none ∉ routes.map fun route => route.when.cycleOutcome) : firstTarget none routes = none := by
  induction routes with
  | nil => rfl
  | cons route rest ih =>
    rw [map_cons, mem_cons, not_or] at h
    have hne : route.when.cycleOutcome ≠ none := fun heq => h.1 heq.symm
    simp only [firstTarget, hne, or_self, if_false]
    exact ih h.2

theorem routedTarget_checkedOutcome {routes : List PostCommitRoute} {target : String}
    (h : routedTarget routes outcome = some target) : checkedOutcome routes outcome ∈ declaredOutcomes routes ∧
      routedTarget routes (checkedOutcome routes outcome) = some target := by
  rw [mem_declaredOutcomes_iff]
  unfold checkedOutcome
  by_cases hdeclared : outcome ∈ routes.map fun route => route.when.cycleOutcome
  · rw [if_pos hdeclared]
    exact ⟨hdeclared, h⟩
  · rw [if_neg hdeclared]
    have hplain := firstTarget_of_not_declared routes outcome hdeclared
    by_cases hwild : none ∈ routes.map fun route => route.when.cycleOutcome
    · rw [if_pos hwild]
      refine ⟨hwild, ?_⟩
      cases outcome with
      | none => exact absurd hwild hdeclared
      | some outcome =>
        have hfirst : firstTarget none routes = some target := hplain ▸ h
        simp only [routedTarget, hfirst]
    · rw [if_neg hwild]
      have hnone := firstTarget_none_of_no_wildcard routes hwild
      cases outcome with
      | some outcome =>
        -- without a wildcard an undeclared verdict matches nothing
        have hfirst : firstTarget none routes = some target := hplain ▸ h
        rw [hnone] at hfirst
        exact absurd hfirst (by simp)
      | none =>
        simp only [routedTarget, hnone] at h
        refine ⟨?_, h⟩
        by_contra hmissing
        rw [firstTarget_of_not_declared routes _ hmissing, hnone] at h
        exact absurd h (by simp)

theorem computeBudgetState_spent {state : PipelineState} {counter : String}
    {label : BudgetLabel} (hcounter : budgetCounterForPhase state.phase policy = some counter)
    (hspent : state.getBudgetRemaining counter = 0) (hlabel : computeBudgetState state policy = some label) :
    label = .exhausted ∨ label = .noReview := by
  unfold computeBudgetState at hlabel
  rw [hcounter] at hlabel
  dsimp only at hlabel
  rw [hspent, if_neg (lt_irrefl _)] at hlabel
  split at hlabel
  · cases hlabel
    exact .inl rfl
  · cases hlabel
    exact .inr rfl

theorem terminalIsReachable_of_no_errors {counter target : String} {label : BudgetLabel}
    (hvalid : policy.validateSpentBudgetCanEndTheRun phase counter = []) (hlabel : label = .exhausted ∨ label = .noReview)
    (houtcome : outcome ∈ declaredOutcomes (policy.stateRoutes phase label))
    (htarget : routedTarget (policy.stateRoutes phase label) outcome = some target) :
    policy.terminalIsReachable target outcome = true := by
  have hstates := flatMap_eq_nil_iff.mp hvalid label (by rcases hlabel with h | h <;> simp [h])
  have herrors := flatMap_eq_nil_iff.mp hstates outcome houtcome
  unfold spentRouteErrors at herrors
  rw [htarget] at herrors
  dsimp only at herrors
  by_contra hunreachable
  rw [if_neg hunreachable] at herrors
  exact absurd herrors (cons_ne_nil _ _)

theorem poolingIsLive_of_terminal {base : PipelineState}
    {start : String} (hstart : start ∈ policy.terminalStates) : PoolingIsLive base policy outcome start := by
  intro phase hpath hphase
  -- the walk stops at a terminal
  rcases Relation.ReflTransGen.cases_head hpath with heq | ⟨next, hstep, _⟩
  · exact absurd (heq ▸ hstart) hphase
  · exact absurd hstart (of_decide_eq_false hstep.1)

def restartCommit : PhaseDefinition where
  drain := "commit"
  role := some .commit
  transitions := { onSuccess := "planning" }
  commitPolicy := some { incrementsCounter := some "iteration" }

def restartRoute (label : BudgetLabel) (target : String) : PostCommitRoute where
  when := { phase := "final_commit", budgetState := label }
  target := target

/-- The routes the wrong way round: a live budget ends the run, a spent one restarts it. -/
def restartPolicy : PipelinePolicy where
  phases := ⟨[("planning", { drain := "planning", role := some .execution, transitions := { onSuccess := "final_commit" } }),
    ("final_commit", restartCommit), ("complete", Default.complete),
    ("failed_terminal", Default.failedTerminal)], by decide⟩
  budgetCounters := ⟨[("iteration", { defaultMax := 5 })], iteration_counter_nodup⟩
  postCommitRoutes := [restartRoute .remaining "complete", restartRoute .exhausted "planning",
    restartRoute .noReview "planning"]

def restartSpent : PipelineState where
  phase := "final_commit"
  budgetCaps := ⟨[("iteration", 5)], iteration_cap_nodup⟩
  outerProgress := ⟨[("iteration", 5)], iteration_cap_nodup⟩

theorem restart_commit_target (outcome : Option CycleOutcome) :
    resolvePostCommitPhase (atPhase restartSpent "final_commit" outcome) restartPolicy = .ok "planning" := by
  cases outcome with
  | none => rfl
  | some outcome => cases outcome <;> rfl

theorem restart_liveStep_closed {verdict : Option CycleOutcome} {next : String}
    (hstep : LiveStep (atPhase restartSpent "final_commit" verdict) restartPolicy phase next)
    (hphase : phase = "planning" ∨ phase = "final_commit") : next = "planning" ∨ next = "final_commit" := by
  cases hstep with
  | commit _ outcome hrole hresolve =>
    rcases hphase with rfl | rfl
    · exact absurd hrole (by decide)
    · have htarget := (restart_commit_target outcome).symm.trans hresolve
      cases htarget
      exact .inl rfl
  | transition _ signal _ hresolve =>
    rcases hphase with rfl | rfl
    · cases signal with
      | success =>
        cases hresolve
        exact .inr rfl
      | failure => cases hresolve
      | loopback => cases hresolve
    · cases signal with
      | success =>
        cases hresolve
        exact .inl rfl
      | failure => cases hresolve
      | loopback => cases hresolve
  | decision name phaseDef route hdef hroute =>
    rcases hphase with rfl | rfl
    · cases hdef
      cases hroute
    · cases hdef
      cases hroute

theorem restart_reach_closed {verdict : Option CycleOutcome} {next : String}
    (hpath : Relation.ReflTransGen (LiveStep (atPhase restartSpent "final_commit" verdict) restartPolicy) phase next)
    (hphase : phase = "planning" ∨ phase = "final_commit") : next = "planning" ∨ next = "final_commit" := by
  induction hpath with
  | refl => exact hphase
  | tail _ hstep ih => exact restart_liveStep_closed hstep ih

end RalphWorkflow.SpentBudget
