import RalphWorkflow.Pipeline.Progress

/-! `ralph/pipeline/handoffs.py`: the next phase for a signal, the bypass of exhausted analysis phases, and the
budget-guarded routes out of a commit phase. -/
namespace RalphWorkflow.Pipeline
open Lib Policy

/-- The decision whose declared outcome describes a cycle that reached the finalization path. -/
def forwardDecision : String := "completed"

/-- The outcome post-commit routing retries an unrecorded verdict as: the forward decision's name. -/
def forwardOutcome : CycleOutcome := .completed

def declaredForwardCycleOutcome (phase : String) (policy : PipelinePolicy) : Option CycleOutcome :=
  ((policy.phases.get? phase).bind fun phaseDef => phaseDef.decisions.get? forwardDecision).bind
    PhaseDecisionRoute.cycleOutcome

/-- Stamp the forward outcome that `phase` declares on a cycle that has no verdict yet. -/
def stampForwardOutcome (state : PipelineState) (phase : String) (policy : PipelinePolicy) : PipelineState :=
  match declaredForwardCycleOutcome phase policy, state.pendingCycleOutcome with
  | some outcome, none => { state with pendingCycleOutcome := some outcome }
  | _, _ => state

/-! ## Next phase -/

inductive Signal
  | success | failure | loopback
  deriving DecidableEq

def Signal.name : Signal → String
  | .success => "success"
  | .failure => "failure"
  | .loopback => "loopback"

def Signal.target : Signal → PhaseTransition → Option String
  | .success, t => some t.onSuccess
  | .failure, t => t.onFailure
  | .loopback, t => t.onLoopback

def resolveNextPhase (currentPhase : String) (signal : Signal) (policy : PipelinePolicy) : Except PyError String :=
  match policy.phases.get? currentPhase with
  | none => .error (.valueError s!"Cannot resolve transition: phase '{currentPhase}' not found")
  | some phaseDef =>
    match signal.target phaseDef.transitions with
    | none => .error (.valueError
        (s!"No '{signal.name}' transition defined for phase '{currentPhase}'. " ++
          s!"Define on_{signal.name} in pipeline.toml or set the phase to terminal."))
    | some target =>
      if policy.known target then .ok target
      else .error (.valueError
        (s!"Transition from '{currentPhase}' on signal '{signal.name}' " ++
          s!"references unknown phase '{target}'. " ++
          s!"Either add '{target}' to pipeline.phases or use the declared terminal phase."))

/-! ## Exhausted analysis phases -/

structure ExhaustedAnalysisSkip where
  phase : String
  targetPhase : String
  iterationField : String
  iterationValue : Int
  maxIterations : Nat
  deriving DecidableEq

structure ExhaustedAnalysisBypassResult where
  state : PipelineState
  targetPhase : String
  skipped : List ExhaustedAnalysisSkip := []

/-- The state after skipping `phase`: its counter is reset and its forward outcome stamped. -/
def skipAnalysis (state : PipelineState) (phase iterationField : String) (policy : PipelinePolicy) : PipelineState :=
  stampForwardOutcome { state.withLoopIteration iterationField 0 with reviewOutcome := none } phase policy

/-- The skip of one pass and the state after it, or `none` where the loop breaks. -/
def skipIfExhausted (state : PipelineState) (phase : String) (policy : PipelinePolicy) :
    Except PyError (Option (ExhaustedAnalysisSkip × PipelineState)) :=
  match (policy.phases.get? phase).bind PhaseDefinition.loopPolicy with
  | none => .ok none
  | some loopPolicy => do
    let field := loopPolicy.iterationStateField
    let current := state.getLoopIteration field
    let maxIterations ← resolveAnalysisCap field policy
    if shouldSkipAnalysisReentry current maxIterations then
      let next ← resolveNextPhase phase .success policy
      .ok (some (⟨phase, next, field, current, maxIterations⟩, skipAnalysis state phase field policy))
    else .ok none

def exhaustedAnalysisBypassFrom (policy : PipelinePolicy) : Nat → PipelineState → String → List ExhaustedAnalysisSkip → List String →
      Except PyError ExhaustedAnalysisBypassResult
  | 0, state, target, skipped, _ => .ok ⟨state, target, skipped⟩
  | fuel + 1, state, target, skipped, visited =>
    if target ∈ visited then .ok ⟨state, target, skipped⟩
    else do
      match ← skipIfExhausted state target policy with
      | none => .ok ⟨state, target, skipped⟩
      | some (skip, next) =>
        exhaustedAnalysisBypassFrom policy fuel next skip.targetPhase (skipped ++ [skip]) (target :: visited)

/-- Follow success transitions past spent analysis phases; every pass but the last visits a new one. -/
def resolveExhaustedAnalysisBypass (state : PipelineState) (candidatePhase : String) (policy : PipelinePolicy) :
    Except PyError ExhaustedAnalysisBypassResult :=
  exhaustedAnalysisBypassFrom policy (policy.phases.keys.length + 1) state candidatePhase [] []

variable {policy : PipelinePolicy} {phase : String} {state : PipelineState}

theorem skipIfExhausted_none (h : (policy.phases.get? phase).bind PhaseDefinition.loopPolicy = none) (state : PipelineState) :
    skipIfExhausted state phase policy = .ok none := by
  simp only [skipIfExhausted, h]

theorem skipIfExhausted_spent {next field : String} {loopPolicy : PhaseLoopPolicy} {cap : Nat}
    (hloop : (policy.phases.get? phase).bind PhaseDefinition.loopPolicy = some loopPolicy)
    (hfield : loopPolicy.iterationStateField = field) (hcap : resolveAnalysisCap field policy = .ok cap)
    (hnext : resolveNextPhase phase .success policy = .ok next) (hspent : (cap : Int) ≤ state.getLoopIteration field) :
    skipIfExhausted state phase policy =
      .ok (some (⟨phase, next, field, state.getLoopIteration field, cap⟩, skipAnalysis state phase field policy)) := by
  subst hfield
  simp only [skipIfExhausted, hloop, hcap, hnext, bind, Except.bind, shouldSkipAnalysisReentry,
    AnalysisLoopCounter.shouldSkipReentry, decide_eq_true_eq, if_pos hspent]

theorem skipIfExhausted_open {field : String} {loopPolicy : PhaseLoopPolicy} {cap : Nat}
    (hloop : (policy.phases.get? phase).bind PhaseDefinition.loopPolicy = some loopPolicy)
    (hfield : loopPolicy.iterationStateField = field) (hcap : resolveAnalysisCap field policy = .ok cap)
    (hopen : state.getLoopIteration field < cap) : skipIfExhausted state phase policy = .ok none := by
  subst hfield
  have hnot : ¬ (cap : Int) ≤ state.getLoopIteration loopPolicy.iterationStateField := by omega
  simp only [skipIfExhausted, hloop, hcap, bind, Except.bind, shouldSkipAnalysisReentry,
    AnalysisLoopCounter.shouldSkipReentry, decide_eq_true_eq, if_neg hnot]

theorem exhaustedAnalysisBypassFrom_stop {target : String}
    {visited : List String} (hnew : target ∉ visited) (hskip : skipIfExhausted state target policy = .ok none)
    (fuel : Nat) (skipped : List ExhaustedAnalysisSkip) :
    exhaustedAnalysisBypassFrom policy (fuel + 1) state target skipped visited = .ok ⟨state, target, skipped⟩ := by
  rw [exhaustedAnalysisBypassFrom, if_neg hnew, hskip]
  rfl

theorem exhaustedAnalysisBypassFrom_skip {next : PipelineState} {target : String}
    {visited : List String} {skip : ExhaustedAnalysisSkip} (hnew : target ∉ visited)
    (hskip : skipIfExhausted state target policy = .ok (some (skip, next))) (fuel : Nat)
    (skipped : List ExhaustedAnalysisSkip) : exhaustedAnalysisBypassFrom policy (fuel + 1) state target skipped visited =
      exhaustedAnalysisBypassFrom policy fuel next skip.targetPhase (skipped ++ [skip]) (target :: visited) := by
  rw [exhaustedAnalysisBypassFrom, if_neg hnew, hskip]
  rfl

theorem resolveNextPhase_eq_ok {target : String} {signal : Signal} (h : resolveNextPhase phase signal policy = .ok target) :
    ∃ phaseDef, policy.phases.get? phase = some phaseDef ∧ signal.target phaseDef.transitions = some target := by
  unfold resolveNextPhase at h
  split at h
  · cases h
  · rename_i phaseDef hphase
    split at h
    · cases h
    · split at h
      · cases h
        exact ⟨phaseDef, hphase, ‹_›⟩
      · cases h

theorem resolveNextPhase_success_eq_ok {target : String} (h : resolveNextPhase phase .success policy = .ok target) :
    ∃ phaseDef, policy.phases.get? phase = some phaseDef ∧ phaseDef.transitions.onSuccess = target := by
  obtain ⟨phaseDef, hphase, htarget⟩ := resolveNextPhase_eq_ok h
  exact ⟨phaseDef, hphase, Option.some.inj htarget⟩

theorem skipIfExhausted_eq_some {next : PipelineState}
    {skip : ExhaustedAnalysisSkip} (h : skipIfExhausted state phase policy = .ok (some (skip, next))) :
    ∃ loopPolicy cap, (policy.phases.get? phase).bind PhaseDefinition.loopPolicy = some loopPolicy ∧
      resolveAnalysisCap loopPolicy.iterationStateField policy = .ok cap ∧
      (cap : Int) ≤ state.getLoopIteration loopPolicy.iterationStateField ∧
      resolveNextPhase phase .success policy = .ok skip.targetPhase ∧
      next = skipAnalysis state phase loopPolicy.iterationStateField policy := by
  unfold skipIfExhausted at h
  split at h
  · cases h
  · rename_i loopPolicy hloop
    obtain ⟨cap, hcap, hrest⟩ := (bind_eq_ok_iff _ _ _).mp h
    split at hrest
    · rename_i hspent
      obtain ⟨target, htarget, hresult⟩ := (bind_eq_ok_iff _ _ _).mp hrest
      cases hresult
      exact ⟨loopPolicy, cap, hloop, hcap, of_decide_eq_true hspent, htarget, rfl⟩
    · cases hrest

theorem skipIfExhausted_eq_none (h : skipIfExhausted state phase policy = .ok none) :
    (policy.phases.get? phase).bind PhaseDefinition.loopPolicy = none ∨
      ∃ loopPolicy cap, (policy.phases.get? phase).bind PhaseDefinition.loopPolicy = some loopPolicy ∧
        resolveAnalysisCap loopPolicy.iterationStateField policy = .ok cap ∧
        state.getLoopIteration loopPolicy.iterationStateField < cap := by
  unfold skipIfExhausted at h
  split at h
  · exact .inl ‹_›
  · rename_i loopPolicy hloop
    obtain ⟨cap, hcap, hrest⟩ := (bind_eq_ok_iff _ _ _).mp h
    split at hrest
    · obtain ⟨target, _, hresult⟩ := (bind_eq_ok_iff _ _ _).mp hrest
      cases hresult
    · rename_i hopen
      refine .inr ⟨loopPolicy, cap, hloop, hcap, ?_⟩
      simp only [shouldSkipAnalysisReentry, AnalysisLoopCounter.shouldSkipReentry, decide_eq_true_eq] at hopen
      omega

theorem exhaustedAnalysisBypassFrom_invariant (Inv : PipelineState → String → List ExhaustedAnalysisSkip → Prop)
    (hstep : ∀ state target skipped skip next, Inv state target skipped →
      skipIfExhausted state target policy = .ok (some (skip, next)) → Inv next skip.targetPhase (skipped ++ [skip]))
    {fuel : Nat} {target : String} {skipped : List ExhaustedAnalysisSkip}
    {visited : List String} {result : ExhaustedAnalysisBypassResult} (hinv : Inv state target skipped)
    (h : exhaustedAnalysisBypassFrom policy fuel state target skipped visited = .ok result) :
    Inv result.state result.targetPhase result.skipped := by
  induction fuel generalizing state target skipped visited with
  | zero =>
    cases h
    exact hinv
  | succ fuel ih =>
    rw [exhaustedAnalysisBypassFrom] at h
    split at h
    · cases h
      exact hinv
    · obtain ⟨skip?, hskip, hrest⟩ := (bind_eq_ok_iff _ _ _).mp h
      cases skip? with
      | none =>
        cases hrest
        exact hinv
      | some pair => exact ih (hstep _ _ _ pair.1 pair.2 hinv hskip) hrest

/-! ## Post-commit routing -/

def trackedCounter (counter : Option String) (policy : PipelinePolicy) : Option String :=
  match counter with
  | none => none
  | some counter =>
    if counter = "" ∨ counter = "none" then none
    else match policy.budgetCounters.get? counter with
      | some config => if config.tracksBudget then some counter else none
      | none => none

def firstNonEmpty (a b : Option String) : Option String :=
  match a with
  | some name => if name = "" then b else some name
  | none => b

def budgetCounterForPhase (phase : String) (policy : PipelinePolicy) : Option String :=
  match policy.lifecyclePhases.get? phase with
  | some lifecycle => trackedCounter lifecycle.incrementsCounter policy
  | none =>
    match (policy.phases.get? phase).bind PhaseDefinition.commitPolicy with
    | none => none
    | some commitPolicy =>
      trackedCounter (firstNonEmpty commitPolicy.routeCounter commitPolicy.incrementsCounter) policy

def commitClosesACycle (phase : String) (policy : PipelinePolicy) : Bool := (budgetCounterForPhase phase policy).isSome

/-- `none` when no tracked counter governs the phase. -/
def computeBudgetState (state : PipelineState) (policy : PipelinePolicy) : Option BudgetLabel :=
  match budgetCounterForPhase state.phase policy with
  | none => none
  | some counter =>
    if 0 < state.getBudgetRemaining counter then some .remaining
    else if policy.budgetCounters.entries.any fun (otherName, otherConfig) =>
        otherName != counter && otherConfig.tracksBudget && decide (0 < state.getBudgetRemaining otherName) then
      some .exhausted
    else some .noReview

def candidateCycleOutcomes (state : PipelineState) : List (Option CycleOutcome) :=
  match state.pendingCycleOutcome with
  | some outcome => [some outcome]
  | none => [none, some forwardOutcome]

def outcomeMatches (route : PostCommitRoute) (outcome : Option CycleOutcome) : Bool :=
  route.when.cycleOutcome == none || route.when.cycleOutcome == outcome

def matchingRoute (policy : PipelinePolicy) (phase : String) (label : BudgetLabel) (outcome : Option CycleOutcome) : Option PostCommitRoute :=
  policy.postCommitRoutes.find? fun route =>
    route.when.phase == phase && route.when.budgetState == label && outcomeMatches route outcome

def declaredPostCommitRoute (state : PipelineState) (policy : PipelinePolicy) : Option PostCommitRoute :=
  if phaseHasRole policy state.phase .commit then
    match computeBudgetState state policy with
    | some label => (candidateCycleOutcomes state).findSome? (matchingRoute policy state.phase label)
    | none => none
  else none

def resolvePostCommitPhase (state : PipelineState) (policy : PipelinePolicy) : Except PyError String :=
  match state.postCommitPhaseOverride with
  | some target =>
    if policy.known target then .ok target
    else .error (.valueError s!"Post-commit override references unknown phase '{target}'")
  | none =>
    match declaredPostCommitRoute state policy with
    | some route => .ok route.target
    | none => resolveNextPhase state.phase .success policy

end RalphWorkflow.Pipeline
