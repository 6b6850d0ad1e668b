import RalphWorkflow.Pipeline.CycleTiming

/-! The transition seam of `ralph/pipeline/reducer.py`: every ordinary route goes through `preparePhaseAdvance`, which
asks the deadline, skips exhausted analysis phases and ends the cycle when the run leaves it. Routing log lines
are left out. -/
namespace RalphWorkflow.Pipeline.Reducer
open Lib Lib.Text Policy Recovery

abbrev Handled := Except PyError (PipelineState × List Effect)

/-- `state.last_error` when it says something, else `fallback`. -/
def failureReason (state : PipelineState) (fallback : String) : String :=
  match state.lastError with
  | some text => if text = "" then fallback else text
  | none => fallback

/-! ## Advancing -/

/-- Resolve a bypass against the timer: the timebox was applied to a target that the bypass rewrote. -/
def withBypassedCycleTiming (bypass : ExhaustedAnalysisBypassResult) (policy : PipelinePolicy)
    (routingTiming : Option RoutingTiming) (timerJustStarted : Bool) : PipelineState × String :=
  if bypass.skipped.isEmpty || timerJustStarted then (bypass.state, bypass.targetPhase)
  else
    let timebox := applyCycleTimebox bypass.state bypass.targetPhase policy routingTiming
    (startCycleForBypassedStartSource timebox.state timebox.targetPhase
      (bypass.skipped.map ExhaustedAnalysisSkip.phase) policy, timebox.targetPhase)

def concludedIfLeavingCycle (resolved : PipelineState × String) (policy : PipelinePolicy) : PipelineState × String :=
  (concludeCycleOnRouteOutOfCycle resolved.1 resolved.2 policy, resolved.2)

def ownBypass (state : PipelineState) (targetPhase : String) (policy : PipelinePolicy) : Except PyError (Option ExhaustedAnalysisBypassResult) :=
  if phaseHasRole policy state.phase .analysis then
    match resolveNextPhase state.phase .success policy with
    | .error _ => .ok none
    | .ok successTarget =>
      if successTarget = targetPhase then do
        let bypass ← resolveExhaustedAnalysisBypass state state.phase policy
        .ok (if bypass.skipped.isEmpty then none else some bypass)
      else .ok none
  else .ok none

theorem ownBypass_eq_some_iff {state : PipelineState} {targetPhase : String} {policy : PipelinePolicy} {bypass : ExhaustedAnalysisBypassResult} :
    ownBypass state targetPhase policy = .ok (some bypass) ↔
      phaseHasRole policy state.phase .analysis = true ∧
        resolveNextPhase state.phase .success policy = .ok targetPhase ∧
        resolveExhaustedAnalysisBypass state state.phase policy = .ok bypass ∧ bypass.skipped ≠ [] := by
  unfold ownBypass
  constructor
  · intro h
    split at h
    · rename_i hrole
      split at h
      · cases h
      · rename_i successTarget hsuccess
        split at h
        · rename_i htarget
          obtain ⟨own, hown, hresult⟩ := (bind_eq_ok_iff _ _ _).mp h
          split at hresult
          · cases hresult
          · rename_i hskipped
            cases hresult
            exact ⟨hrole, by rw [hsuccess, htarget], hown, fun hnil => hskipped (by rw [hnil]; rfl)⟩
        · cases h
    · cases h
  · rintro ⟨hrole, hsuccess, hown, hskipped⟩
    rw [if_pos hrole, hsuccess]
    dsimp only
    rw [if_pos rfl, hown]
    dsimp only [bind, Except.bind]
    rw [if_neg (by simpa using hskipped)]

/-- The deadline first, then exhausted analysis phases, then the end of the cycle. -/
def preparePhaseAdvance (state : PipelineState) (targetPhase : String) (policy : PipelinePolicy)
    (routingTiming : Option RoutingTiming) : Except PyError (PipelineState × String) := do
  let timebox := applyCycleTimebox state targetPhase policy routingTiming
  let bypass ← match ← ownBypass timebox.state timebox.targetPhase policy with
    | some bypass => .ok bypass
    | none => resolveExhaustedAnalysisBypass timebox.state timebox.targetPhase policy
  .ok (concludedIfLeavingCycle (withBypassedCycleTiming bypass policy routingTiming timebox.timingStarted) policy)

/-- The bypass of an advance: of the phase the run is in, if that was spent, else of the target. -/
def ResolvesBypass (state : PipelineState) (targetPhase : String) (policy : PipelinePolicy) (bypass : ExhaustedAnalysisBypassResult) : Prop :=
  ownBypass state targetPhase policy = .ok (some bypass) ∨
    ownBypass state targetPhase policy = .ok none ∧ resolveExhaustedAnalysisBypass state targetPhase policy = .ok bypass

theorem preparePhaseAdvance_eq_ok {state prepared : PipelineState} {targetPhase landed : String}
    {policy : PipelinePolicy} {routingTiming : Option RoutingTiming}
    (h : preparePhaseAdvance state targetPhase policy routingTiming = .ok (prepared, landed)) :
    ∃ bypass,
      ResolvesBypass (applyCycleTimebox state targetPhase policy routingTiming).state
        (applyCycleTimebox state targetPhase policy routingTiming).targetPhase policy bypass ∧
      concludedIfLeavingCycle (withBypassedCycleTiming bypass policy routingTiming
        (applyCycleTimebox state targetPhase policy routingTiming).timingStarted) policy = (prepared, landed) := by
  obtain ⟨own, hown, hrest⟩ := (bind_eq_ok_iff _ _ _).mp h
  cases own with
  | some bypass => exact ⟨bypass, .inl hown, Except.ok.inj hrest⟩
  | none =>
    obtain ⟨bypass, hbypass, hresult⟩ := (bind_eq_ok_iff _ _ _).mp hrest
    exact ⟨bypass, .inr ⟨hown, hbypass⟩, Except.ok.inj hresult⟩

def advancePhase (state : PipelineState) (targetPhase : String) (policy : PipelinePolicy) (routingTiming : Option RoutingTiming) : Handled := do
  let (advancedState, advancedTarget) ← preparePhaseAdvance state targetPhase policy routingTiming
  .ok (Pipeline.advancePhase advancedState advancedTarget policy, [])

theorem advancePhase_eq_ok {state newState : PipelineState} {targetPhase : String} {policy : PipelinePolicy}
    {routingTiming : Option RoutingTiming} {effects : List Effect}
    (h : advancePhase state targetPhase policy routingTiming = .ok (newState, effects)) :
    ∃ prepared landed, preparePhaseAdvance state targetPhase policy routingTiming = .ok (prepared, landed) ∧
      newState = Pipeline.advancePhase prepared landed policy := by
  obtain ⟨⟨prepared, landed⟩, hprepare, hresult⟩ := (bind_eq_ok_iff _ _ _).mp h
  cases hresult
  exact ⟨prepared, landed, hprepare, rfl⟩

/-- Route to the failure phase. The cycle timer keeps running. -/
def enterFailedRecovery (state : PipelineState) (reason : String) (policy : PipelinePolicy) : Handled := do
  let failed := { Pipeline.advancePhase state policy.recovery.failedRoute policy with
    lastError := some reason
    recoveryEpoch := state.recoveryEpoch + 1 }
  let charged ← applyExecutionCycleOutcome state failed policy
  .ok (charged, [])

def advanceToFailed (state : PipelineState) (reason : String) (policy : PipelinePolicy) : Handled :=
  enterFailedRecovery state reason policy

/-- Follow the transition of `signal`; a missing transition is a failure. -/
def resolveOrTerminal (state : PipelineState) (signal : Signal) (policy : PipelinePolicy) (label : String)
    (routingTiming : Option RoutingTiming) : Handled :=
  match resolveNextPhase state.phase signal policy with
  | .error (.valueError text) =>
    advanceToFailed state s!"Routing error after {label} in '{state.phase}': {text}" policy
  | .error e => .error e
  | .ok nextPhase => advancePhase state nextPhase policy routingTiming

/-- The advance to finalization when re-running this phase is over budget. -/
def redirectExpiredCycleInPlace (state : PipelineState) (policy : PipelinePolicy) (routingTiming : Option RoutingTiming) : Option Handled :=
  let decision := applyCycleTimebox state state.phase policy routingTiming
  if decision.redirected then some (advancePhase decision.state decision.targetPhase policy routingTiming) else none

def takeWorkflowFallback (state : PipelineState) (fallback : PhaseWorkflowFallback) (lastError : Option String)
    (policy : PipelinePolicy) (routingTiming : Option RoutingTiming) : Handled := do
  let (advancedState, advancedTarget) ← preparePhaseAdvance state fallback.target policy routingTiming
  let entered := { Pipeline.advancePhase advancedState advancedTarget policy with lastError := lastError }
  let charged ← applyExecutionCycleOutcome state entered policy
  .ok (charged, [])

end RalphWorkflow.Pipeline.Reducer
