import RalphWorkflow.Proof.CycleCap.Exits
import RalphWorkflow.Proof.Movement

/-! A reduction asks the run to exit exactly when it hands a failure to the controller that brings it to its cap. In
particular no reduction without a controller does. -/
namespace RalphWorkflow.CycleCap
open Lib Policy Recovery Movement
open Pipeline Pipeline.Reducer

def NoExit (handled : Handled) : Prop := ∀ s' effects, handled = .ok (s', effects) → exits effects = false

section

variable {policy : PipelinePolicy} {timing : Option RoutingTiming}

theorem noExit_ok (s : PipelineState) : NoExit (.ok (s, [])) := by
  intro s' effects h
  cases h
  rfl

theorem noExit_of_moves {s : PipelineState} {handled : Handled} (h : MovesOn policy timing s handled) : NoExit handled :=
  fun s' effects hok => (h s' effects hok).2

variable {s s' : PipelineState} {rc : RecoveryController} {effects : List Effect}

theorem noExit_redirect {expired : Handled} (h : redirectExpiredCycleInPlace s policy timing = some expired) : NoExit expired := by
  rcases redirect_cases s with ⟨moved, hmoved, hmoves⟩ | ⟨hnone, -⟩
  · rw [hmoved] at h
    cases h
    exact noExit_of_moves hmoves
  · rw [hnone] at h
    cases h

theorem noExit_pipelineEvent (s : PipelineState) (event : PipelineEvent) : NoExit (restoring s (handlePipelineEvent s event policy timing)) := by
  by_cases hcomplete : event = .complete
  · rw [hcomplete]
    exact noExit_ok _
  · exact noExit_of_moves (movesOn_restoring s (movesOn_pipelineEvent s hcomplete))

/-! ## The reducer -/

/-- The failure that reducing an event hands to the controller, once the deadline was asked. -/
def controllerFailure (s : PipelineState) (event : Event) (policy : PipelinePolicy) (timing : Option RoutingTiming) :
    Option (RawFailure × FailureContext) :=
  if (redirectExpiredCycleInPlace s policy timing).isSome then none
  else match event with
    | .phaseFailure event =>
      some (.message (reasonOrNote event),
        { phase := event.phase
          agent := s.currentAgent
          retryInSession := event.retryInSession
          classifiedFailure := classifiedFailureForEvent event })
    | .workerFailed unitId exitCode error =>
      some (.message (if error = "" then s!"Worker {unitId} failed: exit code {exitCode}" else error),
        { phase := s.phase, agent := s.currentAgent })
    | .pipeline .agentFailure =>
      (s.agentRetryIntent.failedAgentName.bind (capturedFailure s.agentRetryIntent)).map fun exc =>
        (.exception exc, { phase := s.phase, agent := s.currentAgent })
    | _ => none

def reductionReachesCap (s : PipelineState) (event : Event) (policy : PipelinePolicy)
    (recovery : Option RecoveryController) (timing : Option RoutingTiming) : Bool :=
  match recovery, controllerFailure s event policy timing with
  | some rc, some (raw, context) => reachesCap rc s raw context
  | _, _ => false

theorem throughController_exits {raw : RawFailure} {context : FailureContext}
    (h : (recoverThroughController s raw context policy rc).result = .ok (s', effects)) :
    exits effects = reachesCap rc s raw context := by
  obtain ⟨⟨s₁, effects₁⟩, hhandle, hrest⟩ := (bind_eq_ok_iff _ _ _).mp h
  obtain ⟨charged, _, hresult⟩ := (bind_eq_ok_iff _ _ _).mp hrest
  cases hresult
  exact handle_exits hhandle

theorem workerFailed_exits {unitId error : String} {exitCode : Int} (hroom : redirectExpiredCycleInPlace s policy timing = none)
    (h : (dispatchWorkerFailed s unitId exitCode error policy (some rc) timing).result = .ok (s', effects)) :
    exits effects = reachesCap rc s (.message (if error = "" then s!"Worker {unitId} failed: exit code {exitCode}" else error))
      { phase := s.phase, agent := s.currentAgent } := by
  unfold dispatchWorkerFailed at h
  rw [hroom] at h
  dsimp only at h
  obtain ⟨⟨s₁, effects₁⟩, hhandle, hrest⟩ := (bind_eq_ok_iff _ _ _).mp h
  dsimp only at hrest
  split at hrest
  · cases hrest
  · cases hrest
    exact handle_exits hhandle

theorem noExit_reduce (s : PipelineState) (event : Event) : NoExit (reduce s event policy none timing).result := by
  cases event with
  | postFanoutVerification success exitCode error => exact noExit_of_moves (@movesOn_postFanoutVerification policy none s success exitCode error)
  | phaseFailure event => exact noExit_of_moves (movesOn_handlePhaseFailure s event)
  | analysisDecision phase decision => exact noExit_of_moves (movesOn_analysisDecision s phase decision)
  | executionResult phase status => exact noExit_of_moves (movesOn_executionResult s phase status)
  | workerStarted unitId => exact noExit_ok _
  | workerCompleted unitId exitCode => exact noExit_ok _
  | workerFailed unitId exitCode error =>
    show NoExit (dispatchWorkerFailed s unitId exitCode error policy none timing).result
    unfold dispatchWorkerFailed
    split
    · exact noExit_redirect ‹_›
    · exact noExit_ok _
  | pipeline event =>
    have hresult : (reduce s (.pipeline event) policy none timing).result = restoring s (handlePipelineEvent s event policy timing) := by
      cases event <;> rfl
    rw [hresult]
    exact noExit_pipelineEvent s event

theorem phaseFailure_exits {event : PhaseFailureEvent} (h : (reducePhaseFailure s event policy (some rc) timing).result = .ok (s', effects)) :
    exits effects = reductionReachesCap s (.phaseFailure event) policy (some rc) timing := by
  unfold reducePhaseFailure at h
  unfold reductionReachesCap controllerFailure
  cases hroom : redirectExpiredCycleInPlace s policy timing with
  | some expired =>
    rw [hroom] at h
    exact noExit_redirect hroom s' effects h
  | none =>
    rw [hroom] at h
    exact throughController_exits h

theorem agentFailure_reduction_exits (h : (reduceAgentFailure s policy (some rc) timing).result = .ok (s', effects)) :
    exits effects = reductionReachesCap s (.pipeline .agentFailure) policy (some rc) timing := by
  obtain ⟨⟨s₁, effects₁⟩, hhandled, hresult⟩ := (bind_eq_ok_iff _ _ _).mp h
  cases hresult
  unfold reductionReachesCap controllerFailure
  dsimp only at hhandled
  have hplain := noExit_of_moves (@movesOn_agentFailure policy timing s (some rc))
  unfold reduceCapturedAgentFailure at hhandled
  cases hname : s.agentRetryIntent.failedAgentName with
  | none =>
    rw [hname] at hhandled
    rw [hplain s₁ effects hhandled]
    cases redirectExpiredCycleInPlace s policy timing with
    | some expired => rfl
    | none => rfl
  | some agentName =>
    rw [hname] at hhandled
    dsimp only at hhandled
    cases hroom : redirectExpiredCycleInPlace s policy timing with
    | some expired =>
      rw [hroom] at hhandled
      exact noExit_redirect hroom s₁ effects hhandled
    | none =>
      rw [hroom] at hhandled
      dsimp only at hhandled
      cases hcaptured : capturedFailure s.agentRetryIntent agentName with
      | none =>
        rw [hcaptured] at hhandled
        rw [hplain s₁ effects hhandled]
        simp [hcaptured]
      | some exc =>
        rw [hcaptured] at hhandled
        rw [throughController_exits hhandled]
        simp [hcaptured]

theorem reduce_exits {event : Event} {recovery : Option RecoveryController} (h : (reduce s event policy recovery timing).result = .ok (s', effects)) :
    exits effects = reductionReachesCap s event policy recovery timing := by
  cases recovery with
  | none => exact noExit_reduce s event s' effects h
  | some rc =>
    -- an event that is not handed to the controller
    have hother : NoExit (reduce s event policy (some rc) timing).result → controllerFailure s event policy timing = none →
        exits effects = reductionReachesCap s event policy (some rc) timing := by
      intro hquiet hfailure
      unfold reductionReachesCap
      rw [hfailure]
      exact hquiet s' effects h
    have hunhandled : ∀ failure : Option (RawFailure × FailureContext), failure = none →
        (if (redirectExpiredCycleInPlace s policy timing).isSome then none else failure) = none := by
      intro failure hnone
      split
      · rfl
      · exact hnone
    cases event with
    | postFanoutVerification success exitCode error =>
      exact hother (noExit_of_moves (@movesOn_postFanoutVerification policy none s success exitCode error)) (hunhandled _ rfl)
    | phaseFailure event => exact phaseFailure_exits h
    | analysisDecision phase decision =>
      exact hother (noExit_of_moves (movesOn_analysisDecision s phase decision)) (hunhandled _ rfl)
    | executionResult phase status => exact hother (noExit_of_moves (movesOn_executionResult s phase status)) (hunhandled _ rfl)
    | workerStarted unitId => exact hother (noExit_ok _) (hunhandled _ rfl)
    | workerCompleted unitId exitCode => exact hother (noExit_ok _) (hunhandled _ rfl)
    | workerFailed unitId exitCode error =>
      cases hroom : redirectExpiredCycleInPlace s policy timing with
      | none =>
        unfold reductionReachesCap controllerFailure
        rw [hroom]
        exact workerFailed_exits hroom h
      | some expired =>
        have hredirected : dispatchWorkerFailed s unitId exitCode error policy (some rc) timing = { recovery := some rc, result := expired } := by
          unfold dispatchWorkerFailed
          rw [hroom]
        refine hother ?_ (by unfold controllerFailure; rw [hroom]; rfl)
        show NoExit (dispatchWorkerFailed s unitId exitCode error policy (some rc) timing).result
        rw [hredirected]
        exact noExit_redirect hroom
    | pipeline event =>
      by_cases hfailure : event = .agentFailure
      · subst hfailure
        exact agentFailure_reduction_exits h
      · have hresult : (reduce s (.pipeline event) policy (some rc) timing).result =
            restoring s (handlePipelineEvent s event policy timing) := by
          cases event <;> first | rfl | exact absurd rfl hfailure
        refine hother ?_ ?_
        · rw [hresult]
          exact noExit_pipelineEvent s event
        · refine hunhandled _ ?_
          cases event <;> first | rfl | exact absurd rfl hfailure

end

end RalphWorkflow.CycleCap
