import RalphWorkflow.Proof.Movement.Controller

/-! Every event but completion moves a run in one of the ways of `Moves`. -/
namespace RalphWorkflow.Movement
open Lib Policy Recovery
open Pipeline Pipeline.Reducer

section

variable {policy : PipelinePolicy} {timing : Option RoutingTiming}

theorem movesTo_throughController {rc : RecoveryController} {s : PipelineState} {raw : RawFailure}
    {context : FailureContext} (hrc : ServesPolicy policy rc) (hroom : HasRoom policy timing s) :
    MovesTo policy timing s (recoverThroughController s raw context policy rc).result := by
  intro s' effects hok
  obtain ⟨⟨s₁, effects₁⟩, hhandle, hrest⟩ := (bind_eq_ok_iff _ _ _).mp hok
  have hmoves := (handle_regains hrc s₁ effects₁ hhandle).moves hroom
  obtain ⟨charged, hcharge, hresult⟩ := (bind_eq_ok_iff _ _ _).mp hrest
  cases hresult
  have hcharged : Tallies s₁ charged := by
    unfold chargeIfLeft at hcharge
    split at hcharge
    · cases hcharge
      exact Tallies.refl s₁
    · exact chargeExecutionCycle_books hcharge
  exact hmoves.then_books (hcharged.trans (restoreWorkUnits_books s charged))

variable {recovery : Option RecoveryController}

theorem movesTo_phaseFailure (s : PipelineState) (event : PhaseFailureEvent) (hrc : ∀ rc, recovery = some rc → ServesPolicy policy rc) :
    MovesTo policy timing s (reducePhaseFailure s event policy recovery timing).result := by
  unfold reducePhaseFailure
  cases recovery with
  | none => exact (movesOn_handlePhaseFailure s event).movesTo
  | some rc =>
    dsimp only
    rcases redirect_cases s with ⟨expired, hexpired, hmoves⟩ | ⟨hnone, hroom⟩
    · rw [hexpired]
      exact hmoves.movesTo
    · rw [hnone]
      exact movesTo_throughController (hrc rc rfl) hroom

theorem movesTo_reduceAgentFailure (s : PipelineState) (hrc : ∀ rc, recovery = some rc → ServesPolicy policy rc) :
    MovesTo policy timing s (reduceAgentFailure s policy recovery timing).result := by
  unfold reduceAgentFailure
  refine movesTo_restoring ?_
  cases recovery with
  | none => exact (movesOn_agentFailure s none).movesTo
  | some rc =>
    dsimp only
    have hplain := (@movesOn_agentFailure policy timing s (some rc)).movesTo
    unfold reduceCapturedAgentFailure
    split
    · exact hplain
    · rcases redirect_cases s with
        ⟨expired, hexpired, hmoves⟩ | ⟨hnone, hroom⟩
      · rw [hexpired]
        exact hmoves.movesTo
      · rw [hnone]
        dsimp only
        cases capturedFailure s.agentRetryIntent _ with
        | none => exact hplain
        | some exc => exact movesTo_throughController (hrc rc rfl) hroom

theorem movesTo_workerFailed (s : PipelineState) (unitId : String) (exitCode : Int) (error : String) (hrc : ∀ rc, recovery = some rc → ServesPolicy policy rc) :
    MovesTo policy timing s (dispatchWorkerFailed s unitId exitCode error policy recovery timing).result := by
  unfold dispatchWorkerFailed
  rcases redirect_cases s with ⟨expired, hexpired, hmoves⟩ | ⟨hnone, hroom⟩
  · rw [hexpired]
    exact hmoves.movesTo
  · rw [hnone]
    cases recovery with
    | none =>
      apply movesTo_ok
      exact .stays ((updateWorker_books s unitId _).trans (restoreWorkUnits_books s _))
    | some rc =>
      intro s' effects hok
      obtain ⟨⟨s₁, effects₁⟩, hhandle, hrest⟩ := (bind_eq_ok_iff _ _ _).mp hok
      have hmoves := (handle_regains (hrc rc rfl) s₁ effects₁ hhandle).moves hroom
      dsimp only at hrest
      split at hrest
      · cases hrest
      · cases hrest
        refine hmoves.then_books (Tallies.trans ?_ (restoreWorkUnits_books s _))
        exact ⟨⟨⟨rfl, rfl, rfl⟩, rfl⟩, rfl⟩

theorem movesOn_pipelineEvent (s : PipelineState) {event : PipelineEvent} (hevent : event ≠ .complete) :
    MovesOn policy timing s (handlePipelineEvent s event policy timing) := by
  unfold handlePipelineEvent
  cases event with
  | agentSuccess => exact movesOn_agentSuccess s
  | agentFailure => exact movesOn_agentFailure s none
  | agentRetry => exact movesOn_agentRetry s
  | analysisSuccess => exact movesOn_analysisSuccess s
  | analysisLoopback => exact movesOn_analysisLoopback s
  | phaseLoopback => exact movesOn_phaseLoopback s
  | reviewClean => exact movesOn_reviewClean s
  | reviewIssuesFound => exact movesOn_reviewIssuesFound s
  | fixSuccess => exact movesOn_resolveOrTerminal s _ _
  | fixFailure => exact movesOn_fixFailure s
  | commitSuccess => exact movesOn_commitOutcome s false _
  | commitSkipped => exact movesOn_commitOutcome s true _
  | commitResidual => exact movesOn_advance s _
  | commitFailure => exact movesOn_failedRecovery s _
  | complete => exact absurd rfl hevent
  | failed => exact movesOn_failedRecovery s _
  | phaseAdvance => exact movesOn_resolveOrTerminal s _ _
  | allWorkersComplete => exact movesOn_allWorkersComplete s
  | fanOutStarted =>
    refine movesOn_ok ?_ rfl
    unfold handleFanOutStarted
    split
    · exact .stays (Tallies.refl s)
    · exact .stays ⟨⟨⟨rfl, rfl, rfl⟩, rfl⟩, rfl⟩
  | _ =>
    refine movesOn_ok ?_ rfl
    exact .stays ⟨⟨⟨rfl, rfl, rfl⟩, rfl⟩, rfl⟩

theorem reduce_moves {s : PipelineState} {event : Event}
    (hrc : ∀ rc, recovery = some rc → ServesPolicy policy rc) (hevent : event ≠ .pipeline .complete) :
    MovesTo policy timing s (reduce s event policy recovery timing).result := by
  cases event with
  | postFanoutVerification success exitCode error => exact (movesOn_postFanoutVerification s success exitCode error).movesTo
  | phaseFailure event => exact movesTo_phaseFailure s event hrc
  | analysisDecision phase decision => exact (movesOn_analysisDecision s phase decision).movesTo
  | executionResult phase status => exact (movesOn_executionResult s phase status).movesTo
  | workerStarted unitId =>
    apply movesTo_ok
    exact .stays ((updateWorker_books s unitId _).trans (restoreWorkUnits_books s _))
  | workerCompleted unitId exitCode =>
    apply movesTo_ok
    exact .stays ((updateWorker_books s unitId _).trans (restoreWorkUnits_books s _))
  | workerFailed unitId exitCode error => exact movesTo_workerFailed s unitId exitCode error hrc
  | pipeline event =>
    cases event with
    | agentFailure => exact movesTo_reduceAgentFailure s hrc
    | complete => exact absurd rfl hevent
    | _ => exact movesTo_restoring (movesOn_pipelineEvent s (by decide)).movesTo

theorem reduce_complete {s s' : PipelineState} {effects : List Effect}
    (h : (reduce s (.pipeline .complete) policy recovery timing).result = .ok (s', effects)) :
    s'.phase = policy.terminalPhase ∧ s'.cycleTimeboxActive = s.cycleTimeboxActive := by
  obtain ⟨⟨s₁, effects₁⟩, hcomplete, hresult⟩ := (bind_eq_ok_iff _ _ _).mp h
  cases hcomplete
  cases hresult
  have hbooks := restoreWorkUnits_books s (Pipeline.advancePhase s policy.terminalPhase policy)
  exact ⟨hbooks.phase, hbooks.active⟩

end

end RalphWorkflow.Movement
