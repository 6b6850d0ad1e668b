import RalphWorkflow.Proof.Accounts.Edits
import RalphWorkflow.Proof.Controller.Course

/-! Where a failure takes the run when it leaves the phase: to finalization past the deadline, to the phase's fallback, or
to the failure phase. -/
namespace RalphWorkflow.WaysOut
open Lib Policy Recovery Movement Accounts
open Controller Pipeline Pipeline.Reducer

section

variable {policy : PipelinePolicy} {timing : Option RoutingTiming} {s s' : PipelineState} {effects : List Effect}

theorem redirect_lands {expired : Handled} (hexpired : redirectExpiredCycleInPlace s policy timing = some expired)
    (h : expired = .ok (s', effects)) :
    ∃ ct, policy.cycleTimebox = some ct ∧ Lands policy ct.finalizationTarget s'.phase := by
  unfold redirectExpiredCycleInPlace at hexpired
  dsimp only at hexpired
  split at hexpired
  · rename_i hredirected
    cases hexpired
    obtain ⟨prepared, landed, hprepare, rfl⟩ := advancePhase_eq_ok h
    have hlands := (@preparePhaseAdvance_edits _ none s (.pipeline .checkpointSaved) _ _ _ _ _
      hprepare).2
    rcases applyCycleTimebox_cases s s.phase policy timing with hsame | ⟨ct, time, hct, _, hcases⟩
    · rw [hsame] at hredirected
      cases hredirected
    · rcases hcases with ⟨_, _, heq⟩ | ⟨_, _, _, heq⟩ | ⟨_, _, _, heq⟩
      · rw [heq] at hredirected
        cases hredirected
      · rw [heq] at hredirected
        cases hredirected
      · rw [heq] at hlands
        exact ⟨ct, hct, hlands⟩
  · cases hexpired

theorem fallback_lands {fallback : PhaseWorkflowFallback} {lastError : Option String}
    (h : takeWorkflowFallback s fallback lastError policy timing = .ok (s', effects)) :
    Lands policy fallback.target s'.phase := by
  obtain ⟨⟨prepared, landed⟩, hprepare, hrest⟩ := (bind_eq_ok_iff _ _ _).mp h
  obtain ⟨charged, hcharge, hresult⟩ := (bind_eq_ok_iff _ _ _).mp hrest
  cases hresult
  have hlands := (@preparePhaseAdvance_edits _ none s (.pipeline .checkpointSaved) _ _ _ _ _
    hprepare).2
  rw [(chargeExecutionCycle_books hcharge).phase]
  exact hlands

theorem failedRecovery_phase {reason : String} (h : enterFailedRecovery s reason policy = .ok (s', effects)) :
    s'.phase = policy.recovery.failedRoute := by
  obtain ⟨charged, hcharge, hresult⟩ := (bind_eq_ok_iff _ _ _).mp h
  cases hresult
  exact (chargeExecutionCycle_books hcharge).phase

theorem restoring_eq_ok {handled : Handled} (h : restoring s handled = .ok (s', effects)) :
    ∃ t, handled = .ok (t, effects) ∧ s' = s.restoreWorkUnits t := by
  obtain ⟨⟨t, effects'⟩, hhandled, hrestored⟩ := (bind_eq_ok_iff _ _ _).mp h
  cases hrestored
  exact ⟨t, hhandled, rfl⟩

theorem restoreWorkUnits_seat (t t' : PipelineState) :
    (t.restoreWorkUnits t').phase = t'.phase ∧ (t.restoreWorkUnits t').phaseChains = t'.phaseChains := by
  unfold PipelineState.restoreWorkUnits
  split <;> exact ⟨rfl, rfl⟩

theorem recoverThroughController_eq_ok {rc : RecoveryController} {raw : RawFailure} {context : FailureContext}
    (h : (recoverThroughController s raw context policy rc).result = .ok (s', effects)) :
    ∃ t, (rc.handle s raw context).result = .ok (t, effects) ∧ s'.phase = t.phase ∧ s'.phaseChains = t.phaseChains := by
  obtain ⟨⟨t, effects'⟩, hhandled, hrest⟩ := (bind_eq_ok_iff _ _ _).mp h
  obtain ⟨charged, hcharge, hresult⟩ := (bind_eq_ok_iff _ _ _).mp hrest
  cases hresult
  obtain ⟨hphase, hchains⟩ := restoreWorkUnits_seat s charged
  unfold chargeIfLeft at hcharge
  split at hcharge
  · cases hcharge
    exact ⟨t, hhandled, hphase, hchains⟩
  · have hbooks := chargeExecutionCycle_books hcharge
    exact ⟨t, hhandled, hphase.trans hbooks.phase, hchains.trans hbooks.chains⟩

end

section

variable {rc : RecoveryController} {s s' : PipelineState} {phase : String} {c : Course}

theorem kept_phase (h : Kept s s') : s'.phase = s.phase := (sameClock_of_forget h.same).phase

theorem givenUp_phase (h : GivenUp rc s s') : ∃ bundle, rc.policyBundle = some bundle ∧ s'.phase = bundle.pipeline.recovery.failedRoute := by
  obtain ⟨bundle, hbundle, hentered⟩ := h.entered
  exact ⟨bundle, hbundle, (sameClock_of_forget hentered).phase⟩

end

def gaveUp : Course → Bool
  | .fails | .exhausts => true
  | _ => false

theorem ensues_gaveUp {rc : RecoveryController} {s s' : PipelineState} {phase : String} {c : Course}
    (h : Ensues rc s phase c s') (hgave : gaveUp c = true) : GivenUp rc s s' := by
  cases h with
  | fails givenUp count => exact givenUp
  | exhausts givenUp count => exact givenUp
  | _ => cases hgave

theorem ensues_kept {rc : RecoveryController} {s s' : PipelineState} {phase : String} {c : Course}
    (h : Ensues rc s phase c s') (hgave : gaveUp c = false) : Kept s s' := by
  cases h with
  | untracked kept chains => exact kept
  | retries kept tracked chains => exact kept
  | fallsOver kept tracked other valid chains => exact kept
  | waits kept chains waiting => exact kept
  | _ => cases hgave

end RalphWorkflow.WaysOut
