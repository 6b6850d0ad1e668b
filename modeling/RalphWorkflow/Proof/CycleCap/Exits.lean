import RalphWorkflow.Proof.Movement.Controller

/-! Only the recovery controller asks the run to exit, and it does so exactly when it gives a phase up, or is asked
again, with the cycle cap reached. No handler of the reducer adds an exit of its own. -/
namespace RalphWorkflow.CycleCap
open Lib Policy Recovery Movement RecoveryController
open Pipeline Pipeline.Reducer

def exits (effects : List Effect) : Bool := effects.any Effect.isExitFailure

/-! ## The controller -/

def givesUp (rc : RecoveryController) (state : PipelineState) (phase : String) (agent : Option String)
    (maxRetries : Nat) (useBudget : Bool) : Bool :=
  match state.chainForPhase phase with
  | none => false
  | some chain =>
    match rc.selectAgent phase chain (handleRetryProgression.firstAgent agent chain) maxRetries useBudget with
    | (some _, _) => false
    | (none, selected) => (selected.anyAgentAvailable phase chain.agents).1

def failureOf (rc : RecoveryController) (state : PipelineState) (raw : RawFailure) (context : FailureContext) : ClassifiedFailure :=
  context.classifiedFailure.getD (rc.classify raw context.phase context.agent state.lastConnectivityState)

/-- The failure brings the controller to its cap, unless the same-shape bound comes first. -/
def reachesCap (rc : RecoveryController) (state : PipelineState) (raw : RawFailure) (context : FailureContext) : Bool :=
  let failure := failureOf rc state raw context
  let count := state.recoveryCycleCount
  if isTechnical failure.category then
    givesUp rc state context.phase context.agent rc.technicalRetryCap false && rc.cap.isExceeded (count + 1)
  else if failure.category = .userConfig then false
  else match (rc.chargeAgent failure context).sameShapeBound state failure context (state.chainForPhase context.phase) with
    | (some _, _) => false
    | (none, charged) =>
      rc.cap.isExceeded (count +
        (givesUp charged state context.phase context.agent (charged.getMaxRetriesForChain context.phase) true).toNat)

theorem SameSetup.cap {rc rc' : RecoveryController} (h : SameSetup rc rc') : rc'.cap = rc.cap := (Prod.mk.inj h).2

section

variable {rc : RecoveryController} {s s' : PipelineState} {effects : List Effect} {failure : ClassifiedFailure}

theorem capExit_exits (h : rc.capExit s failure = .ok (s', effects)) : exits effects = true ∧ s'.recoveryCycleCount = s.recoveryCycleCount := by
  unfold capExit at h
  obtain ⟨exit, hexit, hresult⟩ := (bind_eq_ok_iff _ _ _).mp h
  cases hresult
  unfold exitFailureEffect at hexit
  split at hexit
  · cases hexit
    exact ⟨rfl, rfl⟩
  · split at hexit <;> cases hexit

theorem exhaustChain_setup (rc : RecoveryController) (s : PipelineState) (failure : ClassifiedFailure) :
    SameSetup rc (rc.exhaustChain s failure).controller := by
  have hfailed : ∀ t : PipelineState, SameSetup rc (rc.enterPhaseFailed t failure.reason failure.category).1 := by
    intro t
    unfold enterPhaseFailed
    split <;> rfl
  unfold exhaustChain
  dsimp only
  split
  · rename_i heq
    have hsetup := hfailed { s with recoveryCycleCount := s.recoveryCycleCount + 1 }
    rw [heq] at hsetup
    exact hsetup
  · rename_i heq
    have hsetup := hfailed { s with recoveryCycleCount := s.recoveryCycleCount + 1 }
    rw [heq] at hsetup
    split <;> exact hsetup

theorem exhaustChain_exits (h : (rc.exhaustChain s failure).result = .ok (s', effects)) :
    exits effects = rc.cap.isExceeded (s.recoveryCycleCount + 1) ∧
      s'.recoveryCycleCount = s.recoveryCycleCount + 1 := by
  unfold exhaustChain enterPhaseFailed at h
  cases hbundle : rc.policyBundle with
  | none =>
    rw [hbundle] at h
    cases h
  | some bundle =>
    rw [hbundle] at h
    dsimp only at h
    split at h
    · rename_i hcap
      obtain ⟨hexits, hcount⟩ := capExit_exits h
      exact ⟨hexits.trans hcap.symm, hcount⟩
    · rename_i hcap
      cases h
      exact ⟨(Bool.eq_false_iff.mpr hcap).symm, rfl⟩

theorem applyWait_setup (rc : RecoveryController) (s : PipelineState) (phase : String) (chain : AgentChainState)
    (failure : ClassifiedFailure) : SameSetup rc (rc.applyWait s phase chain failure).controller := by
  have hany := anyAgentAvailable_setup rc phase chain.agents
  unfold applyWait earliestAvailableWaitMs
  dsimp only
  split <;> exact hany

theorem retryProgression_setup (rc : RecoveryController) (s : PipelineState) (failure : ClassifiedFailure)
    (phase : String) (agent : Option String) (inSession : Bool) (maxRetries : Nat) (useBudget : Bool) :
    SameSetup rc (rc.handleRetryProgression s failure phase agent inSession maxRetries useBudget).controller := by
  unfold handleRetryProgression
  split
  · rfl
  · rename_i chain _
    dsimp only
    have hselect := selectAgent_setup rc phase chain
      (handleRetryProgression.firstAgent agent chain) maxRetries useBudget
    split
    · rename_i heq
      rw [heq] at hselect
      split
      · exact hselect
      · split <;> exact hselect
    · rename_i rc₁ heq
      rw [heq] at hselect
      have hany := Eq.trans (anyAgentAvailable_setup rc₁ phase chain.agents) hselect
      split
      · exact Eq.trans (exhaustChain_setup _ s failure) hany
      · exact Eq.trans (applyWait_setup _ s phase chain failure) hany

theorem applyChainRetry_count (s : PipelineState) (phase : String) (chain : AgentChainState) (inSession : Bool) :
    (applyChainRetry s phase chain inSession).recoveryCycleCount = s.recoveryCycleCount := by
  unfold applyChainRetry
  dsimp only
  split
  · split <;> rfl
  · rfl

theorem retryProgression_exits {phase : String} {agent : Option String} {inSession : Bool} {maxRetries : Nat} {useBudget : Bool}
    (h : (rc.handleRetryProgression s failure phase agent inSession maxRetries useBudget).result = .ok (s', effects)) :
    exits effects = (givesUp rc s phase agent maxRetries useBudget && rc.cap.isExceeded (s.recoveryCycleCount + 1)) ∧
      s'.recoveryCycleCount = s.recoveryCycleCount + (givesUp rc s phase agent maxRetries useBudget).toNat := by
  unfold handleRetryProgression at h
  unfold givesUp
  cases hchain : s.chainForPhase phase with
  | none =>
    rw [hchain] at h
    cases h
    exact ⟨rfl, rfl⟩
  | some chain =>
    rw [hchain] at h
    dsimp only at h ⊢
    have hselect := selectAgent_setup rc phase chain
      (handleRetryProgression.firstAgent agent chain) maxRetries useBudget
    generalize rc.selectAgent phase chain (handleRetryProgression.firstAgent agent chain) maxRetries
      useBudget = selected at h hselect ⊢
    obtain ⟨selection, rc₁⟩ := selected
    cases selection with
    | some index =>
      dsimp only at h hselect ⊢
      split at h
      · cases h
        exact ⟨rfl, applyChainRetry_count s phase chain inSession⟩
      · split at h
        · cases h
          exact ⟨rfl, rfl⟩
        · cases h
    | none =>
      dsimp only at h hselect ⊢
      have hany := Eq.trans (anyAgentAvailable_setup rc₁ phase chain.agents) hselect
      cases havailable : (rc₁.anyAgentAvailable phase chain.agents).1 with
      | false =>
        rw [havailable] at h
        cases h
        exact ⟨rfl, rfl⟩
      | true =>
        rw [havailable, if_pos rfl] at h
        obtain ⟨hexits, hcount⟩ := exhaustChain_exits h
        refine ⟨?_, hcount⟩
        rw [hexits, SameSetup.cap hany]
        rfl

theorem failPhase_exits {reason : String} {category : FailureCategory}
    (h : (rc.failPhase s reason category).result = .ok (s', effects)) : exits effects = false := by
  unfold failPhase at h
  split at h
  · cases h
  · cases h
    rfl

theorem enforceCap_exits {outcome : RecoveryController.Outcome} {count : Nat} {progressed : Bool}
    (hexits : ∀ s₁ effects₁, outcome.result = .ok (s₁, effects₁) →
      exits effects₁ = (progressed && outcome.controller.cap.isExceeded (count + 1)) ∧
        s₁.recoveryCycleCount = count + progressed.toNat)
    (h : (enforceCap outcome failure).result = .ok (s', effects)) :
    exits effects = outcome.controller.cap.isExceeded (count + progressed.toNat) := by
  unfold enforceCap at h
  split at h
  · rename_i e herror
    rw [herror] at h
    cases h
  · rename_i s₁ effects₁ hresult
    obtain ⟨hfirst, hcount⟩ := hexits s₁ effects₁ hresult
    split at h
    · rename_i hcap
      rw [hcount] at hcap
      rw [(capExit_exits h).1, hcap]
    · rename_i hcap
      rw [hcount] at hcap
      rw [hresult] at h
      cases h
      rw [hfirst]
      cases progressed with
      | false => exact (Bool.eq_false_iff.mpr hcap).symm
      | true => rfl

theorem givesUp_congr {t : PipelineState} (hchains : t.phaseChains = s.phaseChains) (phase : String)
    (agent : Option String) (maxRetries : Nat) (useBudget : Bool) :
    givesUp rc t phase agent maxRetries useBudget = givesUp rc s phase agent maxRetries useBudget := by
  unfold givesUp PipelineState.chainForPhase
  rw [hchains]

theorem noteSession_books (noted : PipelineState) (context : FailureContext) :
    let session := noteSession (noteUnavailability noted failure context) failure
      context.retryInSession
    session.phaseChains = noted.phaseChains ∧ session.recoveryCycleCount = noted.recoveryCycleCount := by
  have hunavailable : (noteUnavailability noted failure context).phaseChains = noted.phaseChains ∧
      (noteUnavailability noted failure context).recoveryCycleCount = noted.recoveryCycleCount := by
    unfold noteUnavailability
    split <;> exact ⟨rfl, rfl⟩
  unfold noteSession
  dsimp only
  split
  · exact hunavailable
  · split
    · split <;> exact hunavailable
    · exact hunavailable

theorem agentFailure_exits {noted : PipelineState} {context : FailureContext} {chain : Option AgentChainState}
    (hchains : noted.phaseChains = s.phaseChains) (hcount : noted.recoveryCycleCount = s.recoveryCycleCount)
    (h : (rc.handleAgentFailure s noted failure context chain).result = .ok (s', effects)) :
    exits effects =
      match (rc.chargeAgent failure context).sameShapeBound s failure context chain with
      | (some _, _) => false
      | (none, charged) =>
        rc.cap.isExceeded (s.recoveryCycleCount +
          (givesUp charged s context.phase context.agent (charged.getMaxRetriesForChain context.phase) true).toNat) := by
  obtain ⟨hsessionChains, hsessionCount⟩ := @noteSession_books failure noted context
  have hsetup := Eq.trans (sameShapeBound_setup (rc.chargeAgent failure context) s failure context chain)
    (chargeAgent_setup rc failure context)
  unfold RecoveryController.handleAgentFailure at h
  dsimp only at h
  generalize (rc.chargeAgent failure context).sameShapeBound s failure context chain = bound at h hsetup ⊢
  obtain ⟨text, charged⟩ := bound
  cases text with
  | some text => exact failPhase_exits h
  | none =>
    dsimp only at h hsetup ⊢
    have hexits := @enforceCap_exits _ _ _ _ s.recoveryCycleCount (givesUp charged s context.phase context.agent (charged.getMaxRetriesForChain context.phase) true)
      ?_ h
    · rw [hexits, SameSetup.cap (retryProgression_setup ..), SameSetup.cap hsetup]
    · intro s₁ effects₁ hresult
      have hprogress := retryProgression_exits hresult
      rw [givesUp_congr (hsessionChains.trans hchains), hsessionCount.trans hcount] at hprogress
      rw [SameSetup.cap (retryProgression_setup ..)]
      exact hprogress

theorem handle_exits {raw : RawFailure} {context : FailureContext}
    (h : (rc.handle s raw context).result = .ok (s', effects)) : exits effects = reachesCap rc s raw context := by
  unfold handle at h
  unfold reachesCap failureOf
  dsimp only at h ⊢
  generalize context.classifiedFailure.getD (rc.classify raw context.phase context.agent s.lastConnectivityState) =
    failure at h ⊢
  split at h
  · rename_i htechnical
    rw [if_pos htechnical]
    exact (retryProgression_exits h).1
  · rename_i htechnical
    rw [if_neg htechnical]
    split at h
    · rename_i hconfig
      rw [if_pos hconfig]
      exact failPhase_exits h
    · rename_i hconfig
      rw [if_neg hconfig]
      refine agentFailure_exits ?_ ?_ h
      · rfl
      · rfl

end

end RalphWorkflow.CycleCap
