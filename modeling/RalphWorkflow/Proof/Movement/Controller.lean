import RalphWorkflow.Proof.Movement.Handlers

/-! The controller leaves a run in place or gives its phase up, and keeps the policy and the cap it was built with. -/
namespace RalphWorkflow.Movement
open Lib Policy Recovery RecoveryController
open Pipeline Pipeline.Reducer

section

variable {policy : PipelinePolicy} {timing : Option RoutingTiming}

def ServesPolicy (policy : PipelinePolicy) (rc : RecoveryController) : Prop :=
  ∀ bundle, rc.policyBundle = some bundle → bundle.pipeline = policy

/-! ## What the controller changes in a state -/

def forgetRecovery (s : PipelineState) : PipelineState :=
  { s with
    phaseChains := ∅
    recoveryEpoch := 0
    lastError := none
    recoveryCycleCount := 0
    falloverHistory := []
    lastFailureCategory := none
    lastRetryDelayMs := 0
    lastAgentSessionId := none
    agentRetryIntent := clearedAgentRetryIntent
    lastUnavailabilityReason := none
    isWaitingState := false }

/-- The controller leaves the state as it was, or enters the failure phase. -/
def Regains (policy : PipelinePolicy) (s s' : PipelineState) : Prop :=
  forgetRecovery s' = forgetRecovery s ∨
    forgetRecovery s' = forgetRecovery (Pipeline.advancePhase s policy.recovery.failedRoute policy)

theorem forgetRecovery_advancePhase (s : PipelineState) (target : String) : forgetRecovery (Pipeline.advancePhase s target policy) =
      forgetRecovery (Pipeline.advancePhase (forgetRecovery s) target policy) := rfl

variable {s s' : PipelineState} {rc : RecoveryController} {failure : ClassifiedFailure}

theorem Regains.of_same {s₀ : PipelineState} (h : forgetRecovery s₀ = forgetRecovery s) (h' : Regains policy s₀ s') : Regains policy s s' := by
  unfold Regains at *
  rw [forgetRecovery_advancePhase, ← h, ← forgetRecovery_advancePhase]
  exact h'

theorem Regains.then_same {s₁ : PipelineState} (h : Regains policy s s₁) (h' : forgetRecovery s' = forgetRecovery s₁) : Regains policy s s' := by
  unfold Regains
  rw [h']
  exact h

def RegainsTo (policy : PipelinePolicy) (s : PipelineState) (outcome : RecoveryController.Outcome) : Prop :=
  ∀ s' effects, outcome.result = .ok (s', effects) → Regains policy s s'

theorem enterPhaseFailed_regains {rc' : RecoveryController} {reason : String} {category : FailureCategory} (hrc : ServesPolicy policy rc)
    (h : rc.enterPhaseFailed s reason category = (rc', .ok s')) : Regains policy s s' := by
  unfold enterPhaseFailed at h
  split at h
  · cases h
  · rename_i bundle hbundle
    cases h
    rw [← hrc bundle hbundle]
    exact .inr rfl

theorem failPhase_regains {reason : String} {category : FailureCategory} (hrc : ServesPolicy policy rc) :
    RegainsTo policy s (rc.failPhase s reason category) := by
  intro s' effects hok
  unfold failPhase at hok
  split at hok
  · cases hok
  · rename_i hfailed
    cases hok
    exact enterPhaseFailed_regains hrc hfailed

theorem capExit_same {effects : List Effect} (h : rc.capExit s failure = .ok (s', effects)) : forgetRecovery s' = forgetRecovery s := by
  unfold capExit at h
  obtain ⟨exit, _, hresult⟩ := (bind_eq_ok_iff _ _ _).mp h
  cases hresult
  rfl

theorem exhaustChain_regains (hrc : ServesPolicy policy rc) : RegainsTo policy s (rc.exhaustChain s failure) := by
  intro s' effects hok
  unfold exhaustChain at hok
  dsimp only at hok
  split at hok
  · cases hok
  · rename_i rc' failedState hfailed
    have hgiven := enterPhaseFailed_regains hrc hfailed
    have hregains : Regains policy s failedState := by
      refine Regains.of_same ?_ hgiven
      rfl
    split at hok
    · exact hregains.then_same (capExit_same hok)
    · cases hok
      exact hregains

theorem applyChainRetry_same (s : PipelineState) (phase : String) (chain : AgentChainState) (inSession : Bool) :
    forgetRecovery (applyChainRetry s phase chain inSession) = forgetRecovery s := by
  unfold applyChainRetry
  dsimp only
  split
  · split <;> rfl
  · rfl

/-! ## What the controller keeps of itself -/

/-- Reading clocks and noting exhaustion keep what a controller was built with. -/
def SameSetup (rc rc' : RecoveryController) : Prop := (rc'.policyBundle, rc'.cap) = (rc.policyBundle, rc.cap)

theorem ServesPolicy.of_same {rc' : RecoveryController} (h : ServesPolicy policy rc) (h' : SameSetup rc rc') : ServesPolicy policy rc' := by
  intro bundle hbundle
  exact h bundle (by rw [← (Prod.mk.inj h').1, hbundle])

theorem isAgentAvailable_setup (rc : RecoveryController) (phase agent : String) : SameSetup rc (rc.isAgentAvailable phase agent).2 := by
  unfold isAgentAvailable
  split <;> rfl

theorem preferredAgentFrom_setup (rc : RecoveryController) (phase : String) (nowMs : Int) (current : Option Nat)
    (spent : Bool) (agents : List String) (index : Nat) :
    SameSetup rc (rc.preferredAgentFrom phase nowMs current spent agents index).2 := by
  induction agents generalizing rc index with
  | nil => rfl
  | cons agent rest ih =>
    have hread := isAgentAvailable_setup rc phase agent
    have hrest := ih (rc.isAgentAvailable phase agent).2 (index + 1)
    exact Eq.trans hrest hread

theorem anyAgentAvailable_setup (rc : RecoveryController) (phase : String) (agents : List String) :
    SameSetup rc (rc.anyAgentAvailable phase agents).2 := by
  induction agents generalizing rc with
  | nil => rfl
  | cons agent rest ih =>
    have hread := isAgentAvailable_setup rc phase agent
    unfold anyAgentAvailable
    dsimp only
    split
    · exact hread
    · exact Eq.trans (ih (rc.isAgentAvailable phase agent).2) hread

theorem noteIfSpent_setup (rc : RecoveryController) (phase : String) (agent : Option String) (spent : Bool) :
    SameSetup rc (rc.noteIfSpent phase agent spent) := by
  unfold noteIfSpent
  split
  · split <;> rfl
  · rfl

theorem selectAgent_setup (rc : RecoveryController) (phase : String) (chain : AgentChainState)
    (agent : Option String) (maxRetries : Nat) (useBudget : Bool) :
    SameSetup rc (rc.selectAgent phase chain agent maxRetries useBudget).2 := by
  unfold selectAgent preferredAgentIndex
  exact Eq.trans (preferredAgentFrom_setup _ _ _ _ _ _ _) (noteIfSpent_setup rc phase agent _)

theorem retryProgression_regains {phase : String} {agent : Option String} {inSession : Bool} {maxRetries : Nat} {useBudget : Bool}
    (hrc : ServesPolicy policy rc) :
    RegainsTo policy s (rc.handleRetryProgression s failure phase agent inSession maxRetries useBudget) := by
  intro s' effects hok
  unfold handleRetryProgression at hok
  split at hok
  · cases hok
    exact .inl rfl
  · rename_i chain _
    dsimp only at hok
    have hselect := selectAgent_setup rc phase chain
      (handleRetryProgression.firstAgent agent chain) maxRetries useBudget
    generalize rc.selectAgent phase chain (handleRetryProgression.firstAgent agent chain) maxRetries
      useBudget = selected at hok hselect
    obtain ⟨selection, rc₁⟩ := selected
    cases selection with
    | some index =>
      dsimp only at hok
      split at hok
      · cases hok
        exact .inl (applyChainRetry_same s phase chain inSession)
      · split at hok
        · cases hok
          exact .inl rfl
        · cases hok
    | none =>
      dsimp only at hok
      have hany := anyAgentAvailable_setup rc₁ phase chain.agents
      split at hok
      · exact exhaustChain_regains (hrc.of_same (Eq.trans hany hselect)) s' effects hok
      · cases hok
        exact .inl rfl

theorem enforceCap_regains {outcome : RecoveryController.Outcome}
    (h : RegainsTo policy s outcome) : RegainsTo policy s (enforceCap outcome failure) := by
  intro s' effects hok
  unfold enforceCap at hok
  split at hok
  · exact h s' effects hok
  · rename_i s₁ effects₁ hresult
    split at hok
    · exact (h s₁ effects₁ hresult).then_same (capExit_same hok)
    · exact h s' effects hok

theorem sameShapeBound_setup (rc : RecoveryController) (original : PipelineState) (failure : ClassifiedFailure)
    (context : FailureContext) (chain : Option AgentChainState) :
    SameSetup rc (rc.sameShapeBound original failure context chain).2 := by
  have hbroken : SameSetup rc (rc.checkBrokenAgentSameShapeBound context.phase context.agent failure chain).2 := by
    unfold checkBrokenAgentSameShapeBound
    split
    · split
      · split
        · rfl
        · dsimp only
          split <;> rfl
      · rfl
    · rfl
  have hwatchdog : ∀ rc₁ : RecoveryController, SameSetup rc₁ (rc₁.checkSameShapeBound context.phase failure original).2 := by
    intro rc₁
    unfold checkSameShapeBound
    split
    · rfl
    · split
      · rfl
      · dsimp only
        split <;> rfl
  unfold sameShapeBound
  split
  · rename_i heq
    rw [heq] at hbroken
    exact hbroken
  · rename_i heq
    rw [heq] at hbroken
    split
    · exact Eq.trans (hwatchdog _) hbroken
    · exact hbroken

theorem chargeAgent_setup (rc : RecoveryController) (failure : ClassifiedFailure) (context : FailureContext) :
    SameSetup rc (rc.chargeAgent failure context) := by
  unfold chargeAgent
  split
  · rfl
  · split
    · rfl
    · unfold debitAgent
      dsimp only
      split <;> rfl

theorem noteSession_same (s : PipelineState) (failure : ClassifiedFailure) (inSession : Bool) :
    forgetRecovery (noteSession s failure inSession) = forgetRecovery s := by
  unfold noteSession
  split
  · rfl
  · split
    · split <;> rfl
    · rfl

theorem noteUnavailability_same (s : PipelineState) (failure : ClassifiedFailure) (context : FailureContext) :
    forgetRecovery (noteUnavailability s failure context) = forgetRecovery s := by
  unfold noteUnavailability
  split <;> rfl

theorem controllerAgentFailure_regains {original : PipelineState} {context : FailureContext} {chain : Option AgentChainState}
    (hrc : ServesPolicy policy rc) : RegainsTo policy s (rc.handleAgentFailure original s failure context chain) := by
  have hnoted := (noteSession_same (RecoveryController.noteUnavailability s failure context) failure
    context.retryInSession).trans (noteUnavailability_same s failure context)
  intro s' effects hok
  unfold RecoveryController.handleAgentFailure at hok
  dsimp only at hok
  have hbound := Eq.trans (sameShapeBound_setup (rc.chargeAgent failure context) original failure context chain)
    (chargeAgent_setup rc failure context)
  generalize (rc.chargeAgent failure context).sameShapeBound original failure context chain = bound at hok hbound
  obtain ⟨text, rc₁⟩ := bound
  have hserves := hrc.of_same hbound
  cases text with
  | some text => exact Regains.of_same hnoted (failPhase_regains hserves s' effects hok)
  | none => exact Regains.of_same hnoted (enforceCap_regains (retryProgression_regains hserves) s' effects hok)

theorem handle_regains {raw : RawFailure} {context : FailureContext}
    (hrc : ServesPolicy policy rc) : RegainsTo policy s (rc.handle s raw context) := by
  intro s' effects hok
  unfold handle at hok
  dsimp only at hok
  split at hok
  · refine Regains.of_same ?_ (retryProgression_regains hrc s' effects hok)
    rfl
  · split at hok
    · refine Regains.of_same ?_ (failPhase_regains hrc s' effects hok)
      rfl
    · refine Regains.of_same ?_ (controllerAgentFailure_regains hrc s' effects hok)
      rfl

/-! ## Where the controller leaves the run -/

theorem sameClock_of_forget (h : forgetRecovery s' = forgetRecovery s) : SameClock s s' := by
  have hphase := congrArg PipelineState.phase h
  have hprevious := congrArg PipelineState.previousPhase h
  have hactive := congrArg PipelineState.cycleTimeboxActive h
  have hconsumed := congrArg PipelineState.cycleTimeboxConsumedSeconds h
  exact ⟨⟨hphase, hprevious, hactive⟩, hconsumed⟩

theorem Regains.moves (h : Regains policy s s') (hroom : HasRoom policy timing s) : Moves policy timing s s' := by
  rcases h with hsame | hfailed
  · exact .attempts (sameClock_of_forget hsame) hroom
  · have hclock := sameClock_of_forget hfailed
    exact .fails hclock.phase hclock.previous hclock.active hclock.consumed

end

end RalphWorkflow.Movement
