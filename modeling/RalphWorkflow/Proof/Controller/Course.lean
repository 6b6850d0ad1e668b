import RalphWorkflow.Proof.Controller.Selection
import RalphWorkflow.Proof.Movement.Controller

/-! A failure that reaches the controller fails the phase at once, is not tracked, or goes on by priority selection: the
agent is retried, another agent takes over, the chain is exhausted, or the run waits for a cooldown. -/
namespace RalphWorkflow.Controller
open Lib Policy Recovery Movement Pipeline RecoveryController

inductive Course
  | fails
  | untracked
  | retries
  | fallsOver (index : Nat)
  | exhausts
  | waits
  deriving DecidableEq

section

variable (rc : RecoveryController) (s : PipelineState) (raw : RawFailure) (context : FailureContext)

def classified : ClassifiedFailure :=
  context.classifiedFailure.getD (rc.classify raw context.phase context.agent s.lastConnectivityState)

/-- What progression starts from; `none` for a fault of the configuration and when a same-shape bound fires. -/
def progression : Option (RecoveryController × Nat × Bool) :=
  let failure := classified rc s raw context
  if isTechnical failure.category then some (rc, rc.technicalRetryCap, false)
  else if failure.category = .userConfig then none
  else match (rc.chargeAgent failure context).sameShapeBound s failure context (s.chainForPhase context.phase) with
    | (some _, _) => none
    | (none, rc) => some (rc, rc.getMaxRetriesForChain context.phase, true)

def selectionCourse (chain : AgentChainState) (maxRetries : Nat) (useBudget : Bool) : Course :=
  match rc.selectAgent context.phase chain (handleRetryProgression.firstAgent context.agent chain) maxRetries useBudget with
  | (some index, _) => if index = chain.currentIndex then .retries else .fallsOver index
  | (none, rc) => if (rc.anyAgentAvailable context.phase chain.agents).1 then .exhausts else .waits

def trackedCourse (maxRetries : Nat) (useBudget : Bool) : Course :=
  match s.chainForPhase context.phase with
  | none => .untracked
  | some chain => selectionCourse rc context chain maxRetries useBudget

def course : Course :=
  match progression rc s raw context with
  | none => .fails
  | some (rc, maxRetries, useBudget) => trackedCourse rc s context maxRetries useBudget

end

theorem course_fails {rc : RecoveryController} {s : PipelineState} {raw : RawFailure} {context : FailureContext}
    (h : course rc s raw context = .fails) : progression rc s raw context = none := by
  unfold course at h
  cases hprogression : progression rc s raw context with
  | none => rfl
  | some start =>
    obtain ⟨rc₁, maxRetries, useBudget⟩ := start
    rw [hprogression] at h
    unfold trackedCourse selectionCourse at h
    dsimp only at h
    split at h
    · cases h
    · split at h
      · split at h <;> cases h
      · split at h <;> cases h

/-! ## What a course does to the state -/

structure GivenUp (rc : RecoveryController) (s s' : PipelineState) : Prop where
  entered : ∃ bundle, rc.policyBundle = some bundle ∧ forgetRecovery s' =
    forgetRecovery (Pipeline.advancePhase s bundle.pipeline.recovery.failedRoute bundle.pipeline)
  chains : s'.phaseChains = s.phaseChains
  epoch : s'.recoveryEpoch = s.recoveryEpoch + 1

structure Kept (s s' : PipelineState) : Prop where
  same : forgetRecovery s' = forgetRecovery s
  count : s'.recoveryCycleCount = s.recoveryCycleCount
  epoch : s'.recoveryEpoch = s.recoveryEpoch

inductive Ensues (rc : RecoveryController) (s : PipelineState) (phase : String) : Course → PipelineState → Prop
  | fails {s' : PipelineState} (givenUp : GivenUp rc s s') (count : s'.recoveryCycleCount = s.recoveryCycleCount) :
      Ensues rc s phase .fails s'
  | untracked {s' : PipelineState} (kept : Kept s s') (chains : s'.phaseChains = s.phaseChains) :
      Ensues rc s phase .untracked s'
  | retries {s' : PipelineState} {chain : AgentChainState} (kept : Kept s s')
      (tracked : s.chainForPhase phase = some chain)
      (chains : s'.phaseChains = s.phaseChains.set phase chain.withRetryIncrement) : Ensues rc s phase .retries s'
  | fallsOver {s' : PipelineState} {chain : AgentChainState} {index : Nat} (kept : Kept s s')
      (tracked : s.chainForPhase phase = some chain) (other : index ≠ chain.currentIndex)
      (valid : index < chain.agents.length)
      (chains : s'.phaseChains =
        s.phaseChains.set phase { agents := chain.agents, currentIndex := index, retries := 0 }) :
      Ensues rc s phase (.fallsOver index) s'
  | exhausts {s' : PipelineState} (givenUp : GivenUp rc s s')
      (count : s'.recoveryCycleCount = s.recoveryCycleCount + 1) : Ensues rc s phase .exhausts s'
  | waits {s' : PipelineState} (kept : Kept s s') (chains : s'.phaseChains = s.phaseChains)
      (waiting : s'.isWaitingState = true) : Ensues rc s phase .waits s'

def SameBooks (s s₀ : PipelineState) : Prop :=
  forgetRecovery s₀ = forgetRecovery s ∧ s₀.phaseChains = s.phaseChains ∧
    s₀.recoveryCycleCount = s.recoveryCycleCount ∧ s₀.recoveryEpoch = s.recoveryEpoch

theorem Kept.of_same {s s₀ s' : PipelineState} (h : SameBooks s s₀) (h' : Kept s₀ s') : Kept s s' :=
  ⟨h'.same.trans h.1, h'.count.trans h.2.2.1, h'.epoch.trans h.2.2.2⟩

theorem GivenUp.of_same {rc : RecoveryController} {s s₀ s' : PipelineState} (h : SameBooks s s₀) (h' : GivenUp rc s₀ s') : GivenUp rc s s' := by
  obtain ⟨bundle, hbundle, hentered⟩ := h'.entered
  refine ⟨⟨bundle, hbundle, ?_⟩, h'.chains.trans h.2.1, ?_⟩
  · rw [hentered, forgetRecovery_advancePhase, h.1, ← forgetRecovery_advancePhase]
  · rw [h'.epoch, h.2.2.2]

theorem GivenUp.of_setup {rc rc₀ : RecoveryController} {s s' : PipelineState} (h : SameSetup rc rc₀) (h' : GivenUp rc₀ s s') : GivenUp rc s s' := by
  obtain ⟨bundle, hbundle, hentered⟩ := h'.entered
  exact ⟨⟨bundle, by rw [← (Prod.mk.inj h).1, hbundle], hentered⟩, h'.chains, h'.epoch⟩

theorem Ensues.of_same {rc rc₀ : RecoveryController} {s s₀ s' : PipelineState} {phase : String} {c : Course}
    (hsetup : SameSetup rc rc₀) (h : SameBooks s s₀) (h' : Ensues rc₀ s₀ phase c s') : Ensues rc s phase c s' := by
  have htracked : s₀.chainForPhase phase = s.chainForPhase phase := congrArg (Dict.get? · phase) h.2.1
  cases h' with
  | fails givenUp count => exact .fails (.of_same h (.of_setup hsetup givenUp)) (count.trans h.2.2.1)
  | untracked kept chains => exact .untracked (kept.of_same h) (chains.trans h.2.1)
  | retries kept tracked chains =>
    rw [h.2.1] at chains
    exact .retries (kept.of_same h) (htracked.symm.trans tracked) chains
  | fallsOver kept tracked other valid chains =>
    rw [h.2.1] at chains
    exact .fallsOver (kept.of_same h) (htracked.symm.trans tracked) other valid chains
  | exhausts givenUp count =>
    rw [h.2.2.1] at count
    exact .exhausts (.of_same h (.of_setup hsetup givenUp)) count
  | waits kept chains waiting => exact .waits (kept.of_same h) (chains.trans h.2.1) waiting

section

variable {rc rc' : RecoveryController} {s s' : PipelineState} {failure : ClassifiedFailure} {effects : List Effect}
  {phase reason : String} {category : FailureCategory}

theorem enterPhaseFailed_givenUp (h : rc.enterPhaseFailed s reason category = (rc', .ok s')) :
    GivenUp rc s s' ∧ s'.recoveryCycleCount = s.recoveryCycleCount := by
  unfold enterPhaseFailed at h
  split at h
  · cases h
  · rename_i bundle hbundle
    cases h
    exact ⟨⟨⟨bundle, hbundle, rfl⟩, rfl, rfl⟩, rfl⟩

theorem failPhase_ensues (h : (rc.failPhase s reason category).result = .ok (s', effects)) : Ensues rc s phase .fails s' := by
  unfold failPhase at h
  split at h
  · cases h
  · rename_i hfailed
    cases h
    obtain ⟨hgivenUp, hcount⟩ := enterPhaseFailed_givenUp hfailed
    exact .fails hgivenUp hcount

theorem capExit_eq_ok (h : rc.capExit s failure = .ok (s', effects)) : s' = { s with lastRetryDelayMs := 0 } := by
  obtain ⟨exit, _, hresult⟩ := (bind_eq_ok_iff _ _ _).mp h
  cases hresult
  rfl

theorem Ensues.exit {c : Course} {s₁ : PipelineState} (h : Ensues rc s phase c s₁) : Ensues rc s phase c { s₁ with lastRetryDelayMs := 0 } := by
  cases h with
  | fails givenUp count => exact .fails ⟨givenUp.entered, givenUp.chains, givenUp.epoch⟩ count
  | untracked kept chains => exact .untracked ⟨kept.same, kept.count, kept.epoch⟩ chains
  | retries kept tracked chains => exact .retries ⟨kept.same, kept.count, kept.epoch⟩ tracked chains
  | fallsOver kept tracked other valid chains =>
    exact .fallsOver ⟨kept.same, kept.count, kept.epoch⟩ tracked other valid chains
  | exhausts givenUp count => exact .exhausts ⟨givenUp.entered, givenUp.chains, givenUp.epoch⟩ count
  | waits kept chains waiting => exact .waits ⟨kept.same, kept.count, kept.epoch⟩ chains waiting

theorem exhaustChain_ensues (h : (rc.exhaustChain s failure).result = .ok (s', effects)) : Ensues rc s phase .exhausts s' := by
  unfold exhaustChain at h
  dsimp only at h
  split at h
  · cases h
  · rename_i rc' failedState hfailed
    obtain ⟨hgivenUp, hcount⟩ := enterPhaseFailed_givenUp hfailed
    have hensues : Ensues rc s phase .exhausts failedState :=
      .exhausts ⟨hgivenUp.entered, hgivenUp.chains, hgivenUp.epoch⟩ hcount
    split at h
    · rw [capExit_eq_ok h]
      exact hensues.exit
    · cases h
      exact hensues

theorem applyChainRetry_kept (s : PipelineState) (phase : String) (chain : AgentChainState) (inSession : Bool) :
    Kept s (applyChainRetry s phase chain inSession) ∧
      (applyChainRetry s phase chain inSession).phaseChains =
        s.phaseChains.set phase chain.withRetryIncrement := by
  unfold applyChainRetry
  dsimp only
  split
  · split <;> exact ⟨⟨rfl, rfl, rfl⟩, rfl⟩
  · exact ⟨⟨rfl, rfl, rfl⟩, rfl⟩

theorem retryProgression_ensues {context : FailureContext} {maxRetries : Nat} {useBudget : Bool}
    (h : (rc.handleRetryProgression s failure context.phase context.agent context.retryInSession maxRetries
      useBudget).result = .ok (s', effects)) :
    Ensues rc s context.phase (trackedCourse rc s context maxRetries useBudget) s' := by
  unfold handleRetryProgression at h
  unfold trackedCourse
  cases hchain : s.chainForPhase context.phase with
  | none =>
    rw [hchain] at h
    cases h
    exact .untracked ⟨rfl, rfl, rfl⟩ rfl
  | some chain =>
    rw [hchain] at h
    dsimp only at h ⊢
    unfold selectionCourse
    have hsetup := selectAgent_setup rc context.phase chain
      (handleRetryProgression.firstAgent context.agent chain) maxRetries useBudget
    generalize rc.selectAgent context.phase chain
      (handleRetryProgression.firstAgent context.agent chain) maxRetries useBudget = selected
      at h hsetup ⊢
    obtain ⟨selection, rc₁⟩ := selected
    cases selection with
    | some index =>
      dsimp only at h ⊢
      by_cases hcurrent : index = chain.currentIndex
      · rw [if_pos hcurrent] at h ⊢
        cases h
        obtain ⟨hkept, hchains⟩ := applyChainRetry_kept s context.phase chain context.retryInSession
        exact .retries hkept hchain hchains
      · rw [if_neg hcurrent] at h ⊢
        split at h
        · rename_i nextAgent hnext
          cases h
          exact .fallsOver ⟨rfl, rfl, rfl⟩ hchain hcurrent (List.getElem?_eq_some_iff.mp hnext).1 rfl
        · cases h
    | none =>
      dsimp only at h ⊢
      have hany := anyAgentAvailable_setup rc₁ context.phase chain.agents
      split at h
      · rename_i havailable
        rw [if_pos havailable]
        exact Ensues.of_same (Eq.trans hany hsetup) ⟨rfl, rfl, rfl, rfl⟩ (exhaustChain_ensues h)
      · rename_i havailable
        rw [if_neg havailable]
        cases h
        exact .waits ⟨rfl, rfl, rfl⟩ rfl rfl

theorem trackedCourse_same {s₀ : PipelineState} (h : SameBooks s s₀) (context : FailureContext) (maxRetries : Nat)
    (useBudget : Bool) : trackedCourse rc s₀ context maxRetries useBudget = trackedCourse rc s context maxRetries useBudget := by
  unfold trackedCourse PipelineState.chainForPhase
  rw [h.2.1]

theorem noteSession_books (s : PipelineState) (failure : ClassifiedFailure) (inSession : Bool) :
    SameBooks s (noteSession s failure inSession) := by
  unfold noteSession
  split
  · exact ⟨rfl, rfl, rfl, rfl⟩
  · split
    · split <;> exact ⟨rfl, rfl, rfl, rfl⟩
    · exact ⟨rfl, rfl, rfl, rfl⟩

theorem noteUnavailability_books (s : PipelineState) (failure : ClassifiedFailure) (context : FailureContext) :
    SameBooks s (noteUnavailability s failure context) := by
  unfold noteUnavailability
  split <;> exact ⟨rfl, rfl, rfl, rfl⟩

theorem notes_books (s : PipelineState) (failure : ClassifiedFailure) (context : FailureContext) (delay : Nat) :
    SameBooks s (noteSession (noteUnavailability
      (noteFailure s failure delay) failure context) failure context.retryInSession) := by
  have hfirst := noteUnavailability_books (noteFailure s failure delay) failure context
  have hsecond := noteSession_books (noteUnavailability
    (noteFailure s failure delay) failure context) failure context.retryInSession
  exact ⟨hsecond.1.trans hfirst.1, hsecond.2.1.trans hfirst.2.1, hsecond.2.2.1.trans hfirst.2.2.1,
    hsecond.2.2.2.trans hfirst.2.2.2⟩

theorem enforceCap_ensues {outcome : RecoveryController.Outcome} {c : Course}
    (houtcome : ∀ s₁ effects₁, outcome.result = .ok (s₁, effects₁) → Ensues rc s phase c s₁)
    (h : (enforceCap outcome failure).result = .ok (s', effects)) : Ensues rc s phase c s' := by
  unfold enforceCap at h
  split at h
  · exact houtcome s' effects h
  · rename_i s₁ effects₁ hresult
    split at h
    · rw [capExit_eq_ok h]
      exact (houtcome s₁ effects₁ hresult).exit
    · exact houtcome s' effects h

end

theorem handle_ensues {rc : RecoveryController} {s s' : PipelineState} {raw : RawFailure} {context : FailureContext}
    {effects : List Effect} (h : (rc.handle s raw context).result = .ok (s', effects)) :
    Ensues rc s context.phase (course rc s raw context) s' := by
  unfold handle at h
  dsimp only at h
  unfold course progression classified
  dsimp only
  generalize context.classifiedFailure.getD (rc.classify raw context.phase context.agent s.lastConnectivityState) =
    failure at h ⊢
  split at h
  · rename_i htechnical
    rw [if_pos htechnical]
    have hensues := retryProgression_ensues h
    refine Ensues.of_same rfl ?_ hensues
    exact ⟨rfl, rfl, rfl, rfl⟩
  · rename_i htechnical
    rw [if_neg htechnical]
    split at h
    · rename_i hconfig
      rw [if_pos hconfig]
      have hensues := @failPhase_ensues _ _ _ _ context.phase _ _ h
      refine Ensues.of_same rfl ?_ hensues
      exact ⟨rfl, rfl, rfl, rfl⟩
    · rename_i hconfig
      rw [if_neg hconfig]
      unfold handleAgentFailure at h
      dsimp only at h
      have hsetup := Eq.trans
        (sameShapeBound_setup (rc.chargeAgent failure context) s failure context (s.chainForPhase context.phase))
        (chargeAgent_setup rc failure context)
      generalize (rc.chargeAgent failure context).sameShapeBound s failure context (s.chainForPhase context.phase) =
        bound at h hsetup ⊢
      obtain ⟨text, rc₁⟩ := bound
      cases text with
      | some text => exact (failPhase_ensues h).of_same hsetup (notes_books s failure context _)
      | none =>
        refine enforceCap_ensues ?_ h
        intro s₁ effects₁ hresult
        have hensues := retryProgression_ensues hresult
        rw [trackedCourse_same (notes_books s failure context _)] at hensues
        exact hensues.of_same hsetup (notes_books s failure context _)

end RalphWorkflow.Controller
