import RalphWorkflow.Policy.Default
import RalphWorkflow.Proof.WaysOut

/-! A failure that is not recoverable leaves the phase, and one that skips same-agent retries leaves the agent. The reducer
keeps both by itself; the controller does not read them. -/
namespace RalphWorkflow.FailureFlags
open Lib Policy Recovery Movement Accounts
open Controller WaysOut Pipeline Pipeline.Reducer

/-! ## What the flags ask for -/

inductive WayOut (policy : PipelinePolicy) (recovery : Option RecoveryController) (event : PhaseFailureEvent) :
    String → Prop
  | failed : WayOut policy recovery event policy.recovery.failedRoute
  | givenUp {rc : RecoveryController} {bundle : PolicyBundle} (present : recovery = some rc)
      (built : rc.policyBundle = some bundle) : WayOut policy recovery event bundle.pipeline.recovery.failedRoute
  | fallback {fallback : PhaseWorkflowFallback} {phase : String}
      (declared : (policy.phases.get? event.phase).bind PhaseDefinition.workflowFallback = some fallback)
      (lands : Lands policy fallback.target phase) : WayOut policy recovery event phase
  | deadline {ct : CycleTimeboxPolicy} {phase : String} (timebox : policy.cycleTimebox = some ct)
      (lands : Lands policy ct.finalizationTarget phase) : WayOut policy recovery event phase

def StaysPut (policy : PipelinePolicy) (recovery : Option RecoveryController) (event : PhaseFailureEvent)
    (s s' : PipelineState) : Prop := s'.phase = s.phase ∧ ¬ WayOut policy recovery event s.phase

def AnotherAvailable (recovery : Option RecoveryController) (phase : String) (chain : AgentChainState) : Prop :=
  ∃ index agent, index ≠ chain.currentIndex ∧ chain.agents[index]? = some agent ∧
    ∀ rc, recovery = some rc → (rc.isAgentAvailable phase agent).1 = true

def KeepsAgent (recovery : Option RecoveryController) (s s' : PipelineState) : Prop :=
  ∃ chain chain', s.chainForPhase s.phase = some chain ∧ s'.chainForPhase s.phase = some chain' ∧
    chain'.currentIndex = chain.currentIndex ∧ AnotherAvailable recovery s.phase chain

structure Obeys (policy : PipelinePolicy) (recovery : Option RecoveryController) (event : PhaseFailureEvent)
    (s s' : PipelineState) : Prop where
  leaves : event.recoverable = false → ¬ StaysPut policy recovery event s s'
  moves : event.skipSameAgentRetries = true → ¬ (StaysPut policy recovery event s s' ∧ KeepsAgent recovery s s')

/-! ## When they are kept -/

def eventCourse (rc : RecoveryController) (s : PipelineState) (event : PhaseFailureEvent) : Course :=
  course rc s (.message (reasonOrNote event))
    { phase := event.phase
      agent := s.currentAgent
      retryInSession := event.retryInSession
      classifiedFailure := classifiedFailureForEvent event }

def MovesOn (rc : RecoveryController) (s : PipelineState) (event : PhaseFailureEvent) : Prop :=
  event.phase = s.phase ∧ ∃ index, eventCourse rc s event = .fallsOver index

/-- The controller gives the phase up, or the failure asks for nothing that selection does not do. -/
def KeptByController (rc : RecoveryController) (s : PipelineState) (event : PhaseFailureEvent) : Prop :=
  gaveUp (eventCourse rc s event) = true ∨
    event.recoverable = true ∧ (event.skipSameAgentRetries = false ∨ MovesOn rc s event ∨
      ∀ chain, s.chainForPhase s.phase = some chain → ¬ AnotherAvailable (some rc) s.phase chain)

def Honours (policy : PipelinePolicy) (recovery : Option RecoveryController) (event : PhaseFailureEvent)
    (s : PipelineState) (timing : Option RoutingTiming) : Prop :=
  (redirectExpiredCycleInPlace s policy timing).isSome = true ∨ WayOut policy recovery event s.phase ∨
    ∀ rc, recovery = some rc → KeptByController rc s event

section

variable {policy : PipelinePolicy} {timing : Option RoutingTiming} {recovery : Option RecoveryController}
  {event : PhaseFailureEvent} {s s' : PipelineState} {effects : List Effect}

theorem Obeys.of_wayOut (h : WayOut policy recovery event s'.phase) : Obeys policy recovery event s s' := by
  have hleaves : ¬ StaysPut policy recovery event s s' := by
    rintro ⟨hphase, hback⟩
    rw [hphase] at h
    exact hback h
  exact ⟨fun _ => hleaves, fun _ hstays => hleaves hstays.1⟩

/-! ## Without a controller -/

variable (event) in
theorem skipped_moves {t : PipelineState} (h : (Reducer.handleAgentFailure t policy timing none).result = .ok (s', effects))
    (hphase : t.phase = s.phase) (hchains : t.phaseChains = s.phaseChains)
    (hskip : t.agentRetryIntent.skipSameAgentRetries = true) :
    WayOut policy none event s'.phase ∨
      ∃ chain, s.chainForPhase s.phase = some chain ∧ s'.chainForPhase s.phase = some chain.withAdvance := by
  unfold Reducer.handleAgentFailure at h
  cases hchain : t.chainForPhase t.phase with
  | none =>
    rw [hchain] at h
    rw [failedRecovery_phase h]
    exact .inl .failed
  | some chain =>
    rw [hchain] at h
    dsimp only at h
    split at h
    · rename_i expired hexpired
      obtain ⟨ct, hct, hlands⟩ := redirect_lands hexpired h
      exact .inl (.deadline hct hlands)
    · rw [if_pos hskip] at h
      unfold handleSkipSameAgentRetries at h
      dsimp only at h
      split at h
      · cases h
        have htracked : s.chainForPhase s.phase = some chain := by
          rw [← hphase, ← hchain]
          unfold PipelineState.chainForPhase
          rw [hchains]
        refine .inr ⟨chain, htracked, ?_⟩
        rw [← hphase]
        show (t.phaseChains.set t.phase chain.withAdvance).get? t.phase = some chain.withAdvance
        rw [Dict.get?_set, if_pos rfl]
      · rw [failedRecovery_phase h]
        exact .inl .failed

theorem plain_obeys (h : handlePhaseFailure s event policy timing = .ok (s', effects)) : Obeys policy none event s s' := by
  unfold handlePhaseFailure at h
  dsimp only at h
  split at h
  · rename_i hrecoverable
    refine ⟨fun hnot => absurd hrecoverable (by rw [hnot]; decide), ?_⟩
    rintro hskip ⟨⟨hphase, hback⟩, chain, chain', hchain, hchain', hindex, _⟩
    have hmoves := skipped_moves event (s := s) h rfl rfl ?_
    · rcases hmoves with hout | ⟨before, hbefore, hafter⟩
      · rw [hphase] at hout
        exact hback hout
      · rw [hbefore] at hchain
        rw [hafter] at hchain'
        cases hchain
        cases hchain'
        simp [AgentChainState.withAdvance] at hindex
    · unfold phaseFailureIntent
      rw [if_pos hskip]
  · refine Obeys.of_wayOut ?_
    split at h
    · exact .fallback ‹_› (fallback_lands h)
    · rw [failedRecovery_phase h]
      exact .failed

/-! ## With a controller -/

theorem kept_index {rc : RecoveryController} {phase : String} {c : Course} {chain : AgentChainState}
    (h : Ensues rc s phase c s') (hgave : gaveUp c = false) (hchain : s.chainForPhase s.phase = some chain) :
    ∃ chain', s'.chainForPhase s.phase = some chain' ∧
      (chain'.currentIndex = chain.currentIndex ↔ ¬ (phase = s.phase ∧ ∃ index, c = .fallsOver index)) := by
  unfold PipelineState.chainForPhase at hchain ⊢
  cases h with
  | fails givenUp count => cases hgave
  | exhausts givenUp count => cases hgave
  | untracked kept chains =>
    rw [chains]
    exact ⟨chain, hchain, by simp⟩
  | waits kept chains waiting =>
    rw [chains]
    exact ⟨chain, hchain, by simp⟩
  | @retries _ before kept tracked chains =>
    rw [chains, Dict.get?_set]
    by_cases hphase : s.phase = phase
    · rw [if_pos hphase]
      have hbefore : chain = before := by
        rw [← hphase] at tracked
        exact Option.some.inj (hchain.symm.trans tracked)
      exact ⟨_, rfl, by simp [AgentChainState.withRetryIncrement, hbefore]⟩
    · rw [if_neg hphase]
      exact ⟨chain, hchain, by simp⟩
  | @fallsOver _ before index kept tracked other valid chains =>
    rw [chains, Dict.get?_set]
    by_cases hphase : s.phase = phase
    · rw [if_pos hphase]
      have hbefore : chain = before := by
        rw [← hphase] at tracked
        exact Option.some.inj (hchain.symm.trans tracked)
      refine ⟨_, rfl, ?_⟩
      simp [hbefore, other, hphase]
    · rw [if_neg hphase]
      exact ⟨chain, hchain, by simp [Ne.symm hphase]⟩

theorem controlled_obeys_iff {rc : RecoveryController} (hback : ¬ WayOut policy (some rc) event s.phase)
    (hroom : redirectExpiredCycleInPlace s policy timing = none)
    (h : (reducePhaseFailure s event policy (some rc) timing).result = .ok (s', effects)) :
    Obeys policy (some rc) event s s' ↔ KeptByController rc s event := by
  unfold reducePhaseFailure at h
  rw [hroom] at h
  obtain ⟨t, hhandled, hphase, hchains⟩ := recoverThroughController_eq_ok h
  have hensues : Ensues rc s event.phase (eventCourse rc s event) t := handle_ensues hhandled
  by_cases hgave : gaveUp (eventCourse rc s event) = true
  · obtain ⟨bundle, hbundle, hfailed⟩ := givenUp_phase (ensues_gaveUp hensues hgave)
    rw [hfailed] at hphase
    have hobeys : Obeys policy (some rc) event s s' := by
      refine Obeys.of_wayOut ?_
      rw [hphase]
      exact .givenUp rfl hbundle
    exact ⟨fun _ => .inl hgave, fun _ => hobeys⟩
  · have hkeeps : gaveUp (eventCourse rc s event) = false := Bool.eq_false_iff.mpr hgave
    have hstays : StaysPut policy (some rc) event s s' :=
      ⟨hphase.trans (kept_phase (ensues_kept hensues hkeeps)), hback⟩
    -- the agent is kept exactly when selection does not move on and another agent is available
    have hagent : KeepsAgent (some rc) s s' ↔ ¬ MovesOn rc s event ∧
        ∃ chain, s.chainForPhase s.phase = some chain ∧ AnotherAvailable (some rc) s.phase chain := by
      have htracked : s'.chainForPhase s.phase = t.chainForPhase s.phase := by
        unfold PipelineState.chainForPhase
        rw [hchains]
      constructor
      · rintro ⟨chain, chain', hchain, hchain', hindex, hother⟩
        obtain ⟨after, hafter, hiff⟩ := kept_index hensues hkeeps hchain
        rw [htracked, hafter] at hchain'
        cases hchain'
        exact ⟨hiff.mp hindex, chain, hchain, hother⟩
      · rintro ⟨hmoves, chain, hchain, hother⟩
        obtain ⟨after, hafter, hiff⟩ := kept_index hensues hkeeps hchain
        exact ⟨chain, after, hchain, htracked.trans hafter, hiff.mpr hmoves, hother⟩
    constructor
    · intro hobeys
      have hrecoverable : event.recoverable = true := by
        by_contra hnot
        exact hobeys.leaves (Bool.eq_false_iff.mpr hnot) hstays
      refine .inr ⟨hrecoverable, ?_⟩
      cases hskip : event.skipSameAgentRetries with
      | false => exact .inl rfl
      | true =>
        by_cases hmoves : MovesOn rc s event
        · exact .inr (.inl hmoves)
        · refine .inr (.inr ?_)
          intro chain hchain hother
          exact hobeys.moves hskip ⟨hstays, hagent.mpr ⟨hmoves, chain, hchain, hother⟩⟩
    · rintro (hgiven | ⟨hrecoverable, hasks⟩)
      · exact absurd hgiven hgave
      · refine ⟨fun hnot => absurd hrecoverable (by rw [hnot]; decide), ?_⟩
        rintro hskip ⟨-, hkept⟩
        obtain ⟨hmoves, chain, hchain, hother⟩ := hagent.mp hkept
        rcases hasks with hunasked | hmoved | hnone
        · rw [hunasked] at hskip
          cases hskip
        · exact hmoves hmoved
        · exact hnone chain hchain hother

end

def developing : PipelineState :=
  { phase := "development", phaseChains := Dict.ofList [("development", { agents := ["claude", "codex"] })] }

def verificationFailed : PhaseFailureEvent where
  phase := "development"
  reason := "workspace verification failed"
  recoverable := false
  failureCategory := some .artifactValidation

def contextExhausted : PhaseFailureEvent where
  phase := "development"
  reason := "context length exhausted"
  recoverable := true
  failureCategory := some .artifactValidation
  skipSameAgentRetries := true

/-- A controller as a run starts with it. Both failures come classified, so it classifies nothing. -/
def fresh : RecoveryController where
  cap := ⟨200, one_le_cycleCap⟩
  classify := fun _ _ _ _ => { category := .ambiguous, reason := "", countsAgainstBudget := false }
  clock := fun _ => 0
  policyBundle := some { pipeline := Default.pipeline }

theorem finalization_lands {phase : String} (h : Lands Default.pipeline "development_final_commit_cleanup" phase) :
    phase = "development_final_commit_cleanup" ∨ phase = "development_final_commit" := by
  induction h with
  | refl => exact .inl rfl
  | tail _ hstep ih =>
    rcases ih with rfl | rfl
    · rcases hstep with ⟨phaseDef, hget, _, htarget⟩ | ⟨ct, hct, hguarded, _⟩
      · cases hget
        exact .inr htarget.symm
      · cases hct
        exact absurd hguarded (by decide)
    · rcases hstep with ⟨phaseDef, hget, hloop, _⟩ | ⟨ct, hct, hguarded, _⟩
      · cases hget
        cases hloop
      · cases hct
        exact absurd hguarded (by decide)

theorem developing_no_wayOut {event : PhaseFailureEvent} (hphase : event.phase = "development") :
    ¬ WayOut Default.pipeline (some fresh) event developing.phase := by
  intro hback
  generalize htarget : developing.phase = target at hback
  cases hback with
  | failed => exact absurd htarget (by decide)
  | @givenUp rc bundle present built =>
    cases present
    cases built
    exact absurd htarget (by decide)
  | fallback declared lands =>
    rw [hphase] at declared
    cases declared
  | deadline timebox lands =>
    cases timebox
    rcases finalization_lands lands with h | h
    · rw [h] at htarget
      exact absurd htarget (by decide)
    · rw [h] at htarget
      exact absurd htarget (by decide)

end RalphWorkflow.FailureFlags
