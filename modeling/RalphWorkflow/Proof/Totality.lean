import RalphWorkflow.Proof.Controller.Returns
import RalphWorkflow.Proof.PostCommitRouting

/-! Under a policy that declares the counters of its loops what is left to raise are the failure handlers: a retry without a chain, a chain without
its current agent, a worker without a record, and a controller that cannot answer. -/
namespace RalphWorkflow.Totality
open Lib Policy Recovery Movement Controller
open Pipeline Pipeline.Reducer

def CountersDeclared (policy : PipelinePolicy) : Prop :=
  ∀ phase phaseDef loopPolicy, policy.phases.get? phase = some phaseDef → phaseDef.loopPolicy = some loopPolicy →
    (policy.loopCounters.get? loopPolicy.iterationStateField).isSome = true

structure Routable (policy : PipelinePolicy) : Prop where
  accepted : policy.Accepted
  counted : CountersDeclared policy

section

variable {policy : PipelinePolicy} {timing : Option RoutingTiming}

/-! ## The seam -/

theorem cap_of_declared {field : String} (h : (policy.loopCounters.get? field).isSome = true) : Returns (resolveAnalysisCap field policy) := by
  unfold resolveAnalysisCap
  obtain ⟨counter, hcounter⟩ := Option.isSome_iff_exists.mp h
  rw [hcounter]
  exact returns_ok _

section

variable (h : Routable policy)
include h

theorem Routable.skip_returns (s : PipelineState) (phase : String) : Returns (skipIfExhausted s phase policy) := by
  unfold skipIfExhausted
  split
  · exact returns_ok _
  · rename_i loopPolicy hloop
    obtain ⟨phaseDef, hphase, hdeclared⟩ := Option.bind_eq_some_iff.mp hloop
    refine (cap_of_declared (h.counted phase phaseDef loopPolicy hphase hdeclared)).bind ?_
    intro cap _
    split
    · rw [PostCommitRouting.resolveNextPhase_success h.accepted hphase]
      exact returns_ok _
    · exact returns_ok _

theorem Routable.bypassFrom_returns (fuel : Nat) (s : PipelineState) (target : String)
    (skipped : List ExhaustedAnalysisSkip) (visited : List String) :
    Returns (exhaustedAnalysisBypassFrom policy fuel s target skipped visited) := by
  induction fuel generalizing s target skipped visited with
  | zero => exact returns_ok _
  | succ fuel ih =>
    rw [exhaustedAnalysisBypassFrom]
    split
    · exact returns_ok _
    · refine (h.skip_returns s target).bind ?_
      intro skip _
      cases skip with
      | none => exact returns_ok _
      | some pair => exact ih _ _ _ _

theorem Routable.ownBypass_returns (s : PipelineState) (target : String) : Returns (ownBypass s target policy) := by
  unfold ownBypass
  split
  · split
    · exact returns_ok _
    · split
      · exact (h.bypassFrom_returns _ s s.phase [] []).bind fun _ _ => returns_ok _
      · exact returns_ok _
  · exact returns_ok _

theorem Routable.prepare_returns (s : PipelineState) (target : String) : Returns (preparePhaseAdvance s target policy timing) := by
  unfold preparePhaseAdvance
  refine (h.ownBypass_returns _ _).bind ?_
  intro own _
  cases own with
  | some bypass => exact returns_ok _
  | none => exact (h.bypassFrom_returns _ _ _ [] []).bind fun _ _ => returns_ok _

theorem Routable.advance_returns (s : PipelineState) (target : String) : Returns (Reducer.advancePhase s target policy timing) := by
  unfold Reducer.advancePhase
  exact (h.prepare_returns s target).bind fun _ _ => returns_ok _

end

/-! ## Charges and failures -/

theorem executionCounter_declared {origin field : String} (hcounted : CountersDeclared policy) {fuel : Nat}
    {current : String} {visited : List String}
    (h : executionCycleLoopCounterFrom policy origin fuel current visited = some field) :
    (policy.loopCounters.get? field).isSome = true := by
  induction fuel generalizing current visited with
  | zero => cases h
  | succ fuel ih =>
    unfold executionCycleLoopCounterFrom at h
    split at h
    · cases h
    · split at h
      · cases h
      · rename_i phaseDef hphase
        split at h
        · rename_i loopPolicy hloop
          split at h
          · cases h
            exact hcounted current phaseDef loopPolicy hphase hloop
          · exact ih h
        · exact ih h

theorem Routable.charge_returns (h : Routable policy) (counted s : PipelineState) (phase : String) :
    Returns (chargeExecutionCycle counted s phase policy) := by
  unfold chargeExecutionCycle
  split
  · exact returns_ok _
  · rename_i field hfield
    exact (cap_of_declared (executionCounter_declared h.counted hfield)).bind fun _ _ => returns_ok _

theorem Routable.failedRecovery_returns (h : Routable policy) (s : PipelineState) (reason : String) :
    Returns (enterFailedRecovery s reason policy) := by
  unfold enterFailedRecovery
  exact (h.charge_returns s _ s.phase).bind fun _ _ => returns_ok _

theorem Routable.fallback_returns (h : Routable policy) (s : PipelineState) (fallback : PhaseWorkflowFallback)
    (lastError : Option String) : Returns (takeWorkflowFallback s fallback lastError policy timing) := by
  unfold takeWorkflowFallback
  refine (h.prepare_returns s fallback.target).bind ?_
  intro prepared _
  exact (h.charge_returns s _ s.phase).bind fun _ _ => returns_ok _

theorem resolveNextPhase_caught (phase : String) (signal : Pipeline.Signal) : ReturnsOrCaught (resolveNextPhase phase signal policy) := by
  unfold resolveNextPhase
  split
  · exact .inr ⟨_, rfl⟩
  · split
    · exact .inr ⟨_, rfl⟩
    · split
      · exact .inl (returns_ok _)
      · exact .inr ⟨_, rfl⟩

theorem resolvePostCommitPhase_caught (s : PipelineState) : ReturnsOrCaught (resolvePostCommitPhase s policy) := by
  unfold resolvePostCommitPhase
  split
  · split
    · exact .inl (returns_ok _)
    · exact .inr ⟨_, rfl⟩
  · split
    · exact .inl (returns_ok _)
    · exact resolveNextPhase_caught s.phase .success

section

variable (h : Routable policy)
include h

section

variable (s : PipelineState)

theorem Routable.resolveOrTerminal_returns (signal : Pipeline.Signal) (label : String) : Returns (resolveOrTerminal s signal policy label timing) := by
  unfold resolveOrTerminal
  rcases resolveNextPhase_caught s.phase signal with ⟨next, hnext⟩ | ⟨message, herror⟩
  · rw [hnext]
    exact h.advance_returns s next
  · rw [herror]
    exact h.failedRecovery_returns s _

theorem Routable.redirect_returns {s : PipelineState} {expired : Handled}
    (hexpired : redirectExpiredCycleInPlace s policy timing = some expired) : Returns expired := by
  unfold redirectExpiredCycleInPlace at hexpired
  dsimp only at hexpired
  split at hexpired
  · cases hexpired
    exact h.advance_returns _ _
  · cases hexpired

/-! ## Results, reviews and commits -/

theorem Routable.analysisSuccess_returns : Returns (handleAnalysisSuccess s policy timing) := by
  refine returns_catchValueError ?_ fun _ => h.failedRecovery_returns s _
  refine (resolveNextPhase_caught s.phase .success).bind ?_
  intro next _
  exact .inl ((h.advance_returns _ next).bind fun _ _ => returns_ok _)

theorem Routable.agentSuccess_returns : Returns (handleAgentSuccess s policy timing) := by
  unfold handleAgentSuccess
  dsimp only
  generalize (if 0 < s.lastRetryDelayMs then { s with lastRetryDelayMs := 0 } else s) = rested
  split
  · exact h.failedRecovery_returns rested _
  · split
    · exact returns_ok _
    · split
      · exact h.analysisSuccess_returns _
      · exact h.resolveOrTerminal_returns _ _ _

theorem Routable.executionResult_returns (phase status : String) : Returns (handleExecutionResult s phase status policy timing) := by
  unfold handleExecutionResult
  split
  · exact h.failedRecovery_returns s _
  · split
    · exact h.failedRecovery_returns s _
    · split
      · exact h.resolveOrTerminal_returns _ _ _
      · exact h.failedRecovery_returns s _

theorem Routable.cap_returns {phase : String} {phaseDef : PhaseDefinition}
    {loopPolicy : PhaseLoopPolicy} (hphase : policy.phases.get? phase = some phaseDef) (hloop : phaseDef.loopPolicy = some loopPolicy) :
    Returns (resolveAnalysisCap loopPolicy.iterationStateField policy) :=
  cap_of_declared (h.counted phase phaseDef loopPolicy hphase hloop)

theorem Routable.cappedLoopback_returns {loopPolicy : PhaseLoopPolicy}
    (hcap : Returns (resolveAnalysisCap loopPolicy.iterationStateField policy)) (outcome : Option String) :
    Returns (handleCappedPhaseLoopback s policy loopPolicy outcome timing) := by
  unfold handleCappedPhaseLoopback
  refine hcap.bind ?_
  intro cap _
  dsimp only
  rcases resolveNextPhase_caught s.phase .loopback with ⟨next, hnext⟩ | ⟨message, herror⟩
  · rw [hnext]
    exact h.advance_returns _ next
  · rw [herror]
    exact h.failedRecovery_returns _ _

theorem Routable.analysisLoopback_returns : Returns (handleAnalysisLoopback s policy timing) := by
  unfold handleAnalysisLoopback
  split
  · exact h.failedRecovery_returns s _
  · rename_i phaseDef hphase
    split
    · rename_i loopPolicy hloop
      split
      · exact h.cappedLoopback_returns s (h.cap_returns hphase hloop) _
      · exact h.resolveOrTerminal_returns s _ _
    · exact h.resolveOrTerminal_returns s _ _

theorem Routable.phaseLoopback_returns : Returns (handlePhaseLoopback s policy timing) := by
  unfold handlePhaseLoopback
  split
  · exact h.failedRecovery_returns s _
  · rename_i phaseDef hphase
    split
    · rename_i loopPolicy hloop
      exact h.cappedLoopback_returns s (h.cap_returns hphase hloop) _
    · exact h.resolveOrTerminal_returns s _ _

theorem Routable.analysisDecision_returns (phase decision : String) : Returns (handleAnalysisDecision s phase decision policy timing) := by
  unfold handleAnalysisDecision
  split
  · exact h.failedRecovery_returns s _
  · rename_i phaseDef hphase
    split
    · exact h.failedRecovery_returns s _
    · rename_i route _
      have hcount : Returns (countDecision s phase phaseDef route policy) := by
        unfold countDecision
        split
        · exact returns_ok _
        · rename_i loopPolicy hloop
          split
          · exact returns_ok _
          · exact (h.cap_returns hphase hloop).bind fun _ _ => returns_ok _
      refine hcount.bind ?_
      intro counted _
      dsimp only
      split
      · exact h.failedRecovery_returns _ _
      · exact (h.advance_returns _ route.target).bind fun _ _ => returns_ok _

end

end

theorem returns_clearReview {handled : Handled} (h : Returns handled) (outcome : Option String) : Returns (clearReview handled outcome) :=
  h.bind fun _ _ => returns_ok _

section

variable (h : Routable policy)
include h

section

variable (s : PipelineState)

theorem Routable.reviewClean_returns : Returns (handleReviewClean s policy timing) := by
  unfold handleReviewClean
  dsimp only
  split
  · exact returns_clearReview (h.advance_returns s _) none
  · exact returns_clearReview (h.resolveOrTerminal_returns s _ _) none

theorem Routable.reviewIssuesFound_returns : Returns (handleReviewIssuesFound s policy timing) := by
  unfold handleReviewIssuesFound
  split
  · exact h.failedRecovery_returns s _
  · split
    · exact h.failedRecovery_returns s _
    · exact returns_clearReview (h.resolveOrTerminal_returns s _ _) _

theorem Routable.fixFailure_returns : Returns (handleFixFailure s policy timing) := by
  refine returns_catchValueError ?_ fun _ => h.failedRecovery_returns s _
  refine (resolveNextPhase_caught s.phase .failure).bind ?_
  intro next _
  left
  split
  · exact h.failedRecovery_returns s _
  · exact h.advance_returns s next

theorem Routable.throughGate_returns (next : String) : Returns (advanceThroughInvocationGate s next policy timing) := by
  unfold advanceThroughInvocationGate
  dsimp only
  refine (h.advance_returns _ _).bind ?_
  rintro ⟨newState, effects⟩ _
  dsimp only
  split
  · split
    · exact (h.charge_returns newState newState _).bind fun _ _ => returns_ok _
    · exact returns_ok _
  · exact returns_ok _

theorem Routable.commitOutcome_returns (skipped : Bool) (label : String) : Returns (handleCommitOutcome skipped label s policy timing) := by
  refine returns_catchValueError ?_ fun _ => h.failedRecovery_returns s _
  refine (resolvePostCommitPhase_caught _).bind ?_
  intro next _
  exact .inl (h.throughGate_returns _ next)

theorem Routable.allWorkersComplete_returns : Returns (handleAllWorkersComplete s policy timing) := by
  unfold handleAllWorkersComplete
  dsimp only
  split
  · exact returns_ok _
  · split
    · exact h.failedRecovery_returns s _
    · split
      · exact returns_ok _
      · refine returns_catchValueError ?_ fun _ => h.failedRecovery_returns s _
        refine (resolveNextPhase_caught s.phase .success).bind ?_
        intro next _
        exact .inl (h.advance_returns s next)

theorem Routable.postFanout_returns (success : Bool) (exitCode : Option Int)
    (error : Option String) : Returns (reducePostFanoutVerification s success exitCode error policy) := by
  unfold reducePostFanoutVerification
  split
  · exact returns_ok _
  · exact (h.failedRecovery_returns s _).bind fun _ _ => returns_ok _

end

end

/-! ## Failures -/

theorem redirect_none_iff (s : PipelineState) : redirectExpiredCycleInPlace s policy timing = none ↔ HasRoom policy timing s := by
  unfold redirectExpiredCycleInPlace HasRoom
  dsimp only
  split
  · rename_i hredirected
    rw [hredirected]
    simp
  · rename_i hredirected
    exact iff_of_true rfl (Bool.eq_false_iff.mpr hredirected)

theorem Routable.room_cases (h : Routable policy) (timing : Option RoutingTiming) (s : PipelineState) :
    (∃ expired, redirectExpiredCycleInPlace s policy timing = some expired ∧ Returns expired ∧ ¬ HasRoom policy timing s) ∨
      redirectExpiredCycleInPlace s policy timing = none ∧ HasRoom policy timing s := by
  cases hredirect : redirectExpiredCycleInPlace s policy timing with
  | some expired =>
    refine .inl ⟨expired, rfl, h.redirect_returns hredirect, ?_⟩
    rw [← redirect_none_iff, hredirect]
    simp
  | none => exact .inr ⟨rfl, (redirect_none_iff s).mp hredirect⟩

theorem Routable.chainExhausted_returns (h : Routable policy) (s : PipelineState) (chain : AgentChainState) :
    Returns (agentChainExhausted s chain policy timing) := by
  unfold agentChainExhausted
  split
  · exact h.fallback_returns s _ _
  · exact h.failedRecovery_returns s _

theorem Routable.skipSameAgentRetries_returns_iff (h : Routable policy) (s : PipelineState) (chain : AgentChainState)
    (recovery : Option RecoveryController) :
    Returns (handleSkipSameAgentRetries s chain policy recovery).result ↔
      (recovery.isSome = true → chain.currentAgent.isSome = true) := by
  have hforward : Returns (handleSkipSameAgentRetries s chain policy none).result := by
    unfold handleSkipSameAgentRetries
    dsimp only
    split
    · exact returns_ok _
    · exact h.failedRecovery_returns s _
  cases recovery with
  | none => exact iff_of_true hforward fun hnone => by cases hnone
  | some rc =>
    unfold handleSkipSameAgentRetries at hforward ⊢
    dsimp only at hforward ⊢
    cases chain.currentAgent with
    | none => simp [not_returns_error]
    | some agent =>
      dsimp only
      refine iff_of_true ?_ fun _ => rfl
      split
      · exact returns_ok _
      · exact hforward

def SkipsKnownAgent (s : PipelineState) : Prop :=
  s.agentRetryIntent.skipSameAgentRetries = true →
    ∀ chain, s.chainForPhase s.phase = some chain → chain.currentAgent.isSome = true

theorem Routable.handleAgentFailure_returns_iff (h : Routable policy) (s : PipelineState) (recovery : Option RecoveryController) :
    Returns (Reducer.handleAgentFailure s policy timing recovery).result ↔
      (HasRoom policy timing s → recovery.isSome = true → SkipsKnownAgent s) := by
  unfold Reducer.handleAgentFailure
  cases hchain : s.chainForPhase s.phase with
  | none =>
    refine iff_of_true (h.failedRecovery_returns s _) ?_
    intro _ _ _ chain htracked
    rw [hchain] at htracked
    cases htracked
  | some chain =>
    dsimp only
    rcases h.room_cases timing s with ⟨expired, hexpired, hreturns, hlate⟩ | ⟨hnone, hroom⟩
    · rw [hexpired]
      exact iff_of_true hreturns fun hroom => absurd hroom hlate
    · rw [hnone]
      dsimp only
      split
      · rename_i hskip
        rw [h.skipSameAgentRetries_returns_iff s chain recovery]
        constructor
        · intro hknown _ hsome _ tracked htracked
          rw [hchain] at htracked
          cases htracked
          exact hknown hsome
        · intro hknown hsome
          exact hknown hroom hsome hskip chain hchain
      · rename_i hskip
        refine iff_of_true ?_ fun _ _ hskips => absurd hskips hskip
        cases recovery with
        | none =>
          dsimp only
          split
          · exact returns_ok _
          · exact h.chainExhausted_returns s chain
        | some rc =>
          dsimp only
          split
          · exact returns_ok _
          · exact h.chainExhausted_returns s chain

theorem Routable.handlePhaseFailure_returns (h : Routable policy) (s : PipelineState) (event : PhaseFailureEvent) :
    Returns (handlePhaseFailure s event policy timing) := by
  unfold handlePhaseFailure
  dsimp only
  split
  · rw [h.handleAgentFailure_returns_iff]
    intro _ hnone
    cases hnone
  · split
    · exact h.fallback_returns s _ _
    · exact h.failedRecovery_returns s _

theorem Routable.throughController_returns_iff (h : Routable policy) (s : PipelineState) (raw : RawFailure)
    (context : FailureContext) (rc : RecoveryController) :
    Returns (recoverThroughController s raw context policy rc).result ↔ Answers rc s raw context := by
  unfold recoverThroughController
  dsimp only
  rw [← handle_returns_iff]
  apply returns_bind_iff
  rintro ⟨newState, effects⟩ _
  have hcharge : Returns (chargeIfLeft s newState policy) := by
    unfold chargeIfLeft
    split
    · exact returns_ok _
    · exact h.charge_returns s newState s.phase
  exact hcharge.bind fun _ _ => returns_ok _

end

/-! ## What an event needs -/

def captured (s : PipelineState) : Option RaisedException :=
  s.agentRetryIntent.failedAgentName.bind (capturedFailure s.agentRetryIntent)

def Needs (s : PipelineState) (recovery : Option RecoveryController) : Event → Prop
  | .pipeline .agentRetry => (s.chainForPhase s.phase).isSome = true
  | .pipeline .agentFailure => ∀ rc, recovery = some rc →
      match captured s with
      | some exc => Answers rc s (.exception exc) { phase := s.phase, agent := s.currentAgent }
      | none => SkipsKnownAgent s
  | .phaseFailure event => ∀ rc, recovery = some rc →
      Answers rc s (.message (reasonOrNote event))
        { phase := event.phase
          agent := s.currentAgent
          retryInSession := event.retryInSession
          classifiedFailure := classifiedFailureForEvent event }
  | .workerFailed unitId exitCode error => ∀ rc, recovery = some rc →
      Answers rc s (.message (if error = "" then s!"Worker {unitId} failed: exit code {exitCode}" else error))
          { phase := s.phase, agent := s.currentAgent } ∧
        (s.workerStates.get? unitId).isSome = true
  | _ => True

section

variable {policy : PipelinePolicy} {timing : Option RoutingTiming}

theorem Routable.agentRetry_returns_iff (h : Routable policy) (s : PipelineState) (recovery : Option RecoveryController) :
    Returns (handleAgentRetry s policy timing) ↔
      (HasRoom policy timing s → Needs s recovery (.pipeline .agentRetry)) := by
  unfold handleAgentRetry
  rcases h.room_cases timing s with ⟨expired, hexpired, hreturns, hlate⟩ | ⟨hnone, hroom⟩
  · rw [hexpired]
    exact iff_of_true hreturns fun hroom => absurd hroom hlate
  · rw [hnone]
    dsimp only [Needs]
    cases s.chainForPhase s.phase with
    | none => exact iff_of_false (not_returns_error _) fun hchain => by cases hchain hroom
    | some chain => exact iff_of_true (returns_ok _) fun _ => rfl

theorem Routable.phaseFailure_returns_iff (h : Routable policy) (s : PipelineState) (event : PhaseFailureEvent)
    (recovery : Option RecoveryController) :
    Returns (reducePhaseFailure s event policy recovery timing).result ↔
      (HasRoom policy timing s → Needs s recovery (.phaseFailure event)) := by
  unfold reducePhaseFailure
  cases recovery with
  | none => exact iff_of_true (h.handlePhaseFailure_returns s event) fun _ rc hrc => by cases hrc
  | some rc =>
    dsimp only
    rcases h.room_cases timing s with ⟨expired, hexpired, hreturns, hlate⟩ | ⟨hnone, hroom⟩
    · rw [hexpired]
      exact iff_of_true hreturns fun hroom => absurd hroom hlate
    · rw [hnone]
      dsimp only
      rw [h.throughController_returns_iff]
      constructor
      · intro hanswers _ rc' hrc
        cases hrc
        exact hanswers
      · intro hneeds
        exact hneeds hroom rc rfl

theorem returns_restoring_iff (s : PipelineState) (handled : Handled) : Returns (restoring s handled) ↔ Returns handled :=
  returns_bind_iff fun _ _ => returns_ok _

theorem Routable.agentFailure_returns_iff (h : Routable policy) (s : PipelineState) (recovery : Option RecoveryController) :
    Returns (reduceAgentFailure s policy recovery timing).result ↔
      (HasRoom policy timing s → Needs s recovery (.pipeline .agentFailure)) := by
  unfold reduceAgentFailure
  dsimp only
  rw [returns_restoring_iff]
  cases recovery with
  | none =>
    dsimp only
    rw [h.handleAgentFailure_returns_iff]
    exact iff_of_true (fun _ hnone => by cases hnone) fun _ rc hrc => by cases hrc
  | some rc =>
    dsimp only
    have hplain := @Routable.handleAgentFailure_returns_iff _ timing h s (some rc)
    rcases h.room_cases timing s with ⟨expired, hexpired, hreturns, hlate⟩ | ⟨hnone, hroom⟩
    · refine iff_of_true ?_ fun hroom => absurd hroom hlate
      unfold reduceCapturedAgentFailure
      split
      · exact hplain.mpr fun hroom => absurd hroom hlate
      · rw [hexpired]
        exact hreturns
    · have hneeds : (HasRoom policy timing s → Needs s (some rc) (.pipeline .agentFailure)) ↔
          match captured s with
          | some exc => Answers rc s (.exception exc) { phase := s.phase, agent := s.currentAgent }
          | none => SkipsKnownAgent s := by
        constructor
        · intro hneeds
          exact hneeds hroom rc rfl
        · intro hanswers _ rc' hrc
          cases hrc
          exact hanswers
      have hskips : Returns (Reducer.handleAgentFailure s policy timing (some rc)).result ↔ SkipsKnownAgent s := by
        rw [hplain]
        exact ⟨fun hknown => hknown hroom rfl, fun hknown _ _ => hknown⟩
      rw [hneeds]
      unfold reduceCapturedAgentFailure captured
      cases s.agentRetryIntent.failedAgentName with
      | none => exact hskips
      | some agentName =>
        rw [hnone]
        dsimp only [Option.bind]
        cases capturedFailure s.agentRetryIntent agentName with
        | none => exact hskips
        | some exc => exact h.throughController_returns_iff s _ _ rc

theorem Routable.workerFailed_returns_iff (h : Routable policy) (s : PipelineState) (unitId : String) (exitCode : Int)
    (error : String) (recovery : Option RecoveryController) :
    Returns (dispatchWorkerFailed s unitId exitCode error policy recovery timing).result ↔
      (HasRoom policy timing s → Needs s recovery (.workerFailed unitId exitCode error)) := by
  unfold dispatchWorkerFailed
  rcases h.room_cases timing s with ⟨expired, hexpired, hreturns, hlate⟩ | ⟨hnone, hroom⟩
  · rw [hexpired]
    exact iff_of_true hreturns fun hroom => absurd hroom hlate
  · rw [hnone]
    cases recovery with
    | none => exact iff_of_true (returns_ok _) fun _ rc hrc => by cases hrc
    | some rc =>
      dsimp only
      have hneeds : (HasRoom policy timing s → Needs s (some rc) (.workerFailed unitId exitCode error)) ↔ Answers rc s
              (.message (if error = "" then s!"Worker {unitId} failed: exit code {exitCode}" else error))
              { phase := s.phase, agent := s.currentAgent } ∧
            (s.workerStates.get? unitId).isSome = true := by
        constructor
        · intro hneeds
          exact hneeds hroom rc rfl
        · intro hanswers _ rc' hrc
          cases hrc
          exact hanswers
      rw [hneeds, ← handle_returns_iff]
      cases s.workerStates.get? unitId with
      | none =>
        refine iff_of_false ?_ fun hknown => by cases hknown.2
        rintro ⟨result, hok⟩
        obtain ⟨handled, _, hraised⟩ := (bind_eq_ok_iff _ _ _).mp hok
        cases hraised
      | some worker =>
        simp only [Option.isSome_some, and_true]
        exact returns_bind_iff fun _ _ => returns_ok _

theorem Routable.pipelineEvent_returns (h : Routable policy) (s : PipelineState) {event : PipelineEvent}
    (hretry : event ≠ .agentRetry) (hfailure : event ≠ .agentFailure) :
    Returns (handlePipelineEvent s event policy timing) := by
  unfold handlePipelineEvent
  cases event with
  | agentSuccess => exact h.agentSuccess_returns s
  | agentFailure => exact absurd rfl hfailure
  | agentRetry => exact absurd rfl hretry
  | analysisSuccess => exact h.analysisSuccess_returns s
  | analysisLoopback => exact h.analysisLoopback_returns s
  | phaseLoopback => exact h.phaseLoopback_returns s
  | reviewClean => exact h.reviewClean_returns s
  | reviewIssuesFound => exact h.reviewIssuesFound_returns s
  | fixSuccess => exact h.resolveOrTerminal_returns s _ _
  | fixFailure => exact h.fixFailure_returns s
  | commitSuccess => exact h.commitOutcome_returns s false _
  | commitSkipped => exact h.commitOutcome_returns s true _
  | commitResidual => exact h.advance_returns s _
  | commitFailure => exact h.failedRecovery_returns s _
  | failed => exact h.failedRecovery_returns s _
  | phaseAdvance => exact h.resolveOrTerminal_returns s _ _
  | allWorkersComplete => exact h.allWorkersComplete_returns s
  | _ => exact returns_ok _

theorem Routable.reduce_returns (h : Routable policy) (s : PipelineState) (event : Event) (recovery : Option RecoveryController) :
    Returns (reduce s event policy recovery timing).result ↔ (HasRoom policy timing s → Needs s recovery event) := by
  cases event with
  | phaseFailure event => exact h.phaseFailure_returns_iff s event recovery
  | workerFailed unitId exitCode error => exact h.workerFailed_returns_iff s unitId exitCode error recovery
  | postFanoutVerification success exitCode error =>
    exact iff_of_true (h.postFanout_returns s success exitCode error) fun _ => trivial
  | analysisDecision phase decision => exact iff_of_true (h.analysisDecision_returns s phase decision) fun _ => trivial
  | executionResult phase status => exact iff_of_true (h.executionResult_returns s phase status) fun _ => trivial
  | workerStarted unitId => exact iff_of_true (returns_ok _) fun _ => trivial
  | workerCompleted unitId exitCode => exact iff_of_true (returns_ok _) fun _ => trivial
  | pipeline event =>
    cases event with
    | agentFailure => exact h.agentFailure_returns_iff s recovery
    | agentRetry => exact (returns_restoring_iff s _).trans (h.agentRetry_returns_iff s recovery)
    | _ =>
      refine iff_of_true ((returns_restoring_iff s _).mpr ?_) fun _ => trivial
      exact h.pipelineEvent_returns s (by decide) (by decide)

end

/-! ## Which inputs are answered -/

theorem loopback_raises {policy : PipelinePolicy} {phaseDef : PhaseDefinition} {loopPolicy : PhaseLoopPolicy}
    {s : PipelineState} {timing : Option RoutingTiming} (hphase : policy.phases.get? s.phase = some phaseDef)
    (hloop : phaseDef.loopPolicy = some loopPolicy)
    (hundeclared : policy.loopCounters.get? loopPolicy.iterationStateField = none) :
    ¬ Returns (reduce s (.pipeline .phaseLoopback) policy none timing).result := by
  show ¬ Returns (restoring s (handlePhaseLoopback s policy timing))
  rw [returns_restoring_iff]
  unfold handlePhaseLoopback handleCappedPhaseLoopback resolveAnalysisCap
  rw [hphase]
  dsimp only
  rw [hloop]
  dsimp only
  rw [hundeclared]
  exact not_returns_error _

/-- The counters of all loops are declared exactly when the reducer returns on every event it can handle. -/
theorem reduce_returns_iff (policy : PipelinePolicy) (haccepted : policy.Accepted) : CountersDeclared policy ↔
      ∀ (s : PipelineState) (event : Event) (recovery : Option RecoveryController) (timing : Option RoutingTiming),
        policy.hasPhase s.phase = true →
        (Returns (reduce s event policy recovery timing).result ↔ (HasRoom policy timing s → Needs s recovery event)) := by
  constructor
  · intro hcounted s event recovery timing _
    exact Routable.reduce_returns ⟨haccepted, hcounted⟩ s event recovery
  · intro hexact phase phaseDef loopPolicy hphase hloop
    by_contra hundeclared
    rw [Option.not_isSome_iff_eq_none] at hundeclared
    have hreturns := (hexact { phase := phase } (.pipeline .phaseLoopback) none none
      (PipelinePolicy.hasPhase_of_get? policy hphase)).mpr fun _ => trivial
    exact loopback_raises hphase hloop hundeclared hreturns

theorem bundled_counted : CountersDeclared Default.pipeline := by
  have hall : ∀ entry ∈ Default.pipeline.phases.entries, ∀ loopPolicy ∈ entry.2.loopPolicy,
      (Default.pipeline.loopCounters.get? loopPolicy.iterationStateField).isSome = true := by decide +kernel
  intro phase phaseDef loopPolicy hphase hloop
  exact hall (phase, phaseDef) ((Dict.get?_eq_some_iff _ _ _).mp hphase) loopPolicy hloop

def developing : PipelineState :=
  { phase := "development", phaseChains := ⟨[("development", { agents := ["claude"] })], by decide⟩ }

theorem developing_returns : Returns (reduce developing (.pipeline .agentRetry) Default.pipeline none none).result := by
  have hexact := (reduce_returns_iff Default.pipeline Default.pipeline_accepted).mp bundled_counted developing
    (.pipeline .agentRetry) none none (by decide)
  exact hexact.mpr fun _ => rfl

/-! ## Inputs that are not -/

def emptied : PipelineState where
  phase := "development"
  phaseChains := ⟨[("development", { agents := [] })], by decide⟩
  agentRetryIntent := { skipSameAgentRetries := true }

def bundledController : RecoveryController where
  cap := ⟨200, one_le_cycleCap⟩
  classify := fun _ _ _ _ => { category := .agent, reason := "the agent failed", countsAgainstBudget := true }
  clock := fun _ => 0
  policyBundle := some { pipeline := Default.pipeline }

def uncounted : PipelinePolicy := { Default.pipeline with loopCounters := ∅ }

/-- A retry without a chain, a skip in an empty one, an unrecorded worker, an undeclared counter. -/
theorem reduce_raises : (Default.pipeline.Accepted ∧ Default.pipeline.hasPhase "development" = true ∧
      ¬ Returns (reduce { phase := "development" } (.pipeline .agentRetry) Default.pipeline none none).result ∧
      ¬ Returns (reduce emptied (.pipeline .agentFailure) Default.pipeline (some bundledController) none).result ∧
      ¬ Returns (reduce developing (.workerFailed "unit-1" 1 "crashed") Default.pipeline (some bundledController)
        none).result) ∧
    uncounted.Accepted ∧ uncounted.hasPhase "development_analysis" = true ∧
      ¬ Returns (reduce { phase := "development_analysis" } (.pipeline .phaseLoopback) uncounted none none).result := by
  refine ⟨⟨Default.pipeline_accepted, by decide, ?_, ?_, ?_⟩, by decide +kernel, by decide, ?_⟩
  · exact not_returns_error _
  · exact not_returns_error _
  · exact not_returns_error _
  · exact not_returns_error _

end RalphWorkflow.Totality
