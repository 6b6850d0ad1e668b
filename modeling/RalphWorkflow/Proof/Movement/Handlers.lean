import RalphWorkflow.Proof.Frame

/-! The ways in which the reducer can move a run: it keeps its books in place, starts another attempt in place, advances through the transition
seam, redirects an expired cycle, or enters the failure phase. -/
namespace RalphWorkflow.Movement
open Lib Policy Recovery
open Pipeline Pipeline.Reducer

/-! ## Moves -/

/-- The run is where it was: phase, previous phase and cycle timer agree. -/
structure SameSeat (s s' : PipelineState) : Prop where
  phase : s'.phase = s.phase
  previous : s'.previousPhase = s.previousPhase
  active : s'.cycleTimeboxActive = s.cycleTimeboxActive

structure Books (s s' : PipelineState) : Prop extends SameSeat s s' where
  chains : s'.phaseChains = s.phaseChains

structure SameClock (s s' : PipelineState) : Prop extends SameSeat s s' where
  consumed : s'.cycleTimeboxConsumedSeconds = s.cycleTimeboxConsumedSeconds

structure Tallies (s s' : PipelineState) : Prop extends SameClock s s' where
  chains : s'.phaseChains = s.phaseChains

variable {s : PipelineState}

theorem SameSeat.trans {t u : PipelineState} (h : SameSeat s t) (h' : SameSeat t u) : SameSeat s u :=
  ⟨h'.phase.trans h.phase, h'.previous.trans h.previous, h'.active.trans h.active⟩

theorem SameClock.trans {t u : PipelineState} (h : SameClock s t) (h' : SameClock t u) : SameClock s u :=
  ⟨h.toSameSeat.trans h'.toSameSeat, h'.consumed.trans h.consumed⟩

theorem Tallies.books {s' : PipelineState} (h : Tallies s s') : Books s s' := ⟨h.toSameSeat, h.chains⟩

theorem Tallies.refl (s : PipelineState) : Tallies s s := ⟨⟨⟨rfl, rfl, rfl⟩, rfl⟩, rfl⟩

theorem Tallies.trans {t u : PipelineState} (h : Tallies s t) (h' : Tallies t u) : Tallies s u :=
  ⟨h.toSameClock.trans h'.toSameClock, h'.chains.trans h.chains⟩

/-- The deadline leaves room for another attempt of the current phase. -/
def HasRoom (policy : PipelinePolicy) (timing : Option RoutingTiming) (s : PipelineState) : Prop :=
  (applyCycleTimebox s s.phase policy timing).redirected = false

inductive Moves (policy : PipelinePolicy) (timing : Option RoutingTiming) (s : PipelineState) : PipelineState → Prop
  | stays {s' : PipelineState} (tallies : Tallies s s') : Moves policy timing s s'
  | attempts {s' : PipelineState} (clock : SameClock s s') (room : HasRoom policy timing s) : Moves policy timing s s'
  | advances {s₀ s₁ s' : PipelineState} {target : String} {effects : List Effect} (before : Tallies s s₀)
      (advance : Reducer.advancePhase s₀ target policy timing = .ok (s₁, effects)) (after : Tallies s₁ s') :
      Moves policy timing s s'
  | redirects {s₀ s₁ s' : PipelineState} {effects : List Effect} (before : Tallies s s₀)
      (expired : (applyCycleTimebox s₀ s₀.phase policy timing).redirected = true)
      (advance : Reducer.advancePhase (applyCycleTimebox s₀ s₀.phase policy timing).state
        (applyCycleTimebox s₀ s₀.phase policy timing).targetPhase policy timing = .ok (s₁, effects))
      (after : Tallies s₁ s') : Moves policy timing s s'
  | fails {s' : PipelineState} (phase : s'.phase = policy.recovery.failedRoute)
      (previous : s'.previousPhase = some s.phase) (active : s'.cycleTimeboxActive = s.cycleTimeboxActive)
      (consumed : s'.cycleTimeboxConsumedSeconds = s.cycleTimeboxConsumedSeconds) : Moves policy timing s s'

section

variable {policy : PipelinePolicy} {timing : Option RoutingTiming}

variable {s s₀ s' : PipelineState} {handled : Handled}

theorem applyCycleTimebox_redirected (target : String) (h : SameSeat s s₀) :
    (applyCycleTimebox s₀ target policy timing).redirected = (applyCycleTimebox s target policy timing).redirected := by
  unfold applyCycleTimebox
  rw [h.phase, h.active]
  split
  · dsimp only
    split
    · rfl
    · split
      · rfl
      · split <;> rfl
  · rfl

theorem HasRoom.of_seat (h : SameSeat s s₀) (hroom : HasRoom policy timing s₀) : HasRoom policy timing s := by
  unfold HasRoom at *
  rw [← applyCycleTimebox_redirected s.phase h, ← h.phase]
  exact hroom

theorem Moves.of_books (h : Tallies s s₀) (hmoves : Moves policy timing s₀ s') : Moves policy timing s s' := by
  cases hmoves with
  | stays tallies => exact .stays (h.trans tallies)
  | attempts clock room => exact .attempts (h.toSameClock.trans clock) (room.of_seat h.toSameSeat)
  | advances before advance after => exact .advances (h.trans before) advance after
  | redirects before expired advance after => exact .redirects (h.trans before) expired advance after
  | fails phase previous active consumed =>
    exact .fails phase (by rw [previous, h.phase]) (active.trans h.active) (consumed.trans h.consumed)

theorem Moves.then_books {s₁ : PipelineState} (hmoves : Moves policy timing s s₁) (h : Tallies s₁ s') : Moves policy timing s s' := by
  cases hmoves with
  | stays tallies => exact .stays (tallies.trans h)
  | attempts clock room => exact .attempts (clock.trans h.toSameClock) room
  | advances before advance after => exact .advances before advance (after.trans h)
  | redirects before expired advance after => exact .redirects before expired advance (after.trans h)
  | fails phase previous active consumed =>
    exact .fails (h.phase.trans phase) (h.previous.trans previous) (h.active.trans active) (h.consumed.trans consumed)

def MovesTo (policy : PipelinePolicy) (timing : Option RoutingTiming) (s : PipelineState) (handled : Handled) : Prop :=
  ∀ s' effects, handled = .ok (s', effects) → Moves policy timing s s'

theorem movesTo_ok (h : Moves policy timing s s') (effects : List Effect) : MovesTo policy timing s (.ok (s', effects)) := by
  intro t effects' hok
  cases hok
  exact h

theorem movesTo_restored (h : MovesTo policy timing s handled) (restore : PipelineState → PipelineState)
    (hrestore : ∀ t, Tallies t (restore t)) : MovesTo policy timing s (handled >>= fun r => .ok (restore r.1, r.2)) := by
  intro s' effects hok
  obtain ⟨⟨s₁, effects₁⟩, hhandled, hrest⟩ := (bind_eq_ok_iff _ _ _).mp hok
  cases hrest
  exact (h s₁ _ hhandled).then_books (hrestore s₁)

/-- The handler moves the run and does not ask it to exit. -/
def MovesOn (policy : PipelinePolicy) (timing : Option RoutingTiming) (s : PipelineState) (handled : Handled) : Prop :=
  ∀ s' effects, handled = .ok (s', effects) → Moves policy timing s s' ∧ effects.any Effect.isExitFailure = false

theorem MovesOn.movesTo (h : MovesOn policy timing s handled) : MovesTo policy timing s handled :=
  fun s' effects hok => (h s' effects hok).1

theorem movesOn_ok (h : Moves policy timing s s') {effects : List Effect} (hquiet : effects.any Effect.isExitFailure = false) :
    MovesOn policy timing s (.ok (s', effects)) := by
  intro t effects' hok
  cases hok
  exact ⟨h, hquiet⟩

theorem MovesOn.of_books (h : Tallies s s₀) (hmoves : MovesOn policy timing s₀ handled) : MovesOn policy timing s handled :=
  fun s' effects hok => (hmoves s' effects hok).imp_left fun hmoved => hmoved.of_books h

theorem MovesOn.bind {α : Type} {x : Except PyError α} {f : α → Handled} (h : ∀ a, x = .ok a → MovesOn policy timing s (f a)) :
    MovesOn policy timing s (x >>= f) := by
  intro s' effects hok
  obtain ⟨a, ha, hrest⟩ := (bind_eq_ok_iff _ _ _).mp hok
  exact h a ha s' effects hrest

theorem MovesOn.catchValueError {handler : String → Handled}
    (h : MovesOn policy timing s handled) (h' : ∀ text, MovesOn policy timing s (handler text)) :
    MovesOn policy timing s (Lib.catchValueError handled handler) := by
  intro s' effects hok
  unfold Lib.catchValueError at hok
  split at hok
  · exact h' _ s' effects hok
  · exact h s' effects hok

theorem MovesOn.bind_books {f : PipelineState × List Effect → Handled} (h : MovesOn policy timing s handled)
    (hf : ∀ r s' effects, f r = .ok (s', effects) → Tallies r.1 s' ∧ effects = r.2) : MovesOn policy timing s (handled >>= f) := by
  intro s' effects hok
  obtain ⟨⟨s₁, effects₁⟩, hhandled, hrest⟩ := (bind_eq_ok_iff _ _ _).mp hok
  obtain ⟨htallies, rfl⟩ := hf _ s' effects hrest
  exact (h s₁ effects hhandled).imp_left fun hmoved => hmoved.then_books htallies

/-! ## Routing -/

theorem movesOn_advance (s : PipelineState) (target : String) : MovesOn policy timing s (Reducer.advancePhase s target policy timing) := by
  intro s' effects hok
  have hmoves : Moves policy timing s s' := .advances (Tallies.refl s) hok (Tallies.refl s')
  obtain ⟨prepared, _, hresult⟩ := (bind_eq_ok_iff _ _ _).mp hok
  cases hresult
  exact ⟨hmoves, rfl⟩

theorem chargeExecutionCycle_books {counted : PipelineState} {phase : String}
    (h : chargeExecutionCycle counted s phase policy = .ok s') : Tallies s s' := by
  unfold chargeExecutionCycle at h
  split at h
  · cases h
    exact Tallies.refl s
  · obtain ⟨cap, _, hcharged⟩ := (bind_eq_ok_iff _ _ _).mp h
    cases hcharged
    exact ⟨⟨⟨rfl, rfl, rfl⟩, rfl⟩, rfl⟩

section

variable (s : PipelineState)

theorem movesOn_failedRecovery (reason : String) : MovesOn policy timing s (enterFailedRecovery s reason policy) := by
  intro s' effects hok
  unfold enterFailedRecovery at hok
  obtain ⟨charged, hcharge, hresult⟩ := (bind_eq_ok_iff _ _ _).mp hok
  cases hresult
  have hfails : Moves policy timing s { Pipeline.advancePhase s policy.recovery.failedRoute policy with
        lastError := some reason, recoveryEpoch := s.recoveryEpoch + 1 } := .fails rfl rfl rfl rfl
  exact ⟨hfails.then_books (chargeExecutionCycle_books hcharge), rfl⟩

theorem movesOn_resolveOrTerminal (signal : Signal) (label : String) :
    MovesOn policy timing s (resolveOrTerminal s signal policy label timing) := by
  unfold resolveOrTerminal
  split
  · exact movesOn_failedRecovery s _
  · intro s' effects hok
    cases hok
  · exact movesOn_advance s _

theorem movesOn_takeWorkflowFallback (fallback : PhaseWorkflowFallback) (lastError : Option String) :
    MovesOn policy timing s (takeWorkflowFallback s fallback lastError policy timing) := by
  intro s' effects hok
  unfold takeWorkflowFallback at hok
  obtain ⟨⟨prepared, landed⟩, hprepare, hrest⟩ := (bind_eq_ok_iff _ _ _).mp hok
  obtain ⟨charged, hcharge, hresult⟩ := (bind_eq_ok_iff _ _ _).mp hrest
  cases hresult
  have hadvance : Reducer.advancePhase s fallback.target policy timing = .ok (Pipeline.advancePhase prepared landed policy, []) := by
    unfold Reducer.advancePhase
    rw [hprepare]
    rfl
  have hmoves : Moves policy timing s { Pipeline.advancePhase prepared landed policy with lastError := lastError } :=
    .advances (Tallies.refl s) hadvance ⟨⟨⟨rfl, rfl, rfl⟩, rfl⟩, rfl⟩
  exact ⟨hmoves.then_books (chargeExecutionCycle_books hcharge), rfl⟩

theorem redirect_cases : (∃ expired, redirectExpiredCycleInPlace s policy timing = some expired ∧ MovesOn policy timing s expired) ∨
      (redirectExpiredCycleInPlace s policy timing = none ∧ HasRoom policy timing s) := by
  unfold redirectExpiredCycleInPlace
  dsimp only
  split
  · rename_i hredirected
    refine .inl ⟨_, rfl, ?_⟩
    intro s' effects hok
    have hquiet := (movesOn_advance _ _ s' effects hok).2
    exact ⟨.redirects (Tallies.refl s) hredirected hok (Tallies.refl s'), hquiet⟩
  · rename_i hroom
    exact .inr ⟨rfl, by simpa [HasRoom] using hroom⟩

/-! ## Failures -/

theorem movesOn_agentChainExhausted (chain : AgentChainState) : MovesOn policy timing s (agentChainExhausted s chain policy timing) := by
  unfold agentChainExhausted
  split
  · exact movesOn_takeWorkflowFallback s _ _
  · exact movesOn_failedRecovery s _

end

theorem retryOrFallOver_seat {chain : AgentChainState} (h : retryOrFallOver s chain = some s') : SameClock s s' := by
  unfold retryOrFallOver at h
  split at h
  · cases h
    exact ⟨⟨rfl, rfl, rfl⟩, rfl⟩
  · split at h
    · cases h
      exact ⟨⟨rfl, rfl, rfl⟩, rfl⟩
    · cases h

theorem selectionAttempt_seat {chain : AgentChainState} {selection : Option Nat}
    {rc rc' : RecoveryController} (h : selectionAttempt s chain selection rc = (some s', rc')) : SameClock s s' := by
  unfold selectionAttempt at h
  cases selection with
  | some index =>
    cases h
    unfold retryOrFallOverTo
    split <;> exact ⟨⟨rfl, rfl, rfl⟩, rfl⟩
  | none =>
    unfold allAgentsUnavailableWaitState at h
    dsimp only at h
    split at h
    · cases h
      exact ⟨⟨rfl, rfl, rfl⟩, rfl⟩
    · cases h

theorem controlledAttempt_seat {chain : AgentChainState} {spent : Bool}
    {rc rc' : RecoveryController} (h : controlledAttempt s chain spent rc = (some s', rc')) : SameClock s s' :=
  selectionAttempt_seat h

theorem movesOn_skipSameAgentRetries (chain : AgentChainState) (recovery : Option RecoveryController) (hroom : HasRoom policy timing s) :
    MovesOn policy timing s (handleSkipSameAgentRetries s chain policy recovery).result := by
  have hforward : MovesOn policy timing s (if chain.currentIndex + 1 < chain.agents.length then
        .ok ({ s.withPhaseChain s.phase chain.withAdvance with
               metrics := s.metrics.withFallbackIncrement
               lastAgentSessionId := none
               agentRetryIntent := clearedAgentRetryIntent }, [])
      else
        enterFailedRecovery s
          (failureReason s
            (s!"Agent chain exhausted in phase='{s.phase}' after " ++
              "context-exhausted agent requested fallback")) policy) := by
    split
    · refine movesOn_ok ?_ rfl
      exact .attempts ⟨⟨rfl, rfl, rfl⟩, rfl⟩ hroom
    · exact movesOn_failedRecovery s _
  unfold handleSkipSameAgentRetries
  dsimp only
  split
  · exact hforward
  · split
    · intro s' effects hok
      cases hok
    · split
      · rename_i attempted _ hattempt
        exact movesOn_ok (.attempts (controlledAttempt_seat hattempt) hroom) rfl
      · exact hforward

section

variable (s : PipelineState)

theorem movesOn_agentFailure (recovery : Option RecoveryController) :
    MovesOn policy timing s (handleAgentFailure s policy timing recovery).result := by
  unfold handleAgentFailure
  split
  · exact movesOn_failedRecovery s _
  · rename_i chain _
    rcases redirect_cases s with ⟨expired, hexpired, hmoves⟩ | ⟨hnone, hroom⟩
    · rw [hexpired]
      exact hmoves
    · rw [hnone]
      dsimp only
      split
      · exact movesOn_skipSameAgentRetries chain recovery hroom
      · cases recovery with
        | none =>
          dsimp only
          split
          · rename_i hattempt
            exact movesOn_ok (.attempts (retryOrFallOver_seat hattempt) hroom) rfl
          · exact movesOn_agentChainExhausted s chain
        | some rc =>
          dsimp only
          split
          · rename_i hattempt
            exact movesOn_ok (.attempts (controlledAttempt_seat hattempt) hroom) rfl
          · exact movesOn_agentChainExhausted s chain

theorem movesOn_agentRetry : MovesOn policy timing s (handleAgentRetry s policy timing) := by
  unfold handleAgentRetry
  rcases redirect_cases s with ⟨expired, hexpired, hmoves⟩ | ⟨hnone, hroom⟩
  · rw [hexpired]
    exact hmoves
  · rw [hnone]
    dsimp only
    split
    · intro s' effects hok
      cases hok
    · refine movesOn_ok ?_ rfl
      exact .attempts ⟨⟨rfl, rfl, rfl⟩, rfl⟩ hroom

theorem movesOn_handlePhaseFailure (event : PhaseFailureEvent) : MovesOn policy timing s (handlePhaseFailure s event policy timing) := by
  unfold handlePhaseFailure
  dsimp only
  split
  · refine .of_books ?_ (movesOn_agentFailure _ none)
    exact ⟨⟨⟨rfl, rfl, rfl⟩, rfl⟩, rfl⟩
  · split
    · exact movesOn_takeWorkflowFallback s _ _
    · exact movesOn_failedRecovery s _

/-! ## Results, reviews and commits -/

theorem stampForwardOutcome_books (phase : String) : Tallies s (stampForwardOutcome s phase policy) := by
  unfold stampForwardOutcome
  split
  · exact ⟨⟨⟨rfl, rfl, rfl⟩, rfl⟩, rfl⟩
  · exact Tallies.refl s

theorem applyBudgetCounterIncrement_books (s s' : PipelineState) (counter : Option String) :
    Tallies s' (applyBudgetCounterIncrement s s' counter) := by
  unfold applyBudgetCounterIncrement
  split
  · exact Tallies.refl s'
  · split
    · exact Tallies.refl s'
    · exact ⟨⟨⟨rfl, rfl, rfl⟩, rfl⟩, rfl⟩

theorem applyAnalysisSuccess_books (s s' : PipelineState) : Tallies s' (applyAnalysisSuccess s s' policy) := by
  unfold applyAnalysisSuccess
  dsimp only
  split <;> exact ⟨⟨⟨rfl, rfl, rfl⟩, rfl⟩, rfl⟩

theorem applyAnalysisLoopback_books (s s' : PipelineState) (field : String) (cap : Nat) (outcome : Option String)
    (increment : Bool) : Tallies s' (applyAnalysisLoopback s s' field cap outcome increment) := by
  unfold applyAnalysisLoopback
  cases increment <;> cases outcome <;> exact ⟨⟨⟨rfl, rfl, rfl⟩, rfl⟩, rfl⟩

theorem movesOn_analysisSuccess : MovesOn policy timing s (handleAnalysisSuccess s policy timing) := by
  unfold handleAnalysisSuccess
  refine .catchValueError ?_ fun text => movesOn_failedRecovery s _
  refine .bind fun next _ => .bind_books (.of_books (stampForwardOutcome_books s s.phase) (movesOn_advance _ next)) ?_
  intro r s' effects hok
  cases hok
  exact ⟨(applyAnalysisSuccess_books _ r.1).trans (applyBudgetCounterIncrement_books s _ _), rfl⟩

theorem movesOn_agentSuccess : MovesOn policy timing s (handleAgentSuccess s policy timing) := by
  unfold handleAgentSuccess
  generalize hdef : (if 0 < s.lastRetryDelayMs then { s with lastRetryDelayMs := 0 } else s) = s₀
  have hbooks : Tallies s s₀ := by
    rw [← hdef]
    split
    · exact ⟨⟨⟨rfl, rfl, rfl⟩, rfl⟩, rfl⟩
    · exact Tallies.refl s
  refine .of_books hbooks ?_
  dsimp only
  split
  · exact movesOn_failedRecovery s₀ _
  · split
    · refine movesOn_ok ?_ rfl
      exact .stays ⟨⟨⟨rfl, rfl, rfl⟩, rfl⟩, rfl⟩
    · split
      · exact movesOn_analysisSuccess s₀
      · exact movesOn_resolveOrTerminal s₀ _ _

theorem movesOn_executionResult (phase status : String) : MovesOn policy timing s (handleExecutionResult s phase status policy timing) := by
  unfold handleExecutionResult
  split
  · exact movesOn_failedRecovery s _
  · split
    · exact movesOn_failedRecovery s _
    · split
      · refine .of_books ?_ (movesOn_resolveOrTerminal _ _ _)
        exact ⟨⟨⟨rfl, rfl, rfl⟩, rfl⟩, rfl⟩
      · exact movesOn_failedRecovery s _

theorem movesOn_cappedPhaseLoopback (loopPolicy : PhaseLoopPolicy) (outcome : Option String) :
    MovesOn policy timing s (handleCappedPhaseLoopback s policy loopPolicy outcome timing) := by
  refine .bind fun cap _ => ?_
  refine .of_books (applyAnalysisLoopback_books s s loopPolicy.iterationStateField cap outcome
    (!analysisLoopbackIsAlreadyCharged s.phase s policy)) ?_
  dsimp only
  split
  · exact movesOn_failedRecovery _ _
  · intro s' effects hok
    cases hok
  · exact movesOn_advance _ _

theorem movesOn_analysisLoopback : MovesOn policy timing s (handleAnalysisLoopback s policy timing) := by
  unfold handleAnalysisLoopback
  split
  · exact movesOn_failedRecovery s _
  · split
    · split
      · exact movesOn_cappedPhaseLoopback s _ _
      · exact movesOn_resolveOrTerminal s _ _
    · exact movesOn_resolveOrTerminal s _ _

theorem movesOn_phaseLoopback : MovesOn policy timing s (handlePhaseLoopback s policy timing) := by
  unfold handlePhaseLoopback
  split
  · exact movesOn_failedRecovery s _
  · split
    · exact movesOn_cappedPhaseLoopback s _ _
    · exact movesOn_resolveOrTerminal s _ _

end

theorem countDecision_books {phase : String} {phaseDef : PhaseDefinition}
    {route : PhaseDecisionRoute} (h : countDecision s phase phaseDef route policy = .ok s') : Tallies s s' := by
  unfold countDecision at h
  split at h
  · cases h
    exact Tallies.refl s
  · split at h
    · cases h
      exact ⟨⟨⟨rfl, rfl, rfl⟩, rfl⟩, rfl⟩
    · obtain ⟨cap, _, hresult⟩ := (bind_eq_ok_iff _ _ _).mp h
      cases hresult
      exact applyAnalysisLoopback_books s s _ _ _ _

theorem recordDecision_books (s counted : PipelineState) (route : PhaseDecisionRoute) : Tallies counted (recordDecision s counted route) := by
  have hcharged := applyBudgetCounterIncrement_books s counted route.incrementsCounter
  unfold recordDecision
  dsimp only
  split
  · exact hcharged.trans ⟨⟨⟨rfl, rfl, rfl⟩, rfl⟩, rfl⟩
  · exact hcharged

theorem restoreWorkUnits_books (s s' : PipelineState) : Tallies s' (s.restoreWorkUnits s') := by
  unfold PipelineState.restoreWorkUnits
  split
  · exact ⟨⟨⟨rfl, rfl, rfl⟩, rfl⟩, rfl⟩
  · exact Tallies.refl s'

theorem movesTo_restoring (h : MovesTo policy timing s handled) : MovesTo policy timing s (restoring s handled) :=
  movesTo_restored h _ (restoreWorkUnits_books s)

theorem movesOn_restoring (origin : PipelineState) (h : MovesOn policy timing s handled) : MovesOn policy timing s (restoring origin handled) := by
  refine .bind_books h ?_
  intro r s' effects hok
  cases hok
  exact ⟨restoreWorkUnits_books origin r.1, rfl⟩

theorem movesOn_analysisDecision (s : PipelineState) (phase decision : String) :
    MovesOn policy timing s (handleAnalysisDecision s phase decision policy timing) := by
  unfold handleAnalysisDecision
  split
  · exact movesOn_failedRecovery s _
  · split
    · exact movesOn_failedRecovery s _
    · rename_i route _
      refine .bind fun counted hcount => ?_
      refine .of_books ((countDecision_books hcount).trans (recordDecision_books s counted route)) ?_
      dsimp only
      split
      · exact movesOn_failedRecovery _ _
      · exact movesOn_restoring s (movesOn_advance _ _)

theorem movesOn_clearReview (h : MovesOn policy timing s handled)
    (outcome : Option String) : MovesOn policy timing s (clearReview handled outcome) := by
  refine .bind_books h ?_
  intro r s' effects hok
  cases hok
  exact ⟨⟨⟨⟨rfl, rfl, rfl⟩, rfl⟩, rfl⟩, rfl⟩

section

variable (s : PipelineState)

theorem movesOn_reviewClean : MovesOn policy timing s (handleReviewClean s policy timing) := by
  unfold handleReviewClean
  dsimp only
  split
  · exact movesOn_clearReview (movesOn_advance s _) none
  · exact movesOn_clearReview (movesOn_resolveOrTerminal s _ _) none

theorem movesOn_reviewIssuesFound : MovesOn policy timing s (handleReviewIssuesFound s policy timing) := by
  unfold handleReviewIssuesFound
  split
  · exact movesOn_failedRecovery s _
  · split
    · exact movesOn_failedRecovery s _
    · exact movesOn_clearReview (movesOn_resolveOrTerminal s _ _) _

theorem movesOn_fixFailure : MovesOn policy timing s (handleFixFailure s policy timing) := by
  unfold handleFixFailure
  refine .catchValueError ?_ fun text => movesOn_failedRecovery s _
  refine .bind fun next _ => ?_
  split
  · exact movesOn_failedRecovery s _
  · exact movesOn_advance s _

theorem resetLoops_books (fields : List String) : Tallies s (resetLoops s fields) := by
  unfold resetLoops
  induction fields generalizing s with
  | nil => exact Tallies.refl s
  | cons field rest ih =>
    have hreset : Tallies s (s.withLoopIteration field 0) := ⟨⟨⟨rfl, rfl, rfl⟩, rfl⟩, rfl⟩
    exact hreset.trans (ih (s.withLoopIteration field 0))

theorem applyCommitOutcome_books (skipped : Bool) : Tallies s (applyCommitOutcome s s skipped policy) := by
  unfold applyCommitOutcome
  split
  · rename_i lifecycle _
    have hreset := resetLoops_books s lifecycle.loopResets
    unfold applyLifecycleCompletionPolicy
    dsimp only
    split
    · exact hreset
    · split
      · exact hreset
      · exact hreset.trans ⟨⟨⟨rfl, rfl, rfl⟩, rfl⟩, rfl⟩
  · split
    · rename_i commitPolicy _
      have hreset := resetLoops_books s commitPolicy.loopResets
      unfold applyCommitOutcomePolicyDriven
      dsimp only
      split
      · exact hreset
      · split
        · exact hreset.trans ⟨⟨⟨rfl, rfl, rfl⟩, rfl⟩, rfl⟩
        · exact hreset
    · exact Tallies.refl s

end

variable (policy) in
theorem closeCommit_books (s progressState : PipelineState) : Tallies progressState (closeCommit s progressState policy) := by
  unfold closeCommit consumePostCommitPhaseOverride
  dsimp only
  split <;> exact ⟨⟨⟨rfl, rfl, rfl⟩, rfl⟩, rfl⟩

variable (policy) in
theorem applyInvocationGate_books (s : PipelineState) (next : String) : Tallies s (applyInvocationGate s next policy).2.1 := by
  unfold applyInvocationGate
  split
  · exact Tallies.refl s
  · split
    · exact Tallies.refl s
    · split
      · exact Tallies.refl s
      · exact stampForwardOutcome_books s next

theorem movesOn_throughGate (s : PipelineState) (next : String) : MovesOn policy timing s (advanceThroughInvocationGate s next policy timing) := by
  unfold advanceThroughInvocationGate
  have hgate := applyInvocationGate_books policy s next
  generalize applyInvocationGate s next policy = gated at hgate ⊢
  obtain ⟨gatedPhase, gatedState, admitted⟩ := gated
  have hcleared : Tallies gatedState { gatedState with lastExecutionResultStatus := none } := ⟨⟨⟨rfl, rfl, rfl⟩, rfl⟩, rfl⟩
  refine .of_books (hgate.trans hcleared) (.bind_books (movesOn_advance _ gatedPhase) ?_)
  intro r s' effects hrest
  dsimp only at hrest
  split at hrest
  · split at hrest
    · obtain ⟨charged, hcharge, hresult⟩ := (bind_eq_ok_iff _ _ _).mp hrest
      cases hresult
      exact ⟨chargeExecutionCycle_books hcharge, rfl⟩
    · cases hrest
      exact ⟨Tallies.refl _, rfl⟩
  · cases hrest
    exact ⟨Tallies.refl _, rfl⟩

theorem movesOn_commitOutcome (s : PipelineState) (skipped : Bool) (label : String) :
    MovesOn policy timing s (handleCommitOutcome skipped label s policy timing) := by
  unfold handleCommitOutcome
  refine .catchValueError ?_ fun text => movesOn_failedRecovery s _
  have hbooks := (applyCommitOutcome_books s skipped).trans
    (closeCommit_books policy s (applyCommitOutcome s s skipped policy))
  exact .bind fun next _ => .of_books hbooks (movesOn_throughGate _ next)

/-! ## Workers -/

theorem updateWorker_books (s : PipelineState) (unitId : String) (update : WorkerState → WorkerState) :
    Tallies s (updateWorker s unitId update) := by
  unfold updateWorker
  split <;> exact ⟨⟨⟨rfl, rfl, rfl⟩, rfl⟩, rfl⟩

theorem movesOn_allWorkersComplete (s : PipelineState) : MovesOn policy timing s (handleAllWorkersComplete s policy timing) := by
  unfold handleAllWorkersComplete
  dsimp only
  split
  · exact movesOn_ok (.stays (Tallies.refl s)) rfl
  · split
    · exact movesOn_failedRecovery s _
    · split
      · exact movesOn_ok (.stays (Tallies.refl s)) rfl
      · refine .catchValueError ?_ fun text => movesOn_failedRecovery s _
        exact .bind fun next _ => movesOn_advance s next

theorem movesOn_postFanoutVerification (s : PipelineState) (success : Bool) (exitCode : Option Int) (error : Option String) :
    MovesOn policy timing s (reducePostFanoutVerification s success exitCode error policy) := by
  unfold reducePostFanoutVerification
  split
  · exact movesOn_ok (.stays (Tallies.refl s)) rfl
  · refine .bind fun r hr => movesOn_ok ?_ rfl
    exact (movesOn_failedRecovery s _ r.1 r.2 hr).1.then_books (restoreWorkUnits_books s r.1)

end

end RalphWorkflow.Movement

/-! ## Passing over exhausted phases

Where the bypass of an advance leads, and that it moves nothing but counters and the verdict.
-/

namespace RalphWorkflow.Movement

open Lib Policy Recovery
open Pipeline Pipeline.Reducer


def PassStep (policy : PipelinePolicy) (phase next : String) : Prop :=
  ∃ phaseDef, policy.phases.get? phase = some phaseDef ∧ phaseDef.loopPolicy.isSome = true ∧
    phaseDef.transitions.onSuccess = next

def PassedOver (policy : PipelinePolicy) : String → String → Prop := Relation.ReflTransGen (PassStep policy)

section

variable {policy : PipelinePolicy}

theorem passStep_of_skip {state next : PipelineState} {phase : String} {skip : ExhaustedAnalysisSkip}
    (h : skipIfExhausted state phase policy = .ok (some (skip, next))) : PassStep policy phase skip.targetPhase := by
  obtain ⟨loopPolicy, _, hloop, _, _, htarget, _⟩ := skipIfExhausted_eq_some h
  obtain ⟨phaseDef, hphase, hsuccess⟩ := resolveNextPhase_success_eq_ok htarget
  rw [hphase] at hloop
  have hsome : phaseDef.loopPolicy = some loopPolicy := hloop
  exact ⟨phaseDef, hphase, by rw [hsome]; rfl, hsuccess⟩

theorem skipAnalysis_books (s : PipelineState) (phase field : String) : Tallies s (skipAnalysis s phase field policy) := by
  have hreset : Tallies s { s.withLoopIteration field 0 with reviewOutcome := none } := ⟨⟨⟨rfl, rfl, rfl⟩, rfl⟩, rfl⟩
  exact hreset.trans (stampForwardOutcome_books _ phase)

theorem skip_books {state next : PipelineState} {phase : String} {skip : ExhaustedAnalysisSkip}
    (h : skipIfExhausted state phase policy = .ok (some (skip, next))) : Tallies state next := by
  obtain ⟨loopPolicy, _, _, _, _, _, hnext⟩ := skipIfExhausted_eq_some h
  rw [hnext]
  exact skipAnalysis_books state phase loopPolicy.iterationStateField

theorem bypass_passes {s : PipelineState} {target : String} {bypass : ExhaustedAnalysisBypassResult}
    (h : resolveExhaustedAnalysisBypass s target policy = .ok bypass) :
    Tallies s bypass.state ∧ PassedOver policy target bypass.targetPhase ∧
      (bypass.skipped = [] → bypass.targetPhase = target) := by
  refine exhaustedAnalysisBypassFrom_invariant (fun state phase skipped => Tallies s state ∧ PassedOver policy target phase ∧
      (skipped = [] → phase = target)) ?_ ⟨Tallies.refl s, .refl, fun _ => rfl⟩ h
  rintro state phase skipped skip next ⟨hbooks, hpassed, _⟩ hskip
  exact ⟨hbooks.trans (skip_books hskip), hpassed.tail (passStep_of_skip hskip), fun hnil => by simp at hnil⟩

theorem ownBypass_passes {s : PipelineState} {target : String} {bypass : ExhaustedAnalysisBypassResult}
    (h : ownBypass s target policy = .ok (some bypass)) :
    Tallies s bypass.state ∧ PassedOver policy target bypass.targetPhase ∧ bypass.skipped ≠ [] := by
  obtain ⟨_, hsuccess, hown, hskipped⟩ := ownBypass_eq_some_iff.mp h
  have hinv := exhaustedAnalysisBypassFrom_invariant (fun state phase skipped => Tallies s state ∧
      (skipped = [] ∧ phase = s.phase ∨ PassedOver policy target phase)) ?_
    ⟨Tallies.refl s, .inl ⟨rfl, rfl⟩⟩ hown
  · rcases hinv with ⟨hbooks, ⟨hnil, _⟩ | hpassed⟩
    · exact absurd hnil hskipped
    · exact ⟨hbooks, hpassed, hskipped⟩
  · rintro state phase skipped skip next ⟨hbooks, hwhere⟩ hskip
    refine ⟨hbooks.trans (skip_books hskip), .inr ?_⟩
    rcases hwhere with ⟨_, rfl⟩ | hpassed
    · -- the first pass leaves the phase of the run for the target itself
      obtain ⟨_, _, _, _, _, hnext, _⟩ := skipIfExhausted_eq_some hskip
      rw [hsuccess] at hnext
      rw [← Except.ok.inj hnext]
      exact .refl
    · exact hpassed.tail (passStep_of_skip hskip)

theorem resolvesBypass_passes {s : PipelineState} {target : String} {bypass : ExhaustedAnalysisBypassResult}
    (h : ResolvesBypass s target policy bypass) :
    Tallies s bypass.state ∧ PassedOver policy target bypass.targetPhase ∧
      (bypass.skipped = [] → bypass.targetPhase = target) := by
  rcases h with hown | ⟨_, hplain⟩
  · obtain ⟨hbooks, hpassed, hskipped⟩ := ownBypass_passes hown
    exact ⟨hbooks, hpassed, fun hnil => absurd hnil hskipped⟩
  · exact bypass_passes hplain

end

end RalphWorkflow.Movement
