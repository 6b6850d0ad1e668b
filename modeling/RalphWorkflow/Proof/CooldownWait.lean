import RalphWorkflow.Proof.Controller.Progression

/-! When every agent of the chain is on cooldown after a failure, the run waits in its phase, and the wait ends when the
first of them comes off its cooldown. -/
namespace RalphWorkflow.Controller
open Lib Policy Recovery Movement Pipeline List RecoveryController

/-! ## The length of the wait -/

section

variable {rc rc' : RecoveryController} {phase : String} {nowMs : Int} {agent : String} {agents : List String}

theorem earliestWait_from {tracker : AgentUnavailabilityTracker} (best : Int) (hbest : 0 < best) (hcooling : ∀ agent ∈ agents, ∃ untilMs,
      tracker.unavailableUntilMs.get? (agentKey phase agent) = some untilMs ∧ nowMs < untilMs) :
    0 < tracker.earliestUnavailableWaitMs phase nowMs agents (some best) ∧
      (tracker.earliestUnavailableWaitMs phase nowMs agents (some best) = best ∨
        ∃ agent ∈ agents, tracker.unavailableUntilMs.get? (agentKey phase agent) =
          some (nowMs + tracker.earliestUnavailableWaitMs phase nowMs agents (some best))) := by
  induction agents generalizing best with
  | nil =>
    unfold AgentUnavailabilityTracker.earliestUnavailableWaitMs
    simp only [Option.getD_some]
    omega
  | cons first rest ih =>
    obtain ⟨untilMs, hentry, hlt⟩ := hcooling first mem_cons_self
    have hrest : ∀ agent ∈ rest, ∃ untilMs, tracker.unavailableUntilMs.get? (agentKey phase agent) = some untilMs ∧ nowMs < untilMs :=
      fun agent hmem => hcooling agent (mem_cons_of_mem _ hmem)
    unfold AgentUnavailabilityTracker.earliestUnavailableWaitMs
    rw [hentry]
    simp only [if_pos hlt]
    by_cases hshorter : untilMs - nowMs < best
    · rw [if_pos hshorter]
      obtain ⟨hpos, hreached⟩ := ih (untilMs - nowMs) (by omega) hrest
      refine ⟨hpos, .inr ?_⟩
      rcases hreached with hfirst | ⟨agent, hmem, hagent⟩
      · refine ⟨first, mem_cons_self, ?_⟩
        rw [hfirst, hentry]
        congr 1
        omega
      · exact ⟨agent, mem_cons_of_mem _ hmem, hagent⟩
    · rw [if_neg hshorter]
      obtain ⟨hpos, hreached⟩ := ih _ hbest hrest
      refine ⟨hpos, hreached.imp_right ?_⟩
      rintro ⟨agent, hmem, hagent⟩
      exact ⟨agent, mem_cons_of_mem _ hmem, hagent⟩

theorem earliestUnavailableWaitMs_ends (hagents : agents ≠ []) (hcooling : ∀ agent ∈ agents, offCooldown rc phase nowMs agent = false) :
    0 < rc.tracker.earliestUnavailableWaitMs phase nowMs agents none ∧
      ∃ agent ∈ agents, offCooldown rc phase
        (nowMs + rc.tracker.earliestUnavailableWaitMs phase nowMs agents none) agent = true := by
  have hentries := fun agent hmem => offCooldown_eq_false_iff.mp (hcooling agent hmem)
  cases agents with
  | nil => exact absurd rfl hagents
  | cons first rest =>
    obtain ⟨untilMs, hentry, hlt⟩ := hentries first mem_cons_self
    have hwait : rc.tracker.earliestUnavailableWaitMs phase nowMs (first :: rest) none =
        rc.tracker.earliestUnavailableWaitMs phase nowMs rest (some (untilMs - nowMs)) := by
      conv_lhs => unfold AgentUnavailabilityTracker.earliestUnavailableWaitMs
      rw [hentry]
      simp only [if_pos hlt]
    obtain ⟨hpos, hreached⟩ := earliestWait_from (untilMs - nowMs) (by omega)
      (fun agent hmem => hentries agent (mem_cons_of_mem _ hmem))
    rw [hwait]
    refine ⟨hpos, ?_⟩
    rcases hreached with hfirst | ⟨agent, hmem, hagent⟩
    · refine ⟨first, mem_cons_self, ?_⟩
      unfold offCooldown
      rw [hentry, hfirst]
      simp
    · refine ⟨agent, mem_cons_of_mem _ hmem, ?_⟩
      unfold offCooldown
      rw [hagent]
      simp

theorem anyAgentAvailable_cooling (hcooling : ∀ agent ∈ agents, offCooldown rc phase nowMs agent = false)
    (hclock : ∀ n, n < (rc.anyAgentAvailable phase agents).2.reads → rc.clock n ≤ nowMs) :
    (rc.anyAgentAvailable phase agents).1 = false := by
  induction agents generalizing rc with
  | nil => rfl
  | cons first rest ih =>
    obtain ⟨untilMs, hentry, hlt⟩ := offCooldown_eq_false_iff.mp (hcooling first mem_cons_self)
    have hasked : rc.isAgentAvailable phase first = (decide (untilMs ≤ rc.clock rc.reads), rc.readClock.2) := by
      unfold isAgentAvailable
      rw [hentry]
      rfl
    unfold anyAgentAvailable at hclock ⊢
    rw [hasked] at hclock ⊢
    dsimp only at hclock ⊢
    by_cases hended : untilMs ≤ rc.clock rc.reads
    · rw [if_pos (by simpa using hended)] at hclock
      have hreading := hclock rc.reads (Nat.lt_succ_self _)
      omega
    · rw [if_neg (by simpa using hended)] at hclock ⊢
      exact ih (fun agent hmem => hcooling agent (mem_cons_of_mem _ hmem)) hclock

theorem selectAgent_cooling {chain : AgentChainState} {current : Option String} {maxRetries : Nat} {useBudget : Bool}
    (hclock : Monotone rc.clock) (hnow : rc.clock rc.reads ≤ nowMs)
    (hcooling : ∀ agent ∈ chain.agents, offCooldown rc phase nowMs agent = false) :
    (rc.selectAgent phase chain current maxRetries useBudget).1 = none := by
  have hnoted := noteIfSpent_later rc phase current (rc.allowanceSpent phase chain current maxRetries useBudget)
  have hreads : (rc.noteIfSpent phase current (rc.allowanceSpent phase chain current maxRetries useBudget)).reads = rc.reads := by
    unfold noteIfSpent
    split
    · split <;> rfl
    · rfl
  unfold selectAgent
  rw [preferredAgentIndex_eq_none_iff (by rw [hnoted.clock]; exact hclock)]
  intro j agent hget
  unfold eligible
  rw [hreads, hnoted.clock, offCooldown_congr hnoted.tracker,
    offCooldown_earlier hnow (hcooling agent (mem_of_getElem? hget))]
  rfl

end

/-! ## The waiting state -/

section

variable {rc rc₁ : RecoveryController} {s noted : PipelineState} {raw : RawFailure} {context : FailureContext}
  {failure : ClassifiedFailure} {chain : AgentChainState} {maxRetries : Nat} {useBudget : Bool}

def lastReading (rc : RecoveryController) : Int := rc.clock (rc.reads - 1)

theorem clock_le_lastReading (hclock : Monotone rc.clock) {n : Nat} (hn : n < rc.reads) : rc.clock n ≤ lastReading rc := hclock (by omega)

theorem retryProgression_unselected (hchain : s.chainForPhase context.phase = some chain) {rc₂ : RecoveryController}
    (hnone : rc.selectAgent context.phase chain
      (handleRetryProgression.firstAgent context.agent chain) maxRetries useBudget = (none, rc₂)) :
    rc.handleRetryProgression s failure context.phase context.agent context.retryInSession maxRetries useBudget =
      if (rc₂.anyAgentAvailable context.phase chain.agents).1 then
        (rc₂.anyAgentAvailable context.phase chain.agents).2.exhaustChain s failure
      else (rc₂.anyAgentAvailable context.phase chain.agents).2.applyWait s context.phase chain failure := by
  unfold handleRetryProgression
  rw [hchain]
  dsimp only
  rw [hnone]

def waitingState (s : PipelineState) (failure : ClassifiedFailure) (waitMs : Int) : PipelineState :=
  { s with
    lastError := some (waitingReason failure)
    lastRetryDelayMs := waitMs
    isWaitingState := true }

theorem applyWait_cooling (hclock : Monotone rc.clock) (hcooling : ∀ agent ∈ chain.agents, offCooldown rc context.phase
      (lastReading (rc.applyWait s context.phase chain failure).controller) agent = false) :
    (rc.applyWait s context.phase chain failure).result = .ok (waitingState s failure
      (rc.tracker.earliestUnavailableWaitMs context.phase
        (lastReading (rc.applyWait s context.phase chain failure).controller) chain.agents none), []) := by
  have hany := (anyAgentAvailable_reads rc context.phase chain.agents).later
  have hunavailable : (rc.anyAgentAvailable context.phase chain.agents).1 = false := by
    apply anyAgentAvailable_cooling hcooling
    intro n hn
    have hlater := (earliestAvailableWaitMs_reads rc context.phase chain.agents).later
    have hreached : (rc.anyAgentAvailable context.phase chain.agents).2.reads ≤ (rc.applyWait s context.phase chain failure).controller.reads := by
      unfold applyWait earliestAvailableWaitMs
      dsimp only
      split
      · exact le_refl _
      · exact Nat.le_succ _
    have hreading := clock_le_lastReading
      (by rw [show (rc.applyWait s context.phase chain failure).controller.clock = rc.clock from hlater.clock]
          exact hclock) (lt_of_lt_of_le hn hreached)
    rwa [show (rc.applyWait s context.phase chain failure).controller.clock = rc.clock from hlater.clock] at hreading
  have hwait : rc.earliestAvailableWaitMs context.phase chain.agents =
      ((rc.anyAgentAvailable context.phase chain.agents).2.tracker.earliestUnavailableWaitMs context.phase
        ((rc.anyAgentAvailable context.phase chain.agents).2.clock
          (rc.anyAgentAvailable context.phase chain.agents).2.reads) chain.agents none,
        (rc.anyAgentAvailable context.phase chain.agents).2.readClock.2) := by
    unfold earliestAvailableWaitMs
    dsimp only
    rw [if_neg (by simp [hunavailable])]
    rfl
  unfold applyWait
  dsimp only
  rw [hwait, hany.tracker]
  rfl

theorem retryProgression_waits (hclock : Monotone rc.clock) (hchain : s.chainForPhase context.phase = some chain)
    (hcooling : ∀ agent ∈ chain.agents,
      offCooldown rc context.phase (lastReading (rc.handleRetryProgression s failure context.phase context.agent
        context.retryInSession maxRetries useBudget).controller) agent = false) :
    (rc.handleRetryProgression s failure context.phase context.agent context.retryInSession maxRetries
      useBudget).result = .ok (waitingState s failure (rc.tracker.earliestUnavailableWaitMs context.phase
        (lastReading (rc.handleRetryProgression s failure context.phase context.agent context.retryInSession maxRetries
          useBudget).controller) chain.agents none), []) := by
  obtain ⟨hselect, hread⟩ := selectAgent_later rc context.phase chain
    (handleRetryProgression.firstAgent context.agent chain) maxRetries useBudget
  have hafter := @retryProgression_later_selection rc _ _ failure _ maxRetries useBudget hchain
  -- the clock is read at selection, before the last reading
  have hnow := clock_le_lastReading (by rw [hafter.clock, hselect.clock]; exact hclock)
    (lt_of_lt_of_le hread hafter.reads)
  rw [hafter.clock, hselect.clock] at hnow
  have hnone := @selectAgent_cooling _ _ _ _ (handleRetryProgression.firstAgent context.agent chain) maxRetries useBudget hclock hnow hcooling
  obtain ⟨rc₂, hselected⟩ : ∃ rc₂, rc.selectAgent context.phase chain
      (handleRetryProgression.firstAgent context.agent chain) maxRetries useBudget = (none, rc₂) :=
    ⟨_, Prod.ext hnone rfl⟩
  rw [hselected] at hselect
  dsimp only at hselect
  have hclock₂ : Monotone rc₂.clock := by
    rw [hselect.clock]
    exact hclock
  have hany := (anyAgentAvailable_reads rc₂ context.phase chain.agents).later
  rw [retryProgression_unselected hchain hselected] at hcooling ⊢
  have hcooling₂ : ∀ now, (∀ agent ∈ chain.agents, offCooldown rc context.phase now agent = false) →
      ∀ agent ∈ chain.agents, offCooldown rc₂ context.phase now agent = false := by
    intro now hcooling agent hmem
    rw [offCooldown_congr hselect.tracker]
    exact hcooling agent hmem
  have hunavailable : (rc₂.anyAgentAvailable context.phase chain.agents).1 = false := by
    refine anyAgentAvailable_cooling (hcooling₂ _ hcooling) ?_
    intro n hn
    have hended : Later (rc₂.anyAgentAvailable context.phase chain.agents).2 (if (rc₂.anyAgentAvailable context.phase chain.agents).1 = true then
          (rc₂.anyAgentAvailable context.phase chain.agents).2.exhaustChain s failure
        else (rc₂.anyAgentAvailable context.phase chain.agents).2.applyWait s context.phase chain failure).controller := by
      split
      · exact exhaustChain_later _ s failure
      · exact (earliestAvailableWaitMs_reads _ context.phase chain.agents).later
    have hclock' := hended.clock.trans hany.clock
    have hreading := clock_le_lastReading (by rw [hclock']; exact hclock₂) (lt_of_lt_of_le hn hended.reads)
    rwa [hclock'] at hreading
  rw [if_neg (by simp [hunavailable])] at hcooling ⊢
  have hwait := applyWait_cooling (s := s) (by rw [hany.clock]; exact hclock₂)
    (fun agent hmem => by rw [offCooldown_congr hany.tracker]; exact hcooling₂ _ hcooling agent hmem)
  rw [hwait, hany.tracker, hselect.tracker]

theorem enforceCap_waiting {outcome : RecoveryController.Outcome} {s' : PipelineState}
    (hresult : outcome.result = .ok (s', [])) (hcap : outcome.controller.cap.isExceeded s'.recoveryCycleCount = false) :
    (enforceCap outcome failure).result = .ok (s', []) := by
  unfold enforceCap
  rw [hresult]
  dsimp only
  rw [if_neg (by simp [hcap]), hresult]

end

def readAt (rc : RecoveryController) (nowMs : Int) : RecoveryController := { rc with clock := fun _ => nowMs }

/-- With every agent on cooldown the run waits in its phase until the first comes off it. -/
theorem cooling_chain_waits (rc : RecoveryController) (s : PipelineState) (raw : RawFailure) (context : FailureContext)
    (chain : AgentChainState) (hclock : Monotone rc.clock) (hchain : s.chainForPhase context.phase = some chain)
    (hagents : chain.agents ≠ []) (hgoes : (progression rc s raw context).isSome)
    (hcap : rc.cap.isExceeded s.recoveryCycleCount = false)
    (hcooling : ∀ agent ∈ chain.agents, offCooldown (rc.handle s raw context).controller context.phase
      (lastReading (rc.handle s raw context).controller) agent = false) :
    ∃ s', (rc.handle s raw context).result = .ok (s', []) ∧ s'.phase = s.phase ∧
      s'.recoveryCycleCount = s.recoveryCycleCount ∧ s'.isWaitingState = true ∧ 0 < s'.lastRetryDelayMs ∧
      ∃ rc', rc' = readAt (rc.handle s raw context).controller (lastReading (rc.handle s raw context).controller + s'.lastRetryDelayMs) ∧
        (∃ agent ∈ chain.agents, (rc'.isAgentAvailable context.phase agent).1 = true) ∧
        (∀ index, (rc'.preferredAgentIndex context.phase chain.agents none false).1 = some index ↔
          Preferred rc' context.phase (rc'.clock rc'.reads) chain.agents index) ∧
        ((rc'.preferredAgentIndex context.phase chain.agents none false).1 = none ↔
          ∀ agent ∈ chain.agents, (rc'.isAgentAvailable context.phase agent).1 = true →
            agent ∈ rc'.spentAgents.getD context.phase []) := by
  obtain ⟨⟨rc₁, maxRetries, useBudget⟩, hprogression⟩ := Option.isSome_iff_exists.mp hgoes
  obtain ⟨noted, hbooks, hhandle⟩ := handle_progresses hprogression
  have htracked : noted.chainForPhase context.phase = some chain := by
    unfold PipelineState.chainForPhase
    rw [hbooks.2.1]
    exact hchain
  have hclock₁ : Monotone rc₁.clock := by
    rw [progression_clock hprogression]
    exact hclock
  have hcontroller : (rc.handle s raw context).controller = (rc₁.handleRetryProgression noted
      (classified rc s raw context) context.phase context.agent context.retryInSession maxRetries
      useBudget).controller := by
    rw [hhandle]
    split
    · rfl
    · exact enforceCap_controller _ _
  have hlater := @retryProgression_later rc₁ _ _ (classified rc s raw context) _ maxRetries useBudget htracked
  have hwaits := @retryProgression_waits _ _ _ (classified rc s raw context) _ maxRetries useBudget hclock₁ htracked
  rw [← hcontroller] at hlater hwaits
  have hwaits := hwaits fun agent hmem => by
    rw [← offCooldown_congr hlater.tracker]
    exact hcooling agent hmem
  obtain ⟨hpositive, agent, hmem, hawake⟩ := earliestUnavailableWaitMs_ends hagents hcooling
  rw [hlater.tracker] at hpositive hawake
  have hphase := congrArg PipelineState.phase hbooks.1
  have hresult : (rc.handle s raw context).result = .ok (waitingState noted (classified rc s raw context)
      (rc₁.tracker.earliestUnavailableWaitMs context.phase (lastReading (rc.handle s raw context).controller)
        chain.agents none), []) := by
    rw [congrArg RecoveryController.Outcome.result hhandle]
    split
    · exact hwaits
    · refine enforceCap_waiting hwaits ?_
      rw [← hcontroller, hlater.cap, (Prod.mk.inj (progression_setup hprogression)).2]
      exact (congrArg rc.cap.isExceeded hbooks.2.2.1).trans hcap
  refine ⟨_, hresult, hphase, hbooks.2.2.1, rfl, hpositive, _, rfl, ?_, ?_, ?_⟩
  · refine ⟨agent, hmem, ?_⟩
    rw [isAgentAvailable_eq]
    exact hawake
  · intro index
    exact preferredAgentIndex_anew (fun _ _ _ => le_refl _) index
  · rw [preferredAgentIndex_anew_none (fun _ _ _ => le_refl _)]
    simp only [isAgentAvailable_eq, ready]
    simp

/-! ## A spent agent, and a reached cap -/

def outOfCredits : ClassifiedFailure where
  category := .agent
  reason := "agent failure: subscription limit reached"
  countsAgainstBudget := true
  isUnavailable := true
  unavailabilityReason := some .outOfCredits

theorem one_le_five : 1 ≤ 5 := by decide

def lone : RecoveryController where
  cap := ⟨5, one_le_five⟩
  classify := fun _ _ _ _ => outOfCredits
  clock := fun _ => 1000

/-- One agent, retried `retries` times for technical failures, in a run that has spent `count` recovery cycles. -/
def soleAgent (retries count : Nat) : PipelineState where
  phase := "development"
  phaseChains := Dict.ofList [("development", { agents := ["claude"], retries := retries })]
  recoveryCycleCount := count

def soleFailure : FailureContext where
  phase := "development"
  agent := some "claude"

theorem soleAgent_waits : ∃ s', (lone.handle (soleAgent 0 0) (.message "subscription limit reached") soleFailure).result =
    .ok (s', []) ∧ s'.phase = "development" := by
  obtain ⟨s', hresult, hphase, -⟩ := cooling_chain_waits lone (soleAgent 0 0) (.message "subscription limit reached")
    soleFailure { agents := ["claude"] } (fun _ _ _ => le_refl _) rfl (by decide) (by decide) (by decide)
    (by decide +kernel)
  exact ⟨s', hresult, hphase⟩

/-- What a call of `handle` returns of the delay and of exits. -/
def outcomeOf (outcome : RecoveryController.Outcome) : Option (Int × List Bool) :=
  outcome.result.toOption.map fun r => (r.1.lastRetryDelayMs, r.2.map Effect.isExitFailure)

/-- An agent without retries is not selected after the wait, and at the cap there is no wait. -/
theorem soleAgent_unselected :
    let spent := lone.handle (soleAgent 3 0) (.message "subscription limit reached") soleFailure
    let capped := lone.handle (soleAgent 0 5) (.message "subscription limit reached") soleFailure
    (progression lone (soleAgent 3 0) (.message "subscription limit reached") soleFailure).isSome = true ∧
    offCooldown spent.controller "development" 1000 "claude" = false ∧ outcomeOf spent = some (60000, []) ∧
    ((readAt spent.controller (1000 + 60000)).preferredAgentIndex "development" ["claude"] none false).1 = none ∧
    (progression lone (soleAgent 0 5) (.message "subscription limit reached") soleFailure).isSome = true ∧
    offCooldown capped.controller "development" 1000 "claude" = false ∧ outcomeOf capped = some (0, [true]) := by
  decide +kernel

end RalphWorkflow.Controller
