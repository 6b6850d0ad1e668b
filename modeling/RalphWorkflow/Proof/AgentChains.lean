import RalphWorkflow.Pipeline.RunLoop
import RalphWorkflow.Proof.Controller.Progression

/-! A run moves through the agents of a phase chain by failures, waits and reselections. The index of a chain stays inside
its list, and an attempt that the controller schedules goes to the first agent of the chain that is ready. -/
namespace RalphWorkflow.AgentChains
open Lib Policy Recovery Controller Movement Option
open Pipeline Pipeline.Reducer

/-! ## Leaving a phase keeps the chains -/

section

variable {policy : PipelinePolicy} {timing : Option RoutingTiming}

theorem applyCycleTimebox_chains (s : PipelineState) (target : String) :
    (applyCycleTimebox s target policy timing).state.phaseChains = s.phaseChains := by
  rcases applyCycleTimebox_cases s target policy timing with h | ⟨ct, t, _, _, h⟩
  · rw [h]
  · rcases h with ⟨_, _, h⟩ | ⟨_, _, _, h⟩ | ⟨_, _, _, h⟩
    all_goals
      rw [h]
      rfl

theorem skipAnalysis_chains (s : PipelineState) (phase field : String) : (skipAnalysis s phase field policy).phaseChains = s.phaseChains := by
  unfold skipAnalysis stampForwardOutcome
  split <;> rfl

theorem bypassFrom_chains {fuel : Nat} {s : PipelineState} {target : String} {skipped : List ExhaustedAnalysisSkip}
    {visited : List String} {bypass : ExhaustedAnalysisBypassResult}
    (h : exhaustedAnalysisBypassFrom policy fuel s target skipped visited = .ok bypass) :
    bypass.state.phaseChains = s.phaseChains := by
  refine exhaustedAnalysisBypassFrom_invariant (fun state _ _ => state.phaseChains = s.phaseChains) ?_ rfl h
  intro state phase _ skip next hsame hskip
  obtain ⟨loopPolicy, _, _, _, _, _, rfl⟩ := skipIfExhausted_eq_some hskip
  exact (skipAnalysis_chains state phase loopPolicy.iterationStateField).trans hsame

variable (policy timing) in
theorem bypassedTiming_chains (bypass : ExhaustedAnalysisBypassResult) (justStarted : Bool) :
    (withBypassedCycleTiming bypass policy timing justStarted).1.phaseChains = bypass.state.phaseChains := by
  unfold withBypassedCycleTiming
  split
  · rfl
  · dsimp only
    unfold startCycleForBypassedStartSource
    have htimed := @applyCycleTimebox_chains policy timing bypass.state bypass.targetPhase
    split
    · exact htimed
    · split <;> exact htimed

theorem prepare_chains {s prepared : PipelineState} {target landed : String}
    (h : preparePhaseAdvance s target policy timing = .ok (prepared, landed)) :
    prepared.phaseChains = s.phaseChains := by
  obtain ⟨bypass, hbypass, hprepared⟩ := preparePhaseAdvance_eq_ok h
  have hbypassed : bypass.state.phaseChains = s.phaseChains := by
    rw [← applyCycleTimebox_chains s target]
    rcases hbypass with hown | ⟨_, hplain⟩
    · exact bypassFrom_chains (ownBypass_eq_some_iff.mp hown).2.2.1
    · exact bypassFrom_chains hplain
  have htimed := bypassedTiming_chains policy timing bypass
    (applyCycleTimebox s target policy timing).timingStarted
  rw [← (Prod.mk.inj hprepared).1, ← hbypassed, ← htimed]
  unfold concludeCycleOnRouteOutOfCycle
  split
  · rfl
  · split <;> rfl

theorem charge_chains {counted s s' : PipelineState} {phase : String}
    (h : chargeExecutionCycle counted s phase policy = .ok s') : s'.phaseChains = s.phaseChains := by
  unfold chargeExecutionCycle at h
  split at h
  · cases h
    rfl
  · obtain ⟨cap, _, hresult⟩ := (bind_eq_ok_iff _ _ _).mp h
    cases hresult
    rfl

variable {s s' : PipelineState} {effects : List Effect}

theorem failedRecovery_chains {reason : String} (h : enterFailedRecovery s reason policy = .ok (s', effects)) : s'.phaseChains = s.phaseChains := by
  obtain ⟨charged, hcharge, hresult⟩ := (bind_eq_ok_iff _ _ _).mp h
  cases hresult
  have hcharged := charge_chains hcharge
  exact hcharged

theorem fallback_chains {fallback : PhaseWorkflowFallback} {lastError : Option String}
    (h : takeWorkflowFallback s fallback lastError policy timing = .ok (s', effects)) :
    s'.phaseChains = s.phaseChains := by
  obtain ⟨⟨prepared, landed⟩, hprepare, hrest⟩ := (bind_eq_ok_iff _ _ _).mp h
  obtain ⟨charged, hcharge, hresult⟩ := (bind_eq_ok_iff _ _ _).mp hrest
  cases hresult
  have hcharged := charge_chains hcharge
  have hprepared := prepare_chains hprepare
  exact Eq.trans hcharged hprepared

theorem redirect_chains {expired : Handled} (hexpired : redirectExpiredCycleInPlace s policy timing = some expired)
    (h : expired = .ok (s', effects)) : s'.phaseChains = s.phaseChains := by
  unfold redirectExpiredCycleInPlace at hexpired
  dsimp only at hexpired
  split at hexpired
  · cases hexpired
    obtain ⟨prepared, landed, hprepare, rfl⟩ := advancePhase_eq_ok h
    exact (prepare_chains hprepare).trans (applyCycleTimebox_chains s s.phase)
  · cases hexpired

theorem exhausted_chains {chain : AgentChainState} (h : agentChainExhausted s chain policy timing = .ok (s', effects)) :
    s'.phaseChains = s.phaseChains := by
  unfold agentChainExhausted at h
  split at h
  · exact fallback_chains h
  · exact failedRecovery_chains h

end

/-! ## Runs over the agents -/

structure Bench where
  state : PipelineState
  controller : RecoveryController

/-- A failure for the controller or the reducer, a success, a wait of the run loop, a reselection. -/
inductive Act
  | fails (raw : RawFailure) (context : FailureContext)
  | reduces (policy : PipelinePolicy) (timing : Option RoutingTiming)
  | succeeds (phase : String) (agent : Option String)
  | waits (script : TurnScript)
  | reselects

def keptOnRaise (s : PipelineState) : Except PyError (PipelineState × List Effect) → PipelineState
  | .ok (s', _) => s'
  | .error _ => s

def perform (b : Bench) : Act → Bench
  | .fails raw context =>
    let outcome := b.controller.handle b.state raw context
    { state := keptOnRaise b.state outcome.result, controller := outcome.controller }
  | .reduces policy timing =>
    let reduced := Reducer.handleAgentFailure b.state policy timing (some b.controller)
    { state := keptOnRaise b.state reduced.result, controller := reduced.recovery.getD b.controller }
  | .succeeds phase agent => { b with controller := b.controller.resetBackoff phase agent }
  | .waits script =>
    let slept := sleepOffDelay b.state (some b.controller) script
    { state := slept.1, controller := slept.2.getD b.controller }
  | .reselects =>
    let selected := reselectPreferredAgent b.state (some b.controller)
    { state := selected.1, controller := selected.2.getD b.controller }

def performs (b : Bench) (acts : List Act) : Bench := acts.foldl perform b

def ValidIndices (s : PipelineState) : Prop :=
  ∀ phase chain, s.chainForPhase phase = some chain → chain.agents ≠ [] → chain.currentIndex < chain.agents.length

theorem ValidIndices.of_chains {s s' : PipelineState} (h : ValidIndices s) (hchains : s'.phaseChains = s.phaseChains) : ValidIndices s' := by
  intro phase chain hchain
  unfold PipelineState.chainForPhase at hchain
  rw [hchains] at hchain
  exact h phase chain hchain

theorem ValidIndices.of_set {s s' : PipelineState} (h : ValidIndices s) {phase : String} {chain : AgentChainState}
    (hchains : s'.phaseChains = s.phaseChains.set phase chain)
    (hvalid : chain.agents ≠ [] → chain.currentIndex < chain.agents.length) : ValidIndices s' := by
  intro other chain' hchain hagents
  unfold PipelineState.chainForPhase at hchain
  rw [hchains, Dict.get?_set] at hchain
  split at hchain
  · cases hchain
    exact hvalid hagents
  · exact h other chain' hchain hagents

/-! ## The attempts that the controller schedules -/

def reselection (b : Bench) : Option Nat :=
  (b.state.chainForPhase b.state.phase).bind fun chain =>
    (b.controller.preferredAgentIndex b.state.phase chain.agents none false).1

def worn (s : PipelineState) (chain : AgentChainState) : Bool :=
  s.agentRetryIntent.skipSameAgentRetries || decide (3 ≤ chain.retries)

def attemptSelection (s : PipelineState) (chain : AgentChainState) (spent : Bool) (rc : RecoveryController) : Option Nat × RecoveryController :=
  (rc.noteIfSpent s.phase chain.currentAgent spent).preferredAgentIndex s.phase chain.agents
    (some chain.currentIndex) spent

def reducerSelection (b : Bench) (policy : PipelinePolicy) (timing : Option RoutingTiming) : Option Nat :=
  (b.state.chainForPhase b.state.phase).bind fun chain =>
    if (redirectExpiredCycleInPlace b.state policy timing).isSome ||
        (b.state.agentRetryIntent.skipSameAgentRetries && chain.currentAgent.isNone) then none
    else (attemptSelection b.state chain (worn b.state chain) b.controller).1

def resumes (b : Bench) (script : TurnScript) : Bool :=
  decide (0 < b.state.lastRetryDelayMs) && !script.sleepRaised && b.state.isWaitingState && script.resumeAllowed

def scheduled (b : Bench) : Act → Option String
  | .fails raw context =>
    match (b.controller.handle b.state raw context).result, course b.controller b.state raw context with
    | .ok _, .retries => some context.phase
    | .ok _, .fallsOver _ => some context.phase
    | _, _ => none
  | .reduces policy timing => (reducerSelection b policy timing).map fun _ => b.state.phase
  | .succeeds _ _ => none
  | .waits script => if resumes b script then (reselection b).map fun _ => b.state.phase else none
  | .reselects => (reselection b).map fun _ => b.state.phase

def Blames (b : Bench) : Act → Prop
  | .fails _ context => ∃ chain name, b.state.chainForPhase context.phase = some chain ∧
      context.agent = some name ∧ chain.currentAgent ≠ some name
  | _ => False

def ReadBetween (b b' : Bench) (nowMs : Int) : Prop :=
  ∃ n, b.controller.reads ≤ n ∧ n < b'.controller.reads ∧ nowMs = b.controller.clock n

/-- The attempt that the controller has scheduled for the phase goes to the first ready agent. -/
def WellChosen (b : Bench) (act : Act) (phase : String) : Prop :=
  ∃ chain nowMs barred, (perform b act).state.chainForPhase phase = some chain ∧
    ReadBetween b (perform b act) nowMs ∧
    PreferredBut (perform b act).controller phase nowMs chain.agents barred chain.currentIndex ∧
    (barred = none ∨ Blames b act ∧ barred = (b.state.chainForPhase phase).map AgentChainState.currentIndex)

/-- A chain is changed otherwise only when none of its agents is ready. -/
def UnchosenOnlyWhenNoneReady (b : Bench) (act : Act) : Prop :=
  scheduled b act = none → ∀ phase chain, (perform b act).state.chainForPhase phase = some chain →
    b.state.chainForPhase phase ≠ some chain →
    ∃ nowMs, ReadBetween b (perform b act) nowMs ∧
      ∀ agent ∈ chain.agents, ready (perform b act).controller phase nowMs agent = false

section

variable {b : Bench}

theorem firstAgent_blames {context : FailureContext} {chain : AgentChainState}
    (h : RecoveryController.handleRetryProgression.firstAgent context.agent chain ≠ chain.currentAgent) :
    ∃ name, context.agent = some name ∧ chain.currentAgent ≠ some name := by
  unfold RecoveryController.handleRetryProgression.firstAgent at h
  cases hagent : context.agent with
  | none =>
    rw [hagent] at h
    exact absurd rfl h
  | some name =>
    rw [hagent] at h
    dsimp only at h
    split at h
    · exact absurd rfl h
    · exact ⟨name, rfl, fun hsame => h hsame.symm⟩

theorem fails_wellChosen {raw : RawFailure} {context : FailureContext} {chain : AgentChainState} (chain' : AgentChainState) {index : Nat}
    {rc₁ : RecoveryController} {maxRetries : Nat} {useBudget : Bool} (hclock : Monotone b.controller.clock)
    (hprogression : progression b.controller b.state raw context = some (rc₁, maxRetries, useBudget))
    (hchain : b.state.chainForPhase context.phase = some chain)
    (hselected : (rc₁.selectAgent context.phase chain
      (RecoveryController.handleRetryProgression.firstAgent context.agent chain) maxRetries useBudget).1 = some index)
    (hafter : (perform b (.fails raw context)).state.chainForPhase context.phase = some chain')
    (hagents : chain'.agents = chain.agents) (hindex : chain'.currentIndex = index) :
    WellChosen b (.fails raw context) context.phase := by
  have hclock₁ := progression_clock hprogression
  have hcontroller : (perform b (.fails raw context)).controller = _ := handle_selected hprogression hchain hselected
  obtain ⟨barred, hpreferred, hbarred⟩ := selectAgent_preferredBut (by rw [hclock₁]; exact hclock) hselected
  refine ⟨chain', rc₁.clock rc₁.reads, barred, hafter, ⟨rc₁.reads, progression_reads hprogression, ?_, ?_⟩, ?_, ?_⟩
  · rw [hcontroller]
    exact (selectAgent_later rc₁ context.phase chain _ maxRetries useBudget).2
  · rw [hclock₁]
  · rw [hcontroller, hagents, hindex]
    exact hpreferred
  · refine hbarred.imp_right ?_
    rintro ⟨hcurrent, hblamed⟩
    obtain ⟨name, hname, hother⟩ := firstAgent_blames hblamed
    refine ⟨⟨chain, name, hchain, hname, hother⟩, ?_⟩
    rw [hcurrent, hchain]
    rfl

variable {phase : String}

theorem chainForPhase_set {s s' : PipelineState} {chain : AgentChainState}
    (h : s'.phaseChains = s.phaseChains.set phase chain) : s'.chainForPhase phase = some chain := by
  unfold PipelineState.chainForPhase
  rw [h, Dict.get?_set, if_pos rfl]

theorem unchosen_of_chains {act : Act} (h : (perform b act).state.phaseChains = b.state.phaseChains) : UnchosenOnlyWhenNoneReady b act := by
  intro _ phase chain hafter hbefore
  unfold PipelineState.chainForPhase at hafter hbefore
  rw [h] at hafter
  exact absurd hafter hbefore

theorem fails_scheduled {raw : RawFailure} {context : FailureContext}
    (hclock : Monotone b.controller.clock) (h : scheduled b (.fails raw context) = some phase) :
    WellChosen b (.fails raw context) phase := by
  unfold scheduled at h
  dsimp only at h
  cases hresult : (b.controller.handle b.state raw context).result with
  | error e =>
    rw [hresult] at h
    cases h
  | ok result =>
    obtain ⟨s', effects⟩ := result
    rw [hresult] at h
    have hstate : (perform b (.fails raw context)).state = s' := by
      unfold perform
      dsimp only
      rw [hresult]
      rfl
    have hensues := handle_ensues hresult
    generalize hcourse : course b.controller b.state raw context = c at h hensues
    cases hensues with
    | fails | untracked | exhausts | waits => cases h
    | @retries _ before kept tracked chains =>
      cases h
      obtain ⟨rc₁, maxRetries, useBudget, chain, hprogression, hchain, hselected⟩ :=
        course_selected hcourse (.inl rfl)
      rw [hchain] at tracked
      cases tracked
      refine fails_wellChosen before.withRetryIncrement hclock hprogression hchain hselected ?_ rfl rfl
      rw [hstate]
      exact chainForPhase_set chains
    | @fallsOver _ before index kept tracked other valid chains =>
      cases h
      obtain ⟨rc₁, maxRetries, useBudget, chain, hprogression, hchain, hselected⟩ :=
        course_selected hcourse (.inr ⟨index, rfl⟩)
      rw [hchain] at tracked
      cases tracked
      refine fails_wellChosen ⟨before.agents, index, 0⟩ hclock hprogression hchain hselected ?_ rfl rfl
      rw [hstate]
      exact chainForPhase_set chains

theorem fails_chains (raw : RawFailure) (context : FailureContext) : (perform b (.fails raw context)).state.phaseChains = b.state.phaseChains ∨
      (scheduled b (.fails raw context)).isSome ∧ ∃ chain chain', b.state.chainForPhase context.phase = some chain ∧
        (perform b (.fails raw context)).state.phaseChains = b.state.phaseChains.set context.phase chain' ∧
        chain'.agents = chain.agents ∧
        (chain'.currentIndex = chain.currentIndex ∨ chain'.currentIndex < chain.agents.length) := by
  cases hresult : (b.controller.handle b.state raw context).result with
  | error e =>
    left
    unfold perform
    dsimp only
    rw [hresult]
    rfl
  | ok result =>
    obtain ⟨s', effects⟩ := result
    have hstate : (perform b (.fails raw context)).state = s' := by
      unfold perform
      dsimp only
      rw [hresult]
      rfl
    have hensues := handle_ensues hresult
    unfold scheduled
    dsimp only
    rw [hstate, hresult]
    generalize course b.controller b.state raw context = c at hensues ⊢
    cases hensues with
    | fails givenUp _ => exact .inl givenUp.chains
    | untracked _ chains => exact .inl chains
    | exhausts givenUp _ => exact .inl givenUp.chains
    | waits _ chains _ => exact .inl chains
    | @retries _ before kept tracked chains =>
      exact .inr ⟨rfl, before, _, tracked, chains, rfl, .inl rfl⟩
    | @fallsOver _ before index kept tracked other valid chains =>
      exact .inr ⟨rfl, before, _, tracked, chains, rfl, .inr valid⟩

/-! ## Reselections -/

theorem anew_preferredBut {rc : RecoveryController} {agents : List String} {index : Nat}
    (hclock : Monotone rc.clock) (h : (rc.preferredAgentIndex phase agents none false).1 = some index) :
    PreferredBut (rc.preferredAgentIndex phase agents none false).2 phase (rc.clock rc.reads) agents none index := by
  obtain ⟨agent, hget, hready, hbefore⟩ := (preferredAgentIndex_anew hclock index).mp h
  refine PreferredBut.of_reads (preferredAgentIndex_reads rc phase agents none false) ?_
  exact ⟨agent, hget, some_ne_none _, hready, fun j other hj _ hother => hbefore j other hj hother⟩

theorem reselect_selected {s : PipelineState} {rc : RecoveryController} {chain : AgentChainState} {index : Nat}
    (hchain : s.chainForPhase s.phase = some chain)
    (hselected : (rc.preferredAgentIndex s.phase chain.agents none false).1 = some index) :
    (reselectPreferredAgent s (some rc)).2 = some (rc.preferredAgentIndex s.phase chain.agents none false).2 ∧
      ∃ chain', (reselectPreferredAgent s (some rc)).1.chainForPhase s.phase = some chain' ∧
        chain'.agents = chain.agents ∧ chain'.currentIndex = index ∧
        ((reselectPreferredAgent s (some rc)).1.phaseChains = s.phaseChains ∨
          (reselectPreferredAgent s (some rc)).1.phaseChains = s.phaseChains.set s.phase chain') := by
  unfold reselectPreferredAgent
  rw [hchain]
  dsimp only
  rw [hselected]
  dsimp only
  by_cases hcurrent : index = chain.currentIndex
  · rw [if_pos hcurrent]
    exact ⟨rfl, chain, hchain, rfl, hcurrent.symm, .inl rfl⟩
  · rw [if_neg hcurrent]
    exact ⟨rfl, ⟨chain.agents, index, 0⟩, chainForPhase_set rfl, rfl, rfl, .inr rfl⟩

theorem reselect_unselected {s : PipelineState} {rc : RecoveryController}
    (h : reselection { state := s, controller := rc } = none) : (reselectPreferredAgent s (some rc)).1 = s := by
  unfold reselection at h
  unfold reselectPreferredAgent
  dsimp only at h ⊢
  cases hchain : s.chainForPhase s.phase with
  | none => rfl
  | some chain =>
    rw [hchain, bind_some] at h
    dsimp only
    rw [h]

theorem reselection_wellChosen {act : Act} {s : PipelineState} (hclock : Monotone b.controller.clock)
    (hphase : s.phase = b.state.phase) (hchains : s.phaseChains = b.state.phaseChains)
    (hstate : (perform b act).state.phaseChains = (reselectPreferredAgent s (some b.controller)).1.phaseChains)
    (hcontroller : (perform b act).controller = (reselectPreferredAgent s (some b.controller)).2.getD b.controller)
    (h : (reselection b).map (fun _ => b.state.phase) = some phase) : WellChosen b act phase := by
  obtain ⟨index, hselection, rfl⟩ := map_eq_some_iff.mp h
  obtain ⟨chain, hchain, hselected⟩ := bind_eq_some_iff.mp hselection
  have hchain' : s.chainForPhase s.phase = some chain := by
    unfold PipelineState.chainForPhase
    rw [hchains, hphase]
    exact hchain
  rw [← hphase] at hselected
  obtain ⟨hrecovery, chain', hafter, hagents, hindex, _⟩ := reselect_selected hchain' hselected
  rw [hrecovery] at hcontroller
  refine ⟨chain', b.controller.clock b.controller.reads, none, ?_, ⟨_, le_refl _, ?_, rfl⟩, ?_, .inl rfl⟩
  · unfold PipelineState.chainForPhase at hafter ⊢
    rw [hstate, ← hphase]
    exact hafter
  · rw [hcontroller]
    exact preferredAgentIndex_reads_lt b.controller s.phase chain.agents none false
  · rw [hcontroller, hagents, hindex, ← hphase]
    exact anew_preferredBut hclock hselected

theorem waits_rests {script : TurnScript} (h : resumes b script = false) : (perform b (.waits script)).state.phaseChains = b.state.phaseChains := by
  unfold perform sleepOffDelay
  dsimp only
  split
  · rename_i hdelay
    split
    · rfl
    · rename_i hslept
      split
      · rename_i hwaiting
        split
        · rename_i hallowed
          unfold resumes at h
          simp [hdelay, hslept, hwaiting, hallowed] at h
        · rfl
      · rfl
  · rfl

theorem waits_resumes {script : TurnScript} (h : resumes b script = true) : (perform b (.waits script)).state.phaseChains = (reselectPreferredAgent
        { b.state with lastRetryDelayMs := 0 } (some b.controller)).1.phaseChains ∧
      (perform b (.waits script)).controller = (reselectPreferredAgent
        { b.state with lastRetryDelayMs := 0 } (some b.controller)).2.getD b.controller := by
  unfold resumes at h
  simp only [Bool.and_eq_true, decide_eq_true_eq, Bool.not_eq_true'] at h
  obtain ⟨⟨⟨hdelay, hslept⟩, hwaiting⟩, hallowed⟩ := h
  unfold perform sleepOffDelay
  dsimp only
  rw [if_pos hdelay, if_neg (by simp [hslept]), if_pos hwaiting, if_pos hallowed]
  exact ⟨rfl, rfl⟩

theorem reselect_chains (s : PipelineState) (rc : RecoveryController) : (reselectPreferredAgent s (some rc)).1.phaseChains = s.phaseChains ∨
      (reselection { state := s, controller := rc }).isSome ∧ ∃ chain chain', s.chainForPhase s.phase = some chain ∧
        (reselectPreferredAgent s (some rc)).1.phaseChains = s.phaseChains.set s.phase chain' ∧
        chain'.agents = chain.agents ∧ chain'.currentIndex < chain.agents.length := by
  cases hreselection : reselection { state := s, controller := rc } with
  | none => exact .inl (by rw [reselect_unselected hreselection])
  | some index =>
    obtain ⟨chain, hchain, hselected⟩ := bind_eq_some_iff.mp hreselection
    obtain ⟨_, chain', _, hagents, hindex, hset⟩ := reselect_selected hchain hselected
    refine hset.imp_right fun hset => ⟨rfl, chain, chain', hchain, hset, hagents, ?_⟩
    rw [hindex]
    exact preferredAgentIndex_lt _ _ hselected

/-! ## The reducer -/

section

variable {s : PipelineState} {chain : AgentChainState} {spent : Bool} {rc : RecoveryController}

theorem controlledAttempt_eq (s : PipelineState) (chain : AgentChainState) (spent : Bool) (rc : RecoveryController) :
    controlledAttempt s chain spent rc =
      selectionAttempt s chain (attemptSelection s chain spent rc).1 (attemptSelection s chain spent rc).2 := by
  unfold controlledAttempt attemptSelection RecoveryController.noteIfSpent
  cases chain.currentAgent <;> rfl

theorem attempt_selected {index : Nat} (h : (attemptSelection s chain spent rc).1 = some index) :
    controlledAttempt s chain spent rc = (some (retryOrFallOverTo s chain index), (attemptSelection s chain spent rc).2) := by
  rw [controlledAttempt_eq, h]
  rfl

theorem attempt_unselected (h : (attemptSelection s chain spent rc).1 = none) :
    Reads (attemptSelection s chain spent rc).2 (controlledAttempt s chain spent rc).2 ∧
      ∀ s', (controlledAttempt s chain spent rc).1 = some s' → s'.phaseChains = s.phaseChains := by
  rw [controlledAttempt_eq, h]
  unfold selectionAttempt allAgentsUnavailableWaitState
  dsimp only
  have hreads := agentsNowAvailable_reads (attemptSelection s chain spent rc).2 s.phase chain.agents
  split
  · refine ⟨hreads.trans (earliestAvailableWaitMs_reads _ _ _), ?_⟩
    intro s' hs'
    cases hs'
    rfl
  · refine ⟨hreads, ?_⟩
    intro s' hs'
    cases hs'

theorem retryOrFallOverTo_chains (s : PipelineState) (chain : AgentChainState) (index : Nat) :
    ∃ chain', (retryOrFallOverTo s chain index).phaseChains = s.phaseChains.set s.phase chain' ∧
      chain'.agents = chain.agents ∧ chain'.currentIndex = index := by
  unfold retryOrFallOverTo
  split
  · rename_i hcurrent
    exact ⟨_, rfl, rfl, hcurrent.symm⟩
  · exact ⟨_, rfl, rfl, rfl⟩

theorem attemptSelection_later (s : PipelineState) (chain : AgentChainState) (spent : Bool) (rc : RecoveryController) :
    Later rc (attemptSelection s chain spent rc).2 ∧ rc.reads < (attemptSelection s chain spent rc).2.reads := by
  have hnoted := noteIfSpent_later rc s.phase chain.currentAgent spent
  have hread := (preferredAgentIndex_reads (rc.noteIfSpent s.phase chain.currentAgent spent) s.phase chain.agents
    (some chain.currentIndex) spent).later
  have hlt := preferredAgentIndex_reads_lt (rc.noteIfSpent s.phase chain.currentAgent spent) s.phase chain.agents
    (some chain.currentIndex) spent
  exact ⟨hnoted.trans hread, Nat.lt_of_le_of_lt hnoted.reads hlt⟩

theorem current_unready (s : PipelineState) (rc : RecoveryController) (nowMs : Int) {agent : String}
    (h : chain.agents[chain.currentIndex]? = some agent) :
    ready (rc.noteIfSpent s.phase chain.currentAgent true) s.phase nowMs agent = false := by
  rw [show chain.currentAgent = some agent from h]
  exact ready_of_spent (noteRetryExhaustion_mem rc s.phase agent)

theorem attempt_preferredBut {index : Nat} (hclock : Monotone rc.clock) (h : (attemptSelection s chain spent rc).1 = some index) :
    PreferredBut (attemptSelection s chain spent rc).2 s.phase (rc.clock rc.reads) chain.agents none index := by
  have hselected := selected_preferredBut
    (by rw [(noteIfSpent_later rc s.phase chain.currentAgent spent).clock]; exact hclock) h
  rw [noteIfSpent_reading] at hselected
  refine PreferredBut.of_reads (preferredAgentIndex_reads _ s.phase chain.agents (some chain.currentIndex) spent) ?_
  cases spent with
  | false => exact hselected
  | true => exact hselected.unbarred fun agent hagent => current_unready s rc _ hagent

theorem attempt_none_ready (hclock : Monotone rc.clock) (h : (attemptSelection s chain spent rc).1 = none)
    {agent : String} (hmem : agent ∈ chain.agents) :
    ready (attemptSelection s chain spent rc).2 s.phase (rc.clock rc.reads) agent = false := by
  have hnone := (preferredAgentIndex_eq_none_iff
    (by rw [(noteIfSpent_later rc s.phase chain.currentAgent spent).clock]; exact hclock)).mp h
  rw [noteIfSpent_reading] at hnone
  have hreads := preferredAgentIndex_reads (rc.noteIfSpent s.phase chain.currentAgent spent) s.phase chain.agents
    (some chain.currentIndex) spent
  rw [show ready (attemptSelection s chain spent rc).2 s.phase = _ from hreads.ready_eq]
  obtain ⟨j, hget⟩ := List.getElem?_of_mem hmem
  by_contra hready
  have hineligible := hnone j agent hget
  by_cases hbarred : some j ≠ if spent then some chain.currentIndex else none
  · have heligible := eligible_iff.mpr ⟨by simpa using hready, hbarred⟩
    rw [hineligible] at heligible
    cases heligible
  · cases spent with
    | false => simp at hbarred
    | true =>
      have hcurrent : j = chain.currentIndex := by simpa using hbarred
      rw [hcurrent] at hget
      exact hready (current_unready s rc _ hget)

end

inductive Reduces (b b' : Bench) (selection : Option Nat) : Prop
  | schedules {chain : AgentChainState} {index : Nat} (tracked : b.state.chainForPhase b.state.phase = some chain)
      (selected : (attemptSelection b.state chain (worn b.state chain) b.controller).1 = some index)
      (selects : selection = some index) (state : b'.state = retryOrFallOverTo b.state chain index)
      (controller : b'.controller = (attemptSelection b.state chain (worn b.state chain) b.controller).2)
  | keeps (selects : selection = none) (chains : b'.state.phaseChains = b.state.phaseChains)
      (clock : b'.controller.clock = b.controller.clock)
  | steps {chain : AgentChainState} (tracked : b.state.chainForPhase b.state.phase = some chain)
      (unselected : (attemptSelection b.state chain (worn b.state chain) b.controller).1 = none)
      (selects : selection = none)
      (reads : Reads (attemptSelection b.state chain (worn b.state chain) b.controller).2 b'.controller)
      (chains : b'.state.phaseChains = b.state.phaseChains.set b.state.phase chain.withAdvance)
      (valid : chain.currentIndex + 1 < chain.agents.length)

theorem keptOnRaise_chains {s : PipelineState} {handled : Handled}
    (h : ∀ s' effects, handled = .ok (s', effects) → s'.phaseChains = s.phaseChains) :
    (keptOnRaise s handled).phaseChains = s.phaseChains := by
  cases handled with
  | error e => rfl
  | ok result => exact h result.1 result.2 rfl

theorem reduces_skipping {policy : PipelinePolicy} {chain : AgentChainState} (hchain : b.state.chainForPhase b.state.phase = some chain)
    (hskip : b.state.agentRetryIntent.skipSameAgentRetries = true) :
    Reduces b
      { state := keptOnRaise b.state (handleSkipSameAgentRetries b.state chain policy (some b.controller)).result
        controller := (handleSkipSameAgentRetries b.state chain policy (some b.controller)).recovery.getD b.controller }
      (if chain.currentAgent.isNone then none
        else (attemptSelection b.state chain (worn b.state chain) b.controller).1) := by
  have hworn : worn b.state chain = true := by simp [worn, hskip]
  unfold handleSkipSameAgentRetries
  dsimp only
  cases hagent : chain.currentAgent with
  | none => exact .keeps rfl rfl rfl
  | some agent =>
    dsimp only
    cases hselection : (attemptSelection b.state chain true b.controller).1 with
    | some index =>
      rw [attempt_selected hselection]
      exact .schedules hchain (by rw [hworn]; exact hselection) (by simp [hworn, hselection]) rfl (by rw [hworn]; rfl)
    | none =>
      obtain ⟨hreads, hattempt⟩ := attempt_unselected hselection
      have hclock := (attemptSelection_later b.state chain true b.controller).1.trans hreads.later
      generalize controlledAttempt b.state chain true b.controller = attempted at hreads hattempt hclock ⊢
      obtain ⟨attempt, rc'⟩ := attempted
      cases attempt with
      | some s' => exact .keeps (by simp [hworn, hselection]) (hattempt s' rfl) hclock.clock
      | none =>
        dsimp only
        split
        · rename_i hnext
          exact .steps hchain (by rw [hworn]; exact hselection) (by simp [hworn, hselection])
            (by rw [hworn]; exact hreads) rfl hnext
        · exact .keeps (by simp [hworn, hselection])
            (keptOnRaise_chains fun _ _ h => failedRecovery_chains h) hclock.clock

theorem reduces_cases (policy : PipelinePolicy) (timing : Option RoutingTiming) :
    Reduces b (perform b (.reduces policy timing)) (reducerSelection b policy timing) := by
  unfold perform Reducer.handleAgentFailure reducerSelection
  cases hchain : b.state.chainForPhase b.state.phase with
  | none => exact .keeps rfl (keptOnRaise_chains fun _ _ h => failedRecovery_chains h) rfl
  | some chain =>
    dsimp only
    rw [bind_some]
    cases hexpired : redirectExpiredCycleInPlace b.state policy timing with
    | some expired => exact .keeps rfl (keptOnRaise_chains fun _ _ h => redirect_chains hexpired h) rfl
    | none =>
      dsimp only
      by_cases hskip : b.state.agentRetryIntent.skipSameAgentRetries = true
      · rw [if_pos hskip, hskip]
        simp only [isSome_none, Bool.false_or, Bool.true_and]
        exact reduces_skipping hchain hskip
      · have hworn : worn b.state chain = decide (3 ≤ chain.retries) := by simp [worn, hskip]
        rw [if_neg hskip, if_neg (by simp [hskip]), hworn]
        cases hselection : (attemptSelection b.state chain (decide (3 ≤ chain.retries)) b.controller).1 with
        | some index =>
          rw [attempt_selected hselection]
          exact .schedules hchain (by rw [hworn]; exact hselection) rfl rfl (by rw [hworn]; rfl)
        | none =>
          obtain ⟨hreads, hattempt⟩ := attempt_unselected hselection
          have hclock := (attemptSelection_later b.state chain (decide (3 ≤ chain.retries)) b.controller).1.trans
            hreads.later
          generalize controlledAttempt b.state chain (decide (3 ≤ chain.retries)) b.controller = attempted
            at hreads hattempt hclock ⊢
          obtain ⟨attempt, rc'⟩ := attempted
          cases attempt with
          | some s' => exact .keeps rfl (hattempt s' rfl) hclock.clock
          | none => exact .keeps rfl (keptOnRaise_chains fun _ _ h => exhausted_chains h) hclock.clock

/-! ## One act -/

theorem reselect_clock (s : PipelineState) (rc : RecoveryController) : ((reselectPreferredAgent s (some rc)).2.getD rc).clock = rc.clock := by
  unfold reselectPreferredAgent
  cases s.chainForPhase s.phase with
  | none => rfl
  | some chain =>
    have hreads := (preferredAgentIndex_reads rc s.phase chain.agents none false).later
    dsimp only
    split
    · split <;> exact hreads.clock
    · exact hreads.clock

theorem perform_clock (b : Bench) (act : Act) : (perform b act).controller.clock = b.controller.clock := by
  cases act with
  | fails raw context => exact handle_clock b.controller b.state raw context
  | reduces policy timing =>
    cases reduces_cases (b := b) policy timing with
    | schedules _ _ _ _ controller =>
      rw [controller]
      exact (attemptSelection_later _ _ _ _).1.clock
    | keeps _ _ clock => exact clock
    | steps _ _ _ reads _ _ => exact ((attemptSelection_later _ _ _ _).1.trans reads.later).clock
  | succeeds phase agent => cases agent <;> rfl
  | waits script =>
    cases hresumes : resumes b script with
    | true =>
      rw [(waits_resumes hresumes).2]
      exact reselect_clock _ _
    | false =>
      unfold perform sleepOffDelay
      dsimp only
      split
      · split
        · rfl
        · split
          · split
            · exact reselect_clock _ _
            · rfl
          · rfl
      · rfl
  | reselects => exact reselect_clock b.state b.controller

theorem perform_valid (h : ValidIndices b.state) (act : Act) : ValidIndices (perform b act).state := by
  cases act with
  | fails raw context =>
    rcases fails_chains raw context with hsame | ⟨_, chain, chain', hchain, hset, hagents, hindex⟩
    · exact h.of_chains hsame
    · refine h.of_set hset ?_
      intro hne
      rw [hagents] at hne ⊢
      rcases hindex with hindex | hindex
      · rw [hindex]
        exact h _ chain hchain hne
      · exact hindex
  | reduces policy timing =>
    cases reduces_cases (b := b) policy timing with
    | @schedules chain index tracked selected selects state controller =>
      obtain ⟨chain', hset, hagents, hindex⟩ := retryOrFallOverTo_chains b.state chain index
      rw [← state] at hset
      refine h.of_set hset fun _ => ?_
      rw [hagents, hindex]
      exact preferredAgentIndex_lt _ _ selected
    | keeps _ chains _ => exact h.of_chains chains
    | steps _ _ _ _ chains valid => exact h.of_set chains fun _ => valid
  | succeeds phase agent => exact h
  | waits script =>
    cases hresumes : resumes b script with
    | false => exact h.of_chains (waits_rests hresumes)
    | true =>
      have hstate := (waits_resumes hresumes).1
      rcases reselect_chains { b.state with lastRetryDelayMs := 0 } b.controller with
        hsame | ⟨_, chain, chain', _, hset, hagents, hindex⟩
      · exact h.of_chains (hstate.trans hsame)
      · refine h.of_set (hstate.trans hset) fun _ => ?_
        rw [hagents]
        exact hindex
  | reselects =>
    rcases reselect_chains b.state b.controller with hsame | ⟨_, chain, chain', _, hset, hagents, hindex⟩
    · exact h.of_chains hsame
    · refine h.of_set hset fun _ => ?_
      rw [hagents]
      exact hindex

theorem scheduled_wellChosen (hclock : Monotone b.controller.clock) {act : Act} (h : scheduled b act = some phase) : WellChosen b act phase := by
  cases act with
  | fails raw context => exact fails_scheduled hclock h
  | reduces policy timing =>
    obtain ⟨index, hselection, rfl⟩ := map_eq_some_iff.mp h
    cases reduces_cases (b := b) policy timing with
    | @schedules chain _ tracked selected selects state controller =>
      rw [hselection] at selects
      cases selects
      obtain ⟨chain', hset, hagents, hindex⟩ := retryOrFallOverTo_chains b.state chain index
      rw [← state] at hset
      refine ⟨chain', b.controller.clock b.controller.reads, none, chainForPhase_set hset,
        ⟨_, le_refl _, ?_, rfl⟩, ?_, .inl rfl⟩
      · rw [controller]
        exact (attemptSelection_later b.state chain (worn b.state chain) b.controller).2
      · rw [controller, hagents, hindex]
        exact attempt_preferredBut hclock selected
    | keeps selects =>
      rw [hselection] at selects
      cases selects
    | steps _ _ selects =>
      rw [hselection] at selects
      cases selects
  | succeeds phase agent => cases h
  | waits script =>
    unfold scheduled at h
    dsimp only at h
    split at h
    · rename_i hresumes
      obtain ⟨hstate, hcontroller⟩ := waits_resumes hresumes
      exact reselection_wellChosen (s := { b.state with lastRetryDelayMs := 0 }) hclock rfl rfl hstate hcontroller h
    · cases h
  | reselects => exact reselection_wellChosen hclock rfl rfl rfl rfl h

theorem unscheduled_none_ready (hclock : Monotone b.controller.clock) (act : Act) : UnchosenOnlyWhenNoneReady b act := by
  cases act with
  | fails raw context =>
    rcases fails_chains (b := b) raw context with hsame | ⟨hscheduled, _⟩
    · exact unchosen_of_chains hsame
    · intro hnone
      rw [hnone] at hscheduled
      cases hscheduled
  | reduces policy timing =>
    cases reduces_cases (b := b) policy timing with
    | schedules _ _ selects =>
      intro hnone
      have hscheduled := congrArg (Option.map fun _ => b.state.phase) selects
      rw [show Option.map (fun _ => b.state.phase) (reducerSelection b policy timing) = none from hnone] at hscheduled
      cases hscheduled
    | keeps _ chains _ => exact unchosen_of_chains chains
    | @steps chain tracked unselected _ reads chains _ =>
      intro _ phase chain' hafter hbefore
      unfold PipelineState.chainForPhase at hafter hbefore
      rw [chains, Dict.get?_set] at hafter
      split at hafter
      · rename_i hphase
        cases hafter
        refine ⟨b.controller.clock b.controller.reads, ⟨_, le_refl _, ?_, rfl⟩, ?_⟩
        · exact lt_of_lt_of_le (attemptSelection_later b.state chain (worn b.state chain) b.controller).2
            reads.later.reads
        · intro agent hmem
          rw [reads.ready_eq, hphase]
          exact attempt_none_ready hclock unselected hmem
      · exact absurd hafter hbefore
  | succeeds phase agent => exact unchosen_of_chains rfl
  | waits script =>
    cases hresumes : resumes b script with
    | false => exact unchosen_of_chains (waits_rests hresumes)
    | true =>
      have hstate := (waits_resumes hresumes).1
      rcases reselect_chains { b.state with lastRetryDelayMs := 0 } b.controller with hsame | ⟨hscheduled, _⟩
      · exact unchosen_of_chains (hstate.trans hsame)
      · intro hnone
        unfold scheduled at hnone
        dsimp only at hnone
        rw [if_pos hresumes] at hnone
        have hreselection := map_eq_none_iff.mp hnone
        rw [show reselection { state := { b.state with lastRetryDelayMs := 0 }, controller := b.controller } =
          none from hreselection] at hscheduled
        cases hscheduled
  | reselects =>
    rcases reselect_chains b.state b.controller with hsame | ⟨hscheduled, _⟩
    · exact unchosen_of_chains hsame
    · intro hnone
      have hreselection := map_eq_none_iff.mp hnone
      rw [show reselection { state := b.state, controller := b.controller } = none from hreselection] at hscheduled
      cases hscheduled

end

/-! ## Whole runs -/

theorem performs_clock (b : Bench) (acts : List Act) : (performs b acts).controller.clock = b.controller.clock := by
  induction acts generalizing b with
  | nil => rfl
  | cons act acts ih => exact (ih (perform b act)).trans (perform_clock b act)

theorem performs_valid {b : Bench} (h : ValidIndices b.state) (acts : List Act) : ValidIndices (performs b acts).state := by
  induction acts generalizing b with
  | nil => exact h
  | cons act acts ih => exact ih (perform_valid h act)

/-- Every scheduled attempt goes to the first agent that is off cooldown and not spent. -/
theorem attempts_go_to_the_first_ready_agent (b : Bench) (acts : List Act) (hclock : Monotone b.controller.clock) (hvalid : ValidIndices b.state) :
    ValidIndices (performs b acts).state ∧
      ∀ act, (∀ phase, scheduled (performs b acts) act = some phase → WellChosen (performs b acts) act phase) ∧
        UnchosenOnlyWhenNoneReady (performs b acts) act := by
  have hclock' : Monotone (performs b acts).controller.clock := by
    rw [performs_clock]
    exact hclock
  refine ⟨performs_valid hvalid acts, fun act => ⟨?_, unscheduled_none_ready hclock' act⟩⟩
  intro phase hscheduled
  exact scheduled_wellChosen hclock' hscheduled

def twoAgents : Bench where
  state := PipelineState.withPhaseChain { phase := "development" } "development" { agents := ["claude", "codex"] }
  controller :=
    { cap := ⟨5, by decide⟩
      classify := fun _ _ _ _ =>
        { category := .agent
          reason := "agent failure: subscription limit reached"
          countsAgainstBudget := true
          isUnavailable := true
          unavailabilityReason := some .outOfCredits }
      clock := fun n => 20000 * n }

/-- The first agent is taken again when its cooldown has ended. -/
theorem twoAgents_return :
    let fell := performs twoAgents
      [.fails (.message "subscription limit reached") { phase := "development", agent := some "claude" }]
    (fell.state.chainForPhase "development").map AgentChainState.currentIndex = some 1 ∧
      WellChosen fell .reselects "development" ∧
      ((perform fell .reselects).state.chainForPhase "development").map AgentChainState.currentIndex = some 0 := by
  have hclock : Monotone twoAgents.controller.clock := by
    intro m n hmn
    show (20000 : Int) * m ≤ 20000 * n
    omega
  have hvalid : ValidIndices twoAgents.state :=
    ValidIndices.of_set (s := { phase := "development" }) (fun phase chain h => by cases h) rfl (by decide)
  refine ⟨by decide +kernel, ?_, by decide +kernel⟩
  refine ((attempts_go_to_the_first_ready_agent twoAgents _ hclock hvalid).2 .reselects).1 "development" ?_
  decide +kernel

end RalphWorkflow.AgentChains
