import RalphWorkflow.Proof.Termination.Rank

/-! Every event that a working phase can emit without failing decreases the rank of the state, whatever the timer and
the recovery controller are, so every run of such events reaches a terminal. -/
namespace RalphWorkflow.Termination
open Lib Policy Recovery List Default
open Pipeline Pipeline.Reducer
open Frame

/-! ## Results that decrease the rank -/

/-- The handler returned, in a phase of the policy, with no override pending and at a lower rank. -/
def Decreases (s : PipelineState) (handled : Handled) : Prop :=
  ∃ s' effects, handled = .ok (s', effects) ∧ s'.phase ∈ phaseNames ∧ s'.postCommitPhaseOverride = none ∧
    rank s' < rank s

variable {s s₀ s' : PipelineState} {phase t : String} {phaseDef : PhaseDefinition} {route : PhaseDecisionRoute}

theorem decreases_restoring {handled : Handled} (h : Decreases s handled) : Decreases s (restoring s handled) := by
  obtain ⟨s', effects, hok, hphase, hoverride, hrank⟩ := h
  refine ⟨s.restoreWorkUnits s', effects, by rw [hok]; rfl, ?_, ?_, ?_⟩
  all_goals unfold PipelineState.restoreWorkUnits
  · split <;> exact hphase
  · split <;> exact hoverride
  · split <;> exact hrank

structure SameRank (s s₀ : PipelineState) : Prop where
  progress : SameProgress s s₀
  phase : s₀.phase = s.phase
  loops : s₀.loopIterations = s.loopIterations

theorem SameRank.rank_eq (h : SameRank s s₀) : rank s₀ = rank s := by
  obtain ⟨⟨hcaps, houter, hcharged, hcommit, _⟩, hphase, hloops⟩ := h
  simp only [rank, cyclesLeft, planRank, devRank, phaseRank, passesLeft, PipelineState.getBudgetRemaining,
    PipelineState.getLoopIteration, hcaps, houter, hcharged, hcommit, hphase, hloops]

theorem landed_mem {t : PipelineState} {target : String} (htarget : target ∈ phaseNames) (h : Lands s target t) : t.phase ∈ phaseNames := by
  rcases h.place with ⟨hphase, _⟩ | ⟨hpass, _⟩
  · rw [hphase]
    exact htarget
  · simp only [passes, mem_cons, Prod.mk.injEq, not_mem_nil, or_false] at hpass
    rcases hpass with ⟨_, h⟩ | ⟨_, h⟩ | ⟨_, h⟩ | ⟨_, h⟩ | ⟨_, h⟩ | ⟨_, h⟩ | ⟨_, h⟩ | ⟨_, h⟩ <;> rw [h] <;> decide

section

variable (timing : Option RoutingTiming)

theorem decreases_advance {target : String} (htarget : target ∈ phaseNames) (hoverride : s₀.postCommitPhaseOverride = none)
    (hrank : ∀ s', Lands s₀ target s' → rank s' < rank s) : Decreases s (Reducer.advancePhase s₀ target Default.pipeline timing) := by
  obtain ⟨s', hok, hlands⟩ := advance_lands s₀ htarget timing
  exact ⟨s', [], hok, landed_mem htarget hlands, hlands.override.trans hoverride, hrank s' hlands⟩

/-! ## Failing -/

theorem loopCounter_resolves (hphase : phase ∈ phaseNames) : resolveExecutionCycleLoopCounter phase Default.pipeline = none ∨
      ∃ field cap, resolveExecutionCycleLoopCounter phase Default.pipeline = some field ∧
        resolveAnalysisCap field Default.pipeline = .ok cap := by
  simp only [phaseNames, mem_cons, not_mem_nil, or_false] at hphase
  rcases hphase with rfl | rfl | rfl | rfl | rfl | rfl | rfl | rfl | rfl | rfl
  · exact .inr ⟨"planning_analysis_iteration", 3, rfl, rfl⟩
  · exact .inl rfl
  · exact .inr ⟨"development_analysis_iteration", 5, rfl, rfl⟩
  all_goals exact .inl rfl

theorem working_mem (h : phase ∈ workingPhases) : phase ∈ phaseNames :=
  mem_append_left ["complete", "failed_terminal"] h

theorem working_cases (hs : phase ∈ workingPhases) : (phase = "planning" ∧ Default.pipeline.phases.get? phase = some Default.planning) ∨
      (phase = "planning_analysis" ∧ Default.pipeline.phases.get? phase = some planningAnalysis) ∨
      (phase = "development" ∧ Default.pipeline.phases.get? phase = some Default.development) ∨
      (phase = "development_commit_cleanup" ∧ Default.pipeline.phases.get? phase = some developmentCommitCleanup) ∨
      (phase = "development_commit" ∧ Default.pipeline.phases.get? phase = some developmentCommit) ∨
      (phase = "development_analysis" ∧ Default.pipeline.phases.get? phase = some developmentAnalysis) ∨
      (phase = "development_final_commit_cleanup" ∧
        Default.pipeline.phases.get? phase = some developmentFinalCommitCleanup) ∨ (phase = "development_final_commit" ∧
        Default.pipeline.phases.get? phase = some developmentFinalCommit) := by
  simp only [workingPhases, mem_cons, not_mem_nil, or_false] at hs
  rcases hs with rfl | rfl | rfl | rfl | rfl | rfl | rfl | rfl
  · exact .inl ⟨rfl, rfl⟩
  · exact .inr (.inl ⟨rfl, rfl⟩)
  · exact .inr (.inr (.inl ⟨rfl, rfl⟩))
  · exact .inr (.inr (.inr (.inl ⟨rfl, rfl⟩)))
  · exact .inr (.inr (.inr (.inr (.inl ⟨rfl, rfl⟩))))
  · exact .inr (.inr (.inr (.inr (.inr (.inl ⟨rfl, rfl⟩)))))
  · exact .inr (.inr (.inr (.inr (.inr (.inr (.inl ⟨rfl, rfl⟩))))))
  · exact .inr (.inr (.inr (.inr (.inr (.inr (.inr ⟨rfl, rfl⟩))))))

theorem decreases_failed (hs : s.phase ∈ workingPhases) (hsame : s₀.phase = s.phase)
    (hcaps : s₀.budgetCaps = s.budgetCaps) (houter : s₀.outerProgress = s.outerProgress)
    (hoverride : s₀.postCommitPhaseOverride = none) (reason : String) :
    Decreases s (advanceToFailed s₀ reason Default.pipeline) := by
  have hmem : s₀.phase ∈ phaseNames := by
    rw [hsame]
    exact working_mem hs
  have hfailed : "failed_terminal" ∈ phaseNames := by decide
  have hcycles : ∀ s' : PipelineState, s'.budgetCaps = s₀.budgetCaps → s'.outerProgress = s₀.outerProgress → cyclesLeft s' ≤ cyclesLeft s := by
    intro s' hcaps' houter'
    unfold cyclesLeft PipelineState.getBudgetRemaining
    rw [hcaps', houter', hcaps, houter]
  unfold advanceToFailed enterFailedRecovery applyExecutionCycleOutcome chargeExecutionCycle
  rcases loopCounter_resolves hmem with hnone | ⟨field, cap, hfield, hcap⟩
  · rw [hnone]
    exact ⟨_, _, rfl, hfailed, hoverride, rank_lt_terminal hs (.inr rfl) (hcycles _ rfl rfl)⟩
  · rw [hfield]
    dsimp only
    rw [hcap]
    exact ⟨_, _, rfl, hfailed, hoverride, rank_lt_terminal hs (.inr rfl) (hcycles _ rfl rfl)⟩

/-! ## Going forward -/

theorem Lands.landsOn (h : Lands s t s') : s'.phase = t ∨ (t, s'.phase) ∈ passes := by
  rcases h.place with ⟨hphase, _⟩ | ⟨hpass, _⟩
  · exact .inl hphase
  · exact .inr hpass

theorem forward_lt (hs : s.phase ∈ workingPhases)
    (hnext : resolveNextPhase s.phase .success Default.pipeline = .ok t) (h : Lands s t s') : rank s' < rank s := by
  simp only [workingPhases, mem_cons, not_mem_nil, or_false] at hs
  rcases hs with hs | hs | hs | hs | hs | hs | hs | hs <;> rw [hs] at hnext <;> cases hnext
  · exact step_planning hs h
  · exact step_planningAnalysis_forward hs h.cyclesLeft_eq h.landsOn
  · exact step_development hs h
  · exact step_cleanup hs h
  · exact step_commit hs h
  · exact step_developmentAnalysis_forward hs h.cyclesLeft_eq h.landsOn
  · exact step_finalCleanup hs h
  · refine rank_lt_terminal (by rw [hs]; decide) ?_ h.cyclesLeft_eq.le
    rcases h.landsOn with hcomplete | hpass
    · exact .inl hcomplete
    · simp [passes, developmentFinalCommit] at hpass

theorem success_resolves (hs : phase ∈ workingPhases) : ∃ t ∈ phaseNames, resolveNextPhase phase .success Default.pipeline = .ok t := by
  simp only [workingPhases, mem_cons, not_mem_nil, or_false] at hs
  rcases hs with rfl | rfl | rfl | rfl | rfl | rfl | rfl | rfl
  all_goals exact ⟨_, by decide, rfl⟩

theorem decreases_forward (hs : s.phase ∈ workingPhases) (hsame : SameRank s s₀) (hoverride : s₀.postCommitPhaseOverride = none)
    (ht : t ∈ phaseNames) (hnext : resolveNextPhase s.phase .success Default.pipeline = .ok t) :
    Decreases s (Reducer.advancePhase s₀ t Default.pipeline timing) := by
  refine decreases_advance timing ht hoverride ?_
  intro s' hlands
  rw [← hsame.rank_eq]
  exact forward_lt (by rw [hsame.phase]; exact hs) (by rw [hsame.phase]; exact hnext) hlands

theorem decreases_resolveOrTerminal (label : String)
    (hs : s.phase ∈ workingPhases) (hsame : SameRank s s₀) (hoverride : s₀.postCommitPhaseOverride = none) :
    Decreases s (resolveOrTerminal s₀ .success Default.pipeline label timing) := by
  obtain ⟨t, ht, hnext⟩ := success_resolves hs
  unfold resolveOrTerminal
  rw [hsame.phase, hnext]
  exact decreases_forward timing hs hsame hoverride ht hnext

/-! ## Results -/

theorem phaseDef_of_analysis (h : s.phase = "planning_analysis" ∨ s.phase = "development_analysis") : s.phase ∈ workingPhases := by
  rcases h with h | h <;> rw [h] <;> decide

theorem analysis_forward_lt (hs : s.phase = "planning_analysis" ∨ s.phase = "development_analysis")
    (hnext : resolveNextPhase s.phase .success Default.pipeline = .ok t) (hcycles : cyclesLeft s' = cyclesLeft s)
    (hland : s'.phase = t ∨ (t, s'.phase) ∈ passes) : rank s' < rank s := by
  rcases hs with hs | hs <;> rw [hs] at hnext <;> cases hnext
  · exact step_planningAnalysis_forward hs hcycles hland
  · exact step_developmentAnalysis_forward hs hcycles hland

theorem applyAnalysisSuccess_frame (s s' : PipelineState) (policy : PipelinePolicy) : (applyAnalysisSuccess s s' policy).phase = s'.phase ∧
      (applyAnalysisSuccess s s' policy).budgetCaps = s'.budgetCaps ∧
      (applyAnalysisSuccess s s' policy).outerProgress = s'.outerProgress ∧
      (applyAnalysisSuccess s s' policy).postCommitPhaseOverride = s'.postCommitPhaseOverride := by
  unfold applyAnalysisSuccess
  dsimp only
  split <;> exact ⟨rfl, rfl, rfl, rfl⟩

theorem completed_increments_nothing (hs : phase = "planning_analysis" ∨ phase = "development_analysis") :
    (((Default.pipeline.phases.get? phase).bind fun phaseDef => phaseDef.decisions.get? "completed").bind
      PhaseDecisionRoute.incrementsCounter) = none := by
  rcases hs with rfl | rfl <;> rfl

theorem decreases_analysisSuccess (hs : s.phase = "planning_analysis" ∨ s.phase = "development_analysis") (hsame : SameRank s s₀)
    (hoverride : s₀.postCommitPhaseOverride = none) : Decreases s (handleAnalysisSuccess s₀ Default.pipeline timing) := by
  obtain ⟨t, ht, hnext⟩ := success_resolves (phaseDef_of_analysis hs)
  have hnext₀ := hnext
  rw [← hsame.phase] at hnext₀ hs
  -- the stamped verdict changes neither budget nor counters
  have hstamp : ∀ stamped : PipelineState, SameRank s₀ stamped → stamped.postCommitPhaseOverride = none →
      ∃ s₁, Reducer.advancePhase stamped t Default.pipeline timing = .ok (s₁, []) ∧ s₁.phase ∈ phaseNames ∧
        s₁.postCommitPhaseOverride = none ∧ cyclesLeft s₁ = cyclesLeft s₀ ∧
        (s₁.phase = t ∨ (t, s₁.phase) ∈ passes) := by
    intro stamped hstamped hnone
    obtain ⟨s₁, hok, hlands⟩ := advance_lands stamped ht timing
    refine ⟨s₁, hok, landed_mem ht hlands, hlands.override.trans hnone, ?_, hlands.landsOn⟩
    rw [hlands.cyclesLeft_eq]
    unfold cyclesLeft PipelineState.getBudgetRemaining
    rw [hstamped.progress.budgetCaps, hstamped.progress.outerProgress]
  unfold handleAnalysisSuccess
  dsimp only
  rw [hnext₀, completed_increments_nothing hs]
  have hframe := stampForwardOutcome_frame s₀ s₀.phase Default.pipeline
  generalize stampForwardOutcome s₀ s₀.phase Default.pipeline = stamped at *
  have hstamped : SameRank s₀ stamped ∧ stamped.postCommitPhaseOverride = none :=
    ⟨⟨hframe.1, hframe.2.1, hframe.2.2⟩, hframe.1.override.trans hoverride⟩
  obtain ⟨s₁, hok, hmem, hnone, hcycles, hland⟩ := hstamp stamped hstamped.1 hstamped.2
  obtain ⟨hphase, hcaps, houter, hover⟩ := applyAnalysisSuccess_frame stamped s₁ Default.pipeline
  dsimp only [bind, Except.bind]
  rw [hok]
  refine ⟨_, _, rfl, ?_, ?_, ?_⟩
  · show (applyAnalysisSuccess stamped s₁ Default.pipeline).phase ∈ phaseNames
    rw [hphase]
    exact hmem
  · show (applyAnalysisSuccess stamped s₁ Default.pipeline).postCommitPhaseOverride = none
    rw [hover, hnone]
  · rw [← hsame.rank_eq]
    refine analysis_forward_lt hs hnext₀ ?_ ?_
    · rw [← hcycles]
      show cyclesLeft (applyAnalysisSuccess stamped s₁ Default.pipeline) = _
      unfold cyclesLeft PipelineState.getBudgetRemaining
      rw [hcaps, houter]
    · have hfinal : (applyAnalysisSuccess stamped s₁ Default.pipeline).phase = t ∨
          (t, (applyAnalysisSuccess stamped s₁ Default.pipeline).phase) ∈ passes := by
        rw [hphase]
        exact hland
      exact hfinal

theorem decreases_agentSuccess (hs : s.phase ∈ workingPhases)
    (hoverride : s.postCommitPhaseOverride = none) : Decreases s (handleAgentSuccess s Default.pipeline timing) := by
  unfold handleAgentSuccess
  generalize hdef : (if 0 < s.lastRetryDelayMs then { s with lastRetryDelayMs := 0 } else s) = s₀
  have hdelay : s₀ = { s with lastRetryDelayMs := s₀.lastRetryDelayMs } := by
    rw [← hdef]
    split <;> rfl
  have hsame : SameRank s s₀ := by
    rw [hdelay]
    exact ⟨⟨rfl, rfl, rfl, rfl, rfl⟩, rfl, rfl⟩
  have hnone : s₀.postCommitPhaseOverride = none := by
    rw [hdelay]
    exact hoverride
  have hforward := decreases_resolveOrTerminal timing "agent success" hs hsame hnone
  have hinvoked : s.phase = "development_commit" ∨ s.phase = "development_final_commit" → s₀.commit.agentInvoked = false →
      Decreases s (.ok ({ s₀ with commit := { s₀.commit with agentInvoked := true } }, [])) := by
    intro hcommit hfalse
    have hagent : s.commit.agentInvoked = false := by rw [← hsame.progress.commit]; exact hfalse
    refine ⟨_, _, rfl, ?_, hnone, step_invoked hcommit hagent ?_⟩
    · show s₀.phase ∈ phaseNames
      rw [hsame.phase]
      exact working_mem hs
    · rw [hdelay]
  rw [← hsame.phase] at hs
  dsimp only
  rcases working_cases hs with ⟨h, hget⟩ | ⟨h, hget⟩ | ⟨h, hget⟩ | ⟨h, hget⟩ | ⟨h, hget⟩ | ⟨h, hget⟩ | ⟨h, hget⟩ |
    ⟨h, hget⟩ <;> rw [hget] <;> rw [hsame.phase] at h
  · exact hforward
  · exact decreases_analysisSuccess timing (.inl h) hsame hnone
  · exact hforward
  · exact hforward
  · dsimp only
    by_cases hagent : s₀.commit.agentInvoked = false
    · rw [if_pos ⟨rfl, hagent⟩]
      exact hinvoked (.inl h) hagent
    · rw [if_neg fun hand => hagent hand.2]
      exact hforward
  · exact decreases_analysisSuccess timing (.inr h) hsame hnone
  · exact hforward
  · dsimp only
    by_cases hagent : s₀.commit.agentInvoked = false
    · rw [if_pos ⟨rfl, hagent⟩]
      exact hinvoked (.inr h) hagent
    · rw [if_neg fun hand => hagent hand.2]
      exact hforward

theorem decreases_executionResult (phase status : String) (hs : s.phase ∈ workingPhases) (hoverride : s.postCommitPhaseOverride = none) :
    Decreases s (handleExecutionResult s phase status Default.pipeline timing) := by
  have hfailed := fun reason => decreases_failed hs rfl rfl rfl hoverride reason
  unfold handleExecutionResult
  by_cases hmatch : phase = s.phase
  · rw [if_neg (not_not.mpr hmatch)]
    subst hmatch
    have hforward := @decreases_resolveOrTerminal _ { s with postCommitPhaseOverride := none, lastExecutionResultStatus := some status } timing
      "execution result" hs ⟨⟨rfl, rfl, rfl, rfl, hoverride.symm⟩, rfl, rfl⟩ rfl
    rcases working_cases hs with ⟨h, hget⟩ | ⟨h, hget⟩ | ⟨h, hget⟩ | ⟨h, hget⟩ | ⟨h, hget⟩ | ⟨h, hget⟩ | ⟨h, hget⟩ |
      ⟨h, hget⟩ <;> rw [hget]
    · exact hforward
    · exact hfailed _
    · exact hforward
    all_goals exact hfailed _
  · rw [if_pos hmatch]
    exact hfailed _

/-! ## Decisions and loopbacks -/

theorem decreases_restoreWorkUnits {handled : Handled} (h : Decreases s handled) :
    Decreases s (handled >>= fun result => .ok (s.restoreWorkUnits result.1, result.2)) :=
  decreases_restoring h

theorem handleAnalysisDecision_eq {s₁ : PipelineState} {decision : String}
    (hget : Default.pipeline.phases.get? s.phase = some phaseDef) (hroute : phaseDef.decisions.get? decision = some route)
    (hcount : countDecision s s.phase phaseDef route Default.pipeline = .ok s₁)
    (htarget : ¬ (route.target = "failed_terminal" ∨ Default.pipeline.hasPhase route.target = false)) :
    handleAnalysisDecision s s.phase decision Default.pipeline timing =
      (Reducer.advancePhase (recordDecision s s₁ route) route.target Default.pipeline timing >>= fun result =>
        .ok (s.restoreWorkUnits result.1, result.2)) := by
  unfold handleAnalysisDecision
  rw [hget]
  dsimp only
  rw [hroute]
  dsimp only
  rw [hcount]
  exact if_neg htarget

theorem planningAnalysis_decisions {decision : String} (h : planningAnalysis.decisions.get? decision = some route) :
    route = { target := "development", resetLoop := true } ∨ route = { target := "planning" } := by
  have hmem := (Dict.get?_eq_some_iff _ _ _).mp h
  simp only [planningAnalysis, mem_cons, Prod.mk.injEq, not_mem_nil, or_false] at hmem
  rcases hmem with ⟨_, h⟩ | ⟨_, h⟩ | ⟨_, h⟩
  · exact .inl h
  · exact .inr h
  · exact .inr h

theorem developmentAnalysis_decisions {decision : String} (h : developmentAnalysis.decisions.get? decision = some route) :
    route = { target := "development" } ∨ ∃ outcome, route =
      { target := "development_final_commit_cleanup", resetLoop := true, cycleOutcome := some outcome } := by
  have hmem := (Dict.get?_eq_some_iff _ _ _).mp h
  simp only [developmentAnalysis, mem_cons, Prod.mk.injEq, not_mem_nil, or_false] at hmem
  rcases hmem with ⟨_, h⟩ | ⟨_, h⟩ | ⟨_, h⟩
  · exact .inr ⟨_, h⟩
  · exact .inl h
  · exact .inr ⟨_, h⟩

theorem applyAnalysisLoopback_spec (s : PipelineState) (field : String) (cap : Nat) :
    let s₁ := applyAnalysisLoopback s s field cap none (!s.executionCycleCharged)
    SameProgress s s₁ ∧ s₁.phase = s.phase ∧ LoopsBack s s₁ field cap := by
  unfold applyAnalysisLoopback LoopsBack
  cases hc : s.executionCycleCharged
  · refine ⟨⟨rfl, rfl, rfl, rfl, rfl⟩, rfl, ?_⟩
    simp [PipelineState.getLoopIteration, PipelineState.withLoopIteration]
  · exact ⟨SameProgress.refl s, rfl, by simp⟩

theorem countDecision_back {field : String} {cap : Nat} (hget : Default.pipeline.phases.get? s.phase = some phaseDef)
    (hrole : phaseDef.role = some .analysis) (hloop : phaseDef.loopPolicy = some { iterationStateField := field })
    (hcap : resolveAnalysisCap field Default.pipeline = .ok cap) (hreset : route.resetLoop = false) :
    countDecision s s.phase phaseDef route Default.pipeline =
      .ok (applyAnalysisLoopback s s field cap none (!s.executionCycleCharged)) := by
  have hcharged : analysisLoopbackIsAlreadyCharged s.phase s Default.pipeline = s.executionCycleCharged := by
    simp [analysisLoopbackIsAlreadyCharged, hget, hrole, hloop]
  simp only [countDecision, hloop, hreset, hcap, hcharged, bind, Except.bind, Bool.false_eq_true, if_false]

theorem cyclesLeft_of_sameProgress (h : SameProgress s s') : cyclesLeft s' = cyclesLeft s := by
  unfold cyclesLeft PipelineState.getBudgetRemaining
  rw [h.budgetCaps, h.outerProgress]

theorem decreases_planningAnalysis_decision (decision : String)
    (hs : s.phase = "planning_analysis") (hget : Default.pipeline.phases.get? s.phase = some planningAnalysis)
    (hoverride : s.postCommitPhaseOverride = none) : Decreases s (handleAnalysisDecision s s.phase decision Default.pipeline timing) := by
  cases hroute : planningAnalysis.decisions.get? decision with
  | none =>
    unfold handleAnalysisDecision
    rw [hget]
    dsimp only
    rw [hroute]
    exact decreases_failed (by rw [hs]; decide) rfl rfl rfl hoverride _
  | some route =>
    rcases planningAnalysis_decisions hroute with rfl | rfl
    · rw [handleAnalysisDecision_eq timing hget hroute rfl (by decide)]
      refine decreases_restoreWorkUnits (decreases_advance timing (by decide) hoverride ?_)
      intro s' hlands
      exact step_planningAnalysis_forward hs hlands.cyclesLeft_eq hlands.landsOn
    · rw [handleAnalysisDecision_eq timing hget hroute (countDecision_back hget rfl rfl rfl rfl) (by decide)]
      obtain ⟨hprogress, hphase, hback⟩ := applyAnalysisLoopback_spec s "planning_analysis_iteration" 3
      refine decreases_restoreWorkUnits (decreases_advance timing (by decide) ?_ ?_)
      · exact hprogress.override.trans hoverride
      · intro s' hlands
        exact step_planningAnalysis_back hs (hphase.trans hs) (cyclesLeft_of_sameProgress hprogress) hback hlands

theorem decreases_developmentAnalysis_decision (decision : String)
    (hs : s.phase = "development_analysis") (hget : Default.pipeline.phases.get? s.phase = some developmentAnalysis)
    (hoverride : s.postCommitPhaseOverride = none) : Decreases s (handleAnalysisDecision s s.phase decision Default.pipeline timing) := by
  cases hroute : developmentAnalysis.decisions.get? decision with
  | none =>
    unfold handleAnalysisDecision
    rw [hget]
    dsimp only
    rw [hroute]
    exact decreases_failed (by rw [hs]; decide) rfl rfl rfl hoverride _
  | some route =>
    rcases developmentAnalysis_decisions hroute with rfl | ⟨outcome, rfl⟩
    · rw [handleAnalysisDecision_eq timing hget hroute (countDecision_back hget rfl rfl rfl rfl) (by decide)]
      obtain ⟨hprogress, hphase, hback⟩ := applyAnalysisLoopback_spec s "development_analysis_iteration" 5
      refine decreases_restoreWorkUnits (decreases_advance timing (by decide) ?_ ?_)
      · exact hprogress.override.trans hoverride
      · intro s' hlands
        exact step_developmentAnalysis_back hs (hphase.trans hs) (cyclesLeft_of_sameProgress hprogress) hback hlands
    · have hfinal : "development_final_commit_cleanup" ∈ phaseNames := by decide
      have htarget : ¬ ("development_final_commit_cleanup" = "failed_terminal" ∨
          Default.pipeline.hasPhase "development_final_commit_cleanup" = false) := by decide
      rw [handleAnalysisDecision_eq timing hget hroute rfl htarget]
      refine decreases_restoreWorkUnits (decreases_advance timing hfinal hoverride ?_)
      intro s' hlands
      exact step_developmentAnalysis_forward hs hlands.cyclesLeft_eq hlands.landsOn

theorem decreases_undeclared_decision (decision : String) (hs : s.phase ∈ workingPhases)
    (hget : Default.pipeline.phases.get? s.phase = some phaseDef) (hnone : phaseDef.decisions = ∅)
    (hoverride : s.postCommitPhaseOverride = none) : Decreases s (handleAnalysisDecision s s.phase decision Default.pipeline timing) := by
  unfold handleAnalysisDecision
  rw [hget]
  dsimp only
  rw [hnone]
  exact decreases_failed hs rfl rfl rfl hoverride _

theorem decreases_analysisDecision (decision : String) (hs : s.phase ∈ workingPhases) (hoverride : s.postCommitPhaseOverride = none) :
    Decreases s (handleAnalysisDecision s s.phase decision Default.pipeline timing) := by
  rcases working_cases hs with ⟨_, hget⟩ | ⟨h, hget⟩ | ⟨_, hget⟩ | ⟨_, hget⟩ | ⟨_, hget⟩ | ⟨h, hget⟩ | ⟨_, hget⟩ |
    ⟨_, hget⟩
  · exact decreases_undeclared_decision timing decision hs hget rfl hoverride
  · exact decreases_planningAnalysis_decision timing decision h hget hoverride
  · exact decreases_undeclared_decision timing decision hs hget rfl hoverride
  · exact decreases_undeclared_decision timing decision hs hget rfl hoverride
  · exact decreases_undeclared_decision timing decision hs hget rfl hoverride
  · exact decreases_developmentAnalysis_decision timing decision h hget hoverride
  · exact decreases_undeclared_decision timing decision hs hget rfl hoverride
  · exact decreases_undeclared_decision timing decision hs hget rfl hoverride

def cleanupLoopback (s : PipelineState) : PipelineState :=
  s.withLoopIteration "commit_cleanup_iteration"
    (AnalysisLoopCounter.mk (s.getLoopIteration "commit_cleanup_iteration") 3).nextCompleted

theorem handlePhaseLoopback_cleanup {name commitPhase : String}
    (hget : Default.pipeline.phases.get? s.phase = some (commitCleanup name commitPhase))
    (hback : resolveNextPhase s.phase .loopback Default.pipeline = .ok name) : handlePhaseLoopback s Default.pipeline timing =
      Reducer.advancePhase (cleanupLoopback s) name Default.pipeline timing := by
  have hcharged : analysisLoopbackIsAlreadyCharged s.phase s Default.pipeline = false := by
    simp [analysisLoopbackIsAlreadyCharged, hget, commitCleanup]
  have hcap : resolveAnalysisCap "commit_cleanup_iteration" Default.pipeline = .ok 3 := rfl
  unfold handlePhaseLoopback
  rw [hget]
  simp only [commitCleanup, handleCappedPhaseLoopback, hcap, hcharged, hback, bind, Except.bind]
  rfl

theorem cleanupLoopback_count (s : PipelineState) : (cleanupLoopback s).getLoopIteration "commit_cleanup_iteration" =
      (AnalysisLoopCounter.mk (s.getLoopIteration "commit_cleanup_iteration") 3).nextCompleted := by
  simp [cleanupLoopback, PipelineState.getLoopIteration, PipelineState.withLoopIteration]

theorem decreases_phaseLoopback (hs : s.phase = "development_commit_cleanup" ∨ s.phase = "development_final_commit_cleanup")
    (hoverride : s.postCommitPhaseOverride = none) : Decreases s (handlePhaseLoopback s Default.pipeline timing) := by
  rcases hs with hs | hs
  · rw [handlePhaseLoopback_cleanup
      timing (by rw [hs]; rfl) (by rw [hs]; rfl)]
    refine decreases_advance timing (by decide) hoverride ?_
    intro s' hlands
    exact step_cleanup_back (cleanupLoopback s) hs rfl rfl rfl (keepsLoops_of_set rfl) (cleanupLoopback_count s)
      hlands
  · rw [handlePhaseLoopback_cleanup timing (by rw [hs]; rfl) (by rw [hs]; rfl)]
    refine decreases_advance timing (by decide) hoverride ?_
    intro s' hlands
    exact step_finalCleanup_back (cleanupLoopback s) hs rfl rfl (cleanupLoopback_count s) hlands

/-! ## Commits -/

theorem advanceThroughInvocationGate_plain (hgate : (Default.pipeline.phases.get? t).bind PhaseDefinition.invocationGate = none) :
    advanceThroughInvocationGate s t Default.pipeline timing =
      Reducer.advancePhase { s with lastExecutionResultStatus := none } t Default.pipeline timing := by
  have happly : applyInvocationGate s t Default.pipeline = (t, s, none) := by
    unfold applyInvocationGate
    cases hget : Default.pipeline.phases.get? t with
    | none => rfl
    | some phaseDef =>
      rw [hget] at hgate
      have hnone : phaseDef.invocationGate = none := hgate
      simp only [hnone]
  unfold advanceThroughInvocationGate
  rw [happly]
  dsimp only
  cases Reducer.advancePhase { s with lastExecutionResultStatus := none } t Default.pipeline timing <;> rfl

theorem Decreases.catchValueError {handled : Handled} (h : Decreases s handled)
    (handler : String → Handled) : Decreases s (Lib.catchValueError handled handler) := by
  obtain ⟨s', effects, hok, hrest⟩ := h
  exact ⟨s', effects, by rw [hok]; rfl, hrest⟩

theorem decreases_commit_of_route {progressState : PipelineState} {skipped : Bool} (label : String)
    (timing : Option RoutingTiming) (happly : applyCommitOutcome s s skipped Default.pipeline = progressState)
    (hresolve : resolvePostCommitPhase progressState Default.pipeline = .ok t)
    (hroute : Decreases s (advanceThroughInvocationGate (closeCommit s progressState Default.pipeline) t
      Default.pipeline timing)) : Decreases s (handleCommitOutcome skipped label s Default.pipeline timing) := by
  unfold handleCommitOutcome
  rw [happly]
  dsimp only [bind, Except.bind]
  rw [hresolve]
  exact hroute.catchValueError _

theorem decreases_commit_plain (skipped : Bool)
    (label : String) (timing : Option RoutingTiming) (hs : s.phase ∈ workingPhases) (ht : t ∈ phaseNames)
    (hget : Default.pipeline.phases.get? s.phase = some phaseDef)
    (hrole : phaseDef.role ≠ some .commit) (hpolicy : phaseDef.commitPolicy = none)
    (hlife : Default.pipeline.lifecyclePhases.get? s.phase = none)
    (hnext : resolveNextPhase s.phase .success Default.pipeline = .ok t)
    (hgate : (Default.pipeline.phases.get? t).bind PhaseDefinition.invocationGate = none)
    (hoverride : s.postCommitPhaseOverride = none) :
    Decreases s (handleCommitOutcome skipped label s Default.pipeline timing) := by
  have happly : applyCommitOutcome s s skipped Default.pipeline = s := by
    unfold applyCommitOutcome
    rw [hlife, hget]
    simp only [Option.bind_some, hpolicy]
  have hcommit : phaseHasRole Default.pipeline s.phase .commit = false := by
    simp [phaseHasRole, hget, hrole]
  have hresolve : resolvePostCommitPhase s Default.pipeline = .ok t := by
    unfold resolvePostCommitPhase declaredPostCommitRoute
    rw [hoverride, hcommit]
    exact hnext
  have hcloses : commitClosesACycle s.phase Default.pipeline = false := by
    unfold commitClosesACycle budgetCounterForPhase
    rw [hlife, hget]
    simp only [Option.bind_some, hpolicy]
    rfl
  refine decreases_commit_of_route label timing happly hresolve ?_
  unfold closeCommit
  rw [hcloses, advanceThroughInvocationGate_plain timing hgate]
  exact decreases_forward timing
    hs ⟨⟨rfl, rfl, rfl, rfl, hoverride.symm⟩, rfl, rfl⟩ rfl ht hnext

theorem rank_eq_developmentCommit {g : PipelineState} (hs : s.phase = "development_commit")
    (hphase : g.phase = s.phase) (hprogress : SameProgress s g)
    (hkeep : KeepsLoops s g ["commit_cleanup_iteration"]) : rank g = rank s := by
  have hg : g.phase = "development_commit" := hphase.trans hs
  have hleft := hkeep.passesLeft_eq "development_analysis_iteration" (by decide) 5
  have hcharge : chargeRank g = chargeRank s := by
    unfold chargeRank
    rw [hprogress.charged]
  have hplan : planRank g = planRank s := by simp [planRank, hg, hs]
  unfold rank
  rw [cyclesLeft_of_sameProgress hprogress, hplan, devRank_commit hg, devRank_commit hs, hleft, hcharge,
    phaseRank_commit (.inl hg), phaseRank_commit (.inl hs), hprogress.commit]

theorem applyInvocationGate_analysis (g : PipelineState) :
    applyInvocationGate g "development_analysis" Default.pipeline = ("development_analysis", g, some "development") ∨
      applyInvocationGate g "development_analysis" Default.pipeline =
        ("development_final_commit_cleanup", stampForwardOutcome g "development_analysis" Default.pipeline, none) := by
  unfold applyInvocationGate
  have hget : Default.pipeline.phases.get? "development_analysis" = some developmentAnalysis := rfl
  rw [hget]
  exact ite_eq_or_eq _ _ _

theorem chargeForGate_development (s : PipelineState) : chargeAnalysisCycleForGate s "development" Default.pipeline =
      .ok { s.withLoopIteration "development_analysis_iteration"
          (AnalysisLoopCounter.mk (s.getLoopIteration "development_analysis_iteration") 5).nextCompleted with
        executionCycleCharged := true } := rfl

theorem decreases_gate {g : PipelineState} (hs : s.phase = "development_commit")
    (hphase : g.phase = s.phase) (hprogress : SameProgress s g) (hkeep : KeepsLoops s g ["commit_cleanup_iteration"])
    (hoverride : g.postCommitPhaseOverride = none) :
    Decreases s (advanceThroughInvocationGate g "development_analysis" Default.pipeline timing) := by
  have hg : g.phase = "development_commit" := hphase.trans hs
  have hrank := rank_eq_developmentCommit hs hphase hprogress hkeep
  have hmem : "development_analysis" ∈ phaseNames := by decide
  have hfinal : "development_final_commit_cleanup" ∈ phaseNames := by decide
  unfold advanceThroughInvocationGate
  rcases applyInvocationGate_analysis g with happly | happly
  · rw [happly]
    obtain ⟨s₁, hok, hlands⟩ := advance_lands { g with lastExecutionResultStatus := none } hmem timing
    have hrank₁ : rank { g with lastExecutionResultStatus := none } = rank s := hrank
    dsimp only [bind, Except.bind]
    rw [hok]
    dsimp only
    by_cases hlanded : s₁.phase = "development_analysis"
    · rw [if_pos hlanded, chargeForGate_development]
      refine ⟨_, _, rfl, ?_, hlands.override.trans hoverride, ?_⟩
      · show s₁.phase ∈ phaseNames
        rw [hlanded]
        exact hmem
      · rw [← hrank₁]
        exact step_commit_gated hg hlands hlanded rfl
    · rw [if_neg hlanded]
      refine ⟨s₁, [], rfl, landed_mem hmem hlands, hlands.override.trans hoverride, ?_⟩
      rw [← hrank₁]
      exact step_commit hg hlands
  · -- the gate was closed: the stamped state goes on to the finalization path
    rw [happly]
    obtain ⟨hstamp, hstampPhase, hstampLoops⟩ := stampForwardOutcome_frame g "development_analysis" Default.pipeline
    generalize stampForwardOutcome g "development_analysis" Default.pipeline = denied at *
    obtain ⟨s₁, hok, hlands⟩ := advance_lands { denied with lastExecutionResultStatus := none } hfinal timing
    dsimp only [bind, Except.bind]
    rw [hok]
    refine ⟨s₁, [], rfl, landed_mem hfinal hlands, hlands.override.trans (hstamp.override.trans hoverride), ?_⟩
    have hcycles : cyclesLeft s₁ = cyclesLeft s :=
      hlands.cyclesLeft_eq.trans ((cyclesLeft_of_sameProgress hstamp).trans (cyclesLeft_of_sameProgress hprogress))
    refine rank_lt_finalize hcycles (by simp [planRank, hs]) (by rw [devRank_commit hs]; omega) ?_
    rcases hlands.landsOn with h | h
    · exact .inl h
    · simp [passes] at h
      exact .inr h

end

theorem decreases_developmentCommit (skipped : Bool) (label : String) (timing : Option RoutingTiming) (hs : s.phase = "development_commit")
    (hget : Default.pipeline.phases.get? s.phase = some developmentCommit)
    (hoverride : s.postCommitPhaseOverride = none) :
    Decreases s (handleCommitOutcome skipped label s Default.pipeline timing) := by
  let progressState := s.withLoopIteration "commit_cleanup_iteration" 0
  have hlife : Default.pipeline.lifecyclePhases.get? s.phase = none := by rw [hs]; rfl
  have happly : applyCommitOutcome s s skipped Default.pipeline = progressState := by
    unfold applyCommitOutcome
    rw [hlife, hget]
    rfl
  have hresolve : resolvePostCommitPhase progressState Default.pipeline = .ok "development_analysis" := by
    unfold resolvePostCommitPhase declaredPostCommitRoute
    have hlabel : computeBudgetState progressState Default.pipeline = none := by
      unfold computeBudgetState
      have hcounter : budgetCounterForPhase progressState.phase Default.pipeline = none := by
        show budgetCounterForPhase s.phase Default.pipeline = none
        rw [hs]
        rfl
      rw [hcounter]
    have hnone : progressState.postCommitPhaseOverride = none := hoverride
    rw [hnone, hlabel, ite_self]
    show resolveNextPhase s.phase .success Default.pipeline = _
    rw [hs]
    rfl
  have hclose : closeCommit s progressState Default.pipeline = { progressState with postCommitPhaseOverride := none } := by
    unfold closeCommit commitClosesACycle
    rw [hs]
    rfl
  refine decreases_commit_of_route label timing happly hresolve ?_
  rw [hclose]
  exact decreases_gate timing hs rfl ⟨rfl, rfl, rfl, rfl, hoverride.symm⟩ (keepsLoops_of_set rfl) rfl

def finalCommitCounted (s : PipelineState) : PipelineState :=
  { ((s.withLoopIteration "development_analysis_iteration" 0).withLoopIteration "commit_cleanup_iteration"
      0).withOuterProgress "iteration" (s.getOuterProgress "iteration" + 1) with
    cycleTimingStartIndex := s.phaseTimings.length }

theorem finalCommitCounted_remaining (s : PipelineState) : (finalCommitCounted s).getBudgetRemaining "iteration" =
      max 0 (s.budgetCaps.getD "iteration" 0 - (s.getOuterProgress "iteration" + 1)) := by
  unfold finalCommitCounted PipelineState.getBudgetRemaining
  simp only [PipelineState.withOuterProgress, PipelineState.withLoopIteration, Dict.getD_set, if_true]

theorem cyclesLeft_finalCommitCounted (s : PipelineState) : cyclesLeft (finalCommitCounted s) ≤ cyclesLeft s ∧
      (0 < (finalCommitCounted s).getBudgetRemaining "iteration" → cyclesLeft (finalCommitCounted s) < cyclesLeft s) := by
  unfold cyclesLeft
  rw [finalCommitCounted_remaining]
  unfold PipelineState.getBudgetRemaining PipelineState.getOuterProgress
  constructor
  · omega
  · intro h
    omega

/-- Back to planning while budget is left, else to the terminal of the verdict, success without one. -/
def finalCommitTarget (s : PipelineState) : String :=
  if 0 < s.getBudgetRemaining "iteration" then "planning"
  else if s.pendingCycleOutcome = some .failed then "failed_terminal"
  else "complete"

theorem resolve_finalCommit (hs : s.phase = "development_final_commit") (hoverride : s.postCommitPhaseOverride = none) :
    resolvePostCommitPhase s Default.pipeline = .ok (finalCommitTarget s) := by
  have hcounter : budgetCounterForPhase s.phase Default.pipeline = some "iteration" := by
    rw [hs]
    rfl
  have hrole : phaseHasRole Default.pipeline s.phase .commit = true := by
    rw [hs]
    rfl
  have hroute : ∀ label, computeBudgetState s Default.pipeline = some label → declaredPostCommitRoute s Default.pipeline =
        (candidateCycleOutcomes s).findSome? (matchingRoute Default.pipeline "development_final_commit" label) := by
    intro label hlabel
    unfold declaredPostCommitRoute
    rw [if_pos hrole, hlabel, hs]
  have hbudget : computeBudgetState s Default.pipeline = if 0 < s.getBudgetRemaining "iteration" then some .remaining else some .noReview := by
    unfold computeBudgetState
    rw [hcounter]
    rfl
  unfold resolvePostCommitPhase finalCommitTarget
  rw [hoverride]
  by_cases hleft : 0 < s.getBudgetRemaining "iteration"
  · rw [if_pos hleft] at hbudget
    rw [hroute _ hbudget, if_pos hleft]
    unfold candidateCycleOutcomes
    cases s.pendingCycleOutcome with
    | none => rfl
    | some outcome => cases outcome <;> rfl
  · rw [if_neg hleft] at hbudget
    rw [hroute _ hbudget, if_neg hleft]
    unfold candidateCycleOutcomes
    cases s.pendingCycleOutcome with
    | none => rfl
    | some outcome => cases outcome <;> rfl

theorem applyCommitOutcome_finalCommit (skipped : Bool) (hs : s.phase = "development_final_commit") :
    applyCommitOutcome s s skipped Default.pipeline = finalCommitCounted s := by
  unfold applyCommitOutcome
  rw [hs]
  rfl

theorem decreases_finalCommit (skipped : Bool) (label : String) (timing : Option RoutingTiming)
    (hs : s.phase = "development_final_commit") (hoverride : s.postCommitPhaseOverride = none) :
    Decreases s (handleCommitOutcome skipped label s Default.pipeline timing) := by
  have hworking : s.phase ∈ workingPhases := by
    rw [hs]
    decide
  have happly := applyCommitOutcome_finalCommit skipped hs
  have hclose : closeCommit s (finalCommitCounted s) Default.pipeline =
      { finalCommitCounted s with postCommitPhaseOverride := none, pendingCycleOutcome := none } := by
    unfold closeCommit commitClosesACycle
    rw [hs]
    rfl
  obtain ⟨hle, hlt⟩ := cyclesLeft_finalCommitCounted s
  -- every landing keeps what is left after the accounting
  have hcycles : ∀ {t : String} {s' : PipelineState}, Lands { finalCommitCounted s with
        postCommitPhaseOverride := none, pendingCycleOutcome := none, lastExecutionResultStatus := none } t s' →
      cyclesLeft s' = cyclesLeft (finalCommitCounted s) := fun hlands => hlands.cyclesLeft_eq
  have hterminal : ∀ t, t = "complete" ∨ t = "failed_terminal" → resolvePostCommitPhase (finalCommitCounted s) Default.pipeline = .ok t →
      Decreases s (handleCommitOutcome skipped label s Default.pipeline timing) := by
    intro t ht hresolve
    refine decreases_commit_of_route label timing happly hresolve ?_
    rw [hclose, advanceThroughInvocationGate_plain timing (by rcases ht with rfl | rfl <;> rfl)]
    refine decreases_advance timing (by rcases ht with rfl | rfl <;> decide) rfl ?_
    intro s' hlands
    refine rank_lt_terminal hworking ?_ ((hcycles hlands).trans_le hle)
    rcases hlands.landsOn with hland | hpass
    · rw [hland]
      exact ht
    · rcases ht with rfl | rfl <;> simp [passes] at hpass
  have hresolve := resolve_finalCommit (s := finalCommitCounted s) hs hoverride
  unfold finalCommitTarget at hresolve
  split at hresolve
  · rename_i hleft
    refine decreases_commit_of_route label timing happly hresolve ?_
    rw [hclose, advanceThroughInvocationGate_plain timing rfl]
    refine decreases_advance timing (by decide) rfl ?_
    intro s' hlands
    rw [rank_lt_iff]
    left
    rw [hcycles hlands]
    exact hlt hleft
  · split at hresolve
    · exact hterminal "failed_terminal" (.inr rfl) hresolve
    · exact hterminal "complete" (.inl rfl) hresolve

theorem decreases_commit (skipped : Bool) (label : String) (timing : Option RoutingTiming)
    (hs : s.phase ∈ workingPhases) (hoverride : s.postCommitPhaseOverride = none) :
    Decreases s (handleCommitOutcome skipped label s Default.pipeline timing) := by
  rcases working_cases hs with ⟨h, hget⟩ | ⟨h, hget⟩ | ⟨h, hget⟩ | ⟨h, hget⟩ | ⟨h, hget⟩ | ⟨h, hget⟩ | ⟨h, hget⟩ |
    ⟨h, hget⟩
  · exact decreases_commit_plain (t := "planning_analysis") skipped label timing hs (by decide) hget (by decide) rfl
      (by rw [h]; rfl) (by rw [h]; rfl) rfl hoverride
  · exact decreases_commit_plain (t := "development") skipped label timing hs (by decide) hget (by decide) rfl
      (by rw [h]; rfl) (by rw [h]; rfl) rfl hoverride
  · exact decreases_commit_plain (t := "development_commit_cleanup") skipped label timing hs (by decide) hget
      (by decide) rfl (by rw [h]; rfl) (by rw [h]; rfl) rfl hoverride
  · exact decreases_commit_plain (t := "development_commit") skipped label timing hs (by decide) hget (by decide) rfl
      (by rw [h]; rfl) (by rw [h]; rfl) rfl hoverride
  · exact decreases_developmentCommit skipped label timing h hget hoverride
  · exact decreases_commit_plain (t := "development_final_commit_cleanup") skipped label timing hs (by decide) hget
      (by decide) rfl (by rw [h]; rfl) (by rw [h]; rfl) rfl hoverride
  · exact decreases_commit_plain (t := "development_final_commit") skipped label timing hs (by decide) hget
      (by decide) rfl (by rw [h]; rfl) (by rw [h]; rfl) rfl hoverride
  · exact decreases_finalCommit skipped label timing h hoverride

/-! ## Runs -/

def CanEmit (s : PipelineState) : Event → Prop
  | .pipeline .agentSuccess | .pipeline .commitSuccess | .pipeline .commitSkipped => True
  | .pipeline .phaseLoopback => phaseHasRole Default.pipeline s.phase .commitCleanup = true
  | .executionResult _ _ => True
  | .analysisDecision phase _ => phase = s.phase
  | _ => False

theorem cleanup_of_role (hs : phase ∈ workingPhases) (hrole : phaseHasRole Default.pipeline phase .commitCleanup = true) :
    phase = "development_commit_cleanup" ∨ phase = "development_final_commit_cleanup" := by
  simp only [workingPhases, mem_cons, not_mem_nil, or_false] at hs
  rcases hs with rfl | rfl | rfl | rfl | rfl | rfl | rfl | rfl
  case inr.inr.inr.inl => exact .inl rfl
  case inr.inr.inr.inr.inr.inr.inl => exact .inr rfl
  all_goals exact absurd hrole (by decide)

theorem decreases_reduce {event : Event} (recovery : Option RecoveryController)
    (timing : Option RoutingTiming) (hs : s.phase ∈ workingPhases) (hoverride : s.postCommitPhaseOverride = none)
    (hemit : CanEmit s event) : Decreases s (reduce s event Default.pipeline recovery timing).result := by
  cases event with
  | executionResult phase status => exact decreases_executionResult timing phase status hs hoverride
  | analysisDecision phase decision =>
    have hphase : phase = s.phase := hemit
    rw [hphase]
    exact decreases_analysisDecision timing decision hs hoverride
  | pipeline event =>
    cases event with
    | agentSuccess => exact decreases_restoring (decreases_agentSuccess timing hs hoverride)
    | commitSuccess => exact decreases_restoring (decreases_commit false "commit success" timing hs hoverride)
    | commitSkipped => exact decreases_restoring (decreases_commit true "commit skipped" timing hs hoverride)
    | phaseLoopback =>
      have hcleanup := cleanup_of_role hs hemit
      exact decreases_restoring (decreases_phaseLoopback timing hcleanup hoverride)
    | _ => exact hemit.elim
  | _ => exact hemit.elim

/-- At most `fuel` events from step `k` on, up to a terminal. -/
def runFor (emit : Nat → PipelineState → Event × Option RoutingTiming) (recovery : Option RecoveryController) :
    (k fuel : Nat) → PipelineState → Except PyError PipelineState
  | _, 0, s => .ok s
  | k, fuel + 1, s =>
    if s.phase ∈ Default.pipeline.terminalStates then .ok s
    else do
      let reduced := reduce s (emit k s).1 Default.pipeline recovery (emit k s).2
      let (s', _) ← reduced.result
      runFor emit reduced.recovery (k + 1) fuel s'

theorem runFor_step {emit : Nat → PipelineState → Event × Option RoutingTiming}
    {recovery : Option RecoveryController} {k : Nat} {effects : List Effect}
    (hworking : s.phase ∉ Default.pipeline.terminalStates)
    (hok : (reduce s (emit k s).1 Default.pipeline recovery (emit k s).2).result = .ok (s', effects)) (fuel : Nat) :
    runFor emit recovery k (fuel + 1) s =
      runFor emit (reduce s (emit k s).1 Default.pipeline recovery (emit k s).2).recovery (k + 1) fuel s' := by
  rw [runFor, if_neg hworking]
  dsimp only
  rw [hok]
  rfl

theorem terminal_or_working (h : phase ∈ phaseNames) : phase ∈ Default.pipeline.terminalStates ∨
      (phase ∉ Default.pipeline.terminalStates ∧ phase ∈ workingPhases) := by
  simp only [phaseNames, mem_cons, not_mem_nil, or_false] at h
  rcases h with rfl | rfl | rfl | rfl | rfl | rfl | rfl | rfl | rfl | rfl <;> decide

/-- Each step of the bundled workflow decreases the rank, until the run stops at a terminal. -/
theorem bundled_run_terminates (emit : Nat → PipelineState → Event × Option RoutingTiming)
    (hemit : ∀ k s, CanEmit s (emit k s).1) (recovery : Option RecoveryController) (start : PipelineState)
    (hphase : start.phase ∈ phaseNames) (hoverride : start.postCommitPhaseOverride = none) :
    ∃ n final, runFor emit recovery 0 n start = .ok final ∧ final.phase ∈ Default.pipeline.terminalStates ∧
      ∀ m < n, ∃ a b, runFor emit recovery 0 m start = .ok a ∧ runFor emit recovery 0 (m + 1) start = .ok b ∧
        rank b < rank a := by
  generalize 0 = k
  -- well-founded induction on the rank, for every step number and controller
  induction hrank : rank start using WellFoundedLT.induction generalizing start recovery k with
  | ind r ih =>
    subst hrank
    rcases terminal_or_working hphase with hterminal | ⟨hrunning, hworking⟩
    · exact ⟨0, start, rfl, hterminal, fun m hm => absurd hm (Nat.not_lt_zero m)⟩
    · obtain ⟨s', effects, hok, hmem, hnone, hlt⟩ :=
        decreases_reduce recovery (emit k start).2 hworking hoverride (hemit k start)
      have hstep := runFor_step hrunning hok
      obtain ⟨n, final, hfinal, hterminal, hdecreases⟩ := ih (rank s') hlt _ s' hmem hnone (k + 1) rfl
      refine ⟨n + 1, final, (hstep n).trans hfinal, hterminal, ?_⟩
      intro m hm
      cases m with
      | zero => exact ⟨start, s', rfl, hstep 0, hlt⟩
      | succ m =>
        obtain ⟨a, b, ha, hb, hab⟩ := hdecreases m (Nat.lt_of_succ_lt_succ hm)
        exact ⟨a, b, (hstep m).trans ha, (hstep (m + 1)).trans hb, hab⟩

/-- Three cycles of budget, commits that all succeed and cleanups that loop back for as long as they may. -/
theorem bundled_run_terminates_of_three_cycles : ∃ n final,
      runFor (fun _ s => (if phaseHasRole Default.pipeline s.phase .commitCleanup then .pipeline .phaseLoopback
          else .pipeline .commitSuccess, none)) none 0 n
        { phase := "planning", budgetCaps := ⟨[("iteration", 3)], by decide⟩ } = .ok final ∧
      final.phase ∈ Default.pipeline.terminalStates := by
  obtain ⟨n, final, hrun, hterminal, _⟩ := bundled_run_terminates
    (fun _ s => (if phaseHasRole Default.pipeline s.phase .commitCleanup then .pipeline .phaseLoopback
      else .pipeline .commitSuccess, none))
    (by intro k s; dsimp only; split <;> trivial) none
    { phase := "planning", budgetCaps := ⟨[("iteration", 3)], by decide⟩ } (by decide) rfl
  exact ⟨n, final, hrun, hterminal⟩

end RalphWorkflow.Termination
