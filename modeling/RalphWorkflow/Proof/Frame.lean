import RalphWorkflow.Pipeline.Reducer

/-! Frame lemmas of the transition seam: the timer and the bypass of spent phases touch neither budgets nor the charge
of the current cycle, and of the loop counters only those that are spent. -/
namespace RalphWorkflow.Frame
open Lib Policy Pipeline Pipeline.Reducer

/-! ## The timer -/

/-- The fields that progress is measured by agree; timer and verdict may differ. -/
structure SameProgress (s s' : PipelineState) : Prop where
  budgetCaps : s'.budgetCaps = s.budgetCaps
  outerProgress : s'.outerProgress = s.outerProgress
  charged : s'.executionCycleCharged = s.executionCycleCharged
  commit : s'.commit = s.commit
  override : s'.postCommitPhaseOverride = s.postCommitPhaseOverride

section

variable (s : PipelineState)

theorem SameProgress.refl : SameProgress s s := ⟨rfl, rfl, rfl, rfl, rfl⟩

theorem SameProgress.trans {s t u : PipelineState} (h : SameProgress s t) (h' : SameProgress t u) : SameProgress s u :=
  ⟨h'.1.trans h.1, h'.2.trans h.2, h'.3.trans h.3, h'.4.trans h.4, h'.5.trans h.5⟩

theorem applyCycleTimebox_frame (target : String) (policy : PipelinePolicy) (timing : Option RoutingTiming) :
    SameProgress s (applyCycleTimebox s target policy timing).state ∧ (applyCycleTimebox s target policy timing).state.phase = s.phase ∧
      (applyCycleTimebox s target policy timing).state.loopIterations = s.loopIterations := by
  rcases applyCycleTimebox_cases s target policy timing with h | ⟨ct, t, _, _, h⟩
  · rw [h]
    exact ⟨SameProgress.refl s, rfl, rfl⟩
  · rcases h with ⟨_, _, h⟩ | ⟨_, _, _, h⟩ | ⟨_, _, _, h⟩
    all_goals
      rw [h]
      exact ⟨⟨rfl, rfl, rfl, rfl, rfl⟩, rfl, rfl⟩

theorem applyCycleTimebox_target (target : String) (policy : PipelinePolicy) (timing : Option RoutingTiming) :
    (applyCycleTimebox s target policy timing).targetPhase = target ∨ ∃ ct, policy.cycleTimebox = some ct ∧ target = ct.guardedEntry ∧
        (applyCycleTimebox s target policy timing).targetPhase = ct.finalizationTarget := by
  rcases applyCycleTimebox_cases s target policy timing with h | ⟨ct, t, hct, _, h⟩
  · rw [h]
    exact .inl rfl
  · rcases h with ⟨_, _, h⟩ | ⟨_, _, _, h⟩ | ⟨hguarded, _, _, h⟩
    · rw [h]
      exact .inl rfl
    · rw [h]
      exact .inl rfl
    · rw [h]
      exact .inr ⟨ct, hct, hguarded, rfl⟩

theorem startCycle_frame (target : String) (skipped : List String) (policy : PipelinePolicy) :
    SameProgress s (startCycleForBypassedStartSource s target skipped policy) ∧
      (startCycleForBypassedStartSource s target skipped policy).loopIterations = s.loopIterations := by
  unfold startCycleForBypassedStartSource
  split
  · exact ⟨SameProgress.refl s, rfl⟩
  · split
    · exact ⟨⟨rfl, rfl, rfl, rfl, rfl⟩, rfl⟩
    · exact ⟨SameProgress.refl s, rfl⟩

theorem concludeCycle_frame (next : String) (policy : PipelinePolicy) : SameProgress s (concludeCycleOnRouteOutOfCycle s next policy) ∧
      (concludeCycleOnRouteOutOfCycle s next policy).loopIterations = s.loopIterations := by
  unfold concludeCycleOnRouteOutOfCycle
  split
  · exact ⟨SameProgress.refl s, rfl⟩
  · split
    · exact ⟨⟨rfl, rfl, rfl, rfl, rfl⟩, rfl⟩
    · exact ⟨SameProgress.refl s, rfl⟩

theorem stampForwardOutcome_frame (phase : String) (policy : PipelinePolicy) :
    SameProgress s (stampForwardOutcome s phase policy) ∧ (stampForwardOutcome s phase policy).phase = s.phase ∧
      (stampForwardOutcome s phase policy).loopIterations = s.loopIterations := by
  unfold stampForwardOutcome
  split
  · exact ⟨⟨rfl, rfl, rfl, rfl, rfl⟩, rfl, rfl⟩
  · exact ⟨SameProgress.refl s, rfl, rfl⟩

theorem skipAnalysis_frame (phase field : String) (policy : PipelinePolicy) : SameProgress s (skipAnalysis s phase field policy) ∧
      (skipAnalysis s phase field policy).loopIterations = s.loopIterations.set field 0 := by
  obtain ⟨hprogress, _, hloops⟩ :=
    stampForwardOutcome_frame { s.withLoopIteration field 0 with reviewOutcome := none } phase policy
  exact ⟨⟨hprogress.1, hprogress.2, hprogress.3, hprogress.4, hprogress.5⟩, hloops⟩

theorem skipAnalysis_phase (phase field : String) (policy : PipelinePolicy) : (skipAnalysis s phase field policy).phase = s.phase :=
  (stampForwardOutcome_frame { s.withLoopIteration field 0 with reviewOutcome := none } phase policy).2.1

end

theorem withBypassedCycleTiming_frame (r : ExhaustedAnalysisBypassResult) (policy : PipelinePolicy)
    (timing : Option RoutingTiming) (justStarted : Bool) :
    SameProgress r.state (withBypassedCycleTiming r policy timing justStarted).1 ∧
      (withBypassedCycleTiming r policy timing justStarted).1.loopIterations = r.state.loopIterations := by
  unfold withBypassedCycleTiming
  split
  · exact ⟨SameProgress.refl _, rfl⟩
  · obtain ⟨hprogress, _, hloops⟩ := applyCycleTimebox_frame r.state r.targetPhase policy timing
    dsimp only
    generalize applyCycleTimebox r.state r.targetPhase policy timing = decision at *
    obtain ⟨hstart, hstartLoops⟩ := startCycle_frame decision.state decision.targetPhase
      (r.skipped.map ExhaustedAnalysisSkip.phase) policy
    exact ⟨hprogress.trans hstart, hstartLoops.trans hloops⟩

theorem bypassFrom_frame {policy : PipelinePolicy} {fuel : Nat} {s : PipelineState} {target : String}
    {skipped : List ExhaustedAnalysisSkip} {visited : List String} {bypass : ExhaustedAnalysisBypassResult}
    (h : exhaustedAnalysisBypassFrom policy fuel s target skipped visited = .ok bypass) :
    SameProgress s bypass.state := by
  refine exhaustedAnalysisBypassFrom_invariant (fun state _ _ => SameProgress s state) ?_ (SameProgress.refl s) h
  intro state phase _ skip next hsame hskip
  obtain ⟨loopPolicy, _, _, _, _, _, rfl⟩ := skipIfExhausted_eq_some hskip
  exact hsame.trans (skipAnalysis_frame state phase loopPolicy.iterationStateField policy).1

theorem preparePhaseAdvance_frame {policy : PipelinePolicy} {s prepared : PipelineState} {target landed : String}
    {timing : Option RoutingTiming} (h : preparePhaseAdvance s target policy timing = .ok (prepared, landed)) :
    SameProgress s prepared := by
  obtain ⟨bypass, hbypass, hprepared⟩ := preparePhaseAdvance_eq_ok h
  have hbypassed : SameProgress (applyCycleTimebox s target policy timing).state bypass.state := by
    rcases hbypass with hown | ⟨_, hplain⟩
    · exact bypassFrom_frame (ownBypass_eq_some_iff.mp hown).2.2.1
    · exact bypassFrom_frame hplain
  rw [← (Prod.mk.inj hprepared).1]
  refine (applyCycleTimebox_frame s target policy timing).1.trans (hbypassed.trans ?_)
  exact (withBypassedCycleTiming_frame bypass policy timing _).1.trans (concludeCycle_frame _ _ policy).1

theorem bypassFrom_phase {policy : PipelinePolicy} {fuel : Nat} {s : PipelineState} {target : String}
    {skipped : List ExhaustedAnalysisSkip} {visited : List String} {bypass : ExhaustedAnalysisBypassResult}
    (h : exhaustedAnalysisBypassFrom policy fuel s target skipped visited = .ok bypass) :
    bypass.state.phase = s.phase := by
  refine exhaustedAnalysisBypassFrom_invariant (fun state _ _ => state.phase = s.phase) ?_ rfl h
  intro state phase _ skip next hsame hskip
  obtain ⟨loopPolicy, _, _, _, _, _, rfl⟩ := skipIfExhausted_eq_some hskip
  exact (skipAnalysis_phase state phase loopPolicy.iterationStateField policy).trans hsame

theorem preparePhaseAdvance_phase {policy : PipelinePolicy} {s prepared : PipelineState} {target landed : String}
    {timing : Option RoutingTiming} (h : preparePhaseAdvance s target policy timing = .ok (prepared, landed)) :
    prepared.phase = s.phase := by
  obtain ⟨bypass, hbypass, hprepared⟩ := preparePhaseAdvance_eq_ok h
  have hbypassed : bypass.state.phase = s.phase := by
    rw [← (applyCycleTimebox_frame s target policy timing).2.1]
    rcases hbypass with hown | ⟨_, hplain⟩
    · exact bypassFrom_phase (ownBypass_eq_some_iff.mp hown).2.2.1
    · exact bypassFrom_phase hplain
  have htimed : (withBypassedCycleTiming bypass policy timing
      (applyCycleTimebox s target policy timing).timingStarted).1.phase = bypass.state.phase := by
    unfold withBypassedCycleTiming
    split
    · rfl
    · dsimp only
      rw [← (applyCycleTimebox_frame bypass.state bypass.targetPhase policy timing).2.1]
      unfold startCycleForBypassedStartSource
      split
      · rfl
      · split <;> rfl
  rw [← (Prod.mk.inj hprepared).1, ← hbypassed, ← htimed]
  unfold concludeCycleOnRouteOutOfCycle
  split
  · rfl
  · split <;> rfl

/-! ## Loop counters that are not spent -/

section

variable {policy : PipelinePolicy} {field : String} {cap : Nat}

theorem getLoopIteration_congr {s t : PipelineState} (hloops : s.loopIterations = t.loopIterations) (field : String) :
    t.getLoopIteration field = s.getLoopIteration field := by
  unfold PipelineState.getLoopIteration
  rw [hloops]

theorem bypassFrom_count (hcap : resolveAnalysisCap field policy = .ok cap) {fuel : Nat} {s : PipelineState}
    {target : String} {skipped : List ExhaustedAnalysisSkip} {visited : List String}
    {bypass : ExhaustedAnalysisBypassResult} (hroom : s.getLoopIteration field < cap)
    (h : exhaustedAnalysisBypassFrom policy fuel s target skipped visited = .ok bypass) :
    bypass.state.getLoopIteration field = s.getLoopIteration field := by
  refine exhaustedAnalysisBypassFrom_invariant (fun state _ _ => state.getLoopIteration field = s.getLoopIteration field) ?_ rfl h
  intro state phase _ skip next hcount hskip
  obtain ⟨loopPolicy, otherCap, _, hother, hspent, _, hnext⟩ := skipIfExhausted_eq_some hskip
  have hfield : field ≠ loopPolicy.iterationStateField := by
    rintro rfl
    rw [hcap] at hother
    cases hother
    omega
  rw [hnext, ← hcount]
  unfold PipelineState.getLoopIteration
  rw [(skipAnalysis_frame state phase loopPolicy.iterationStateField policy).2, Dict.getD_set, if_neg hfield]

theorem advance_count (hcap : resolveAnalysisCap field policy = .ok cap) {s s' : PipelineState} {target : String}
    {timing : Option RoutingTiming} {effects : List Effect} (hroom : s.getLoopIteration field < cap)
    (h : Reducer.advancePhase s target policy timing = .ok (s', effects)) :
    s'.getLoopIteration field = s.getLoopIteration field := by
  obtain ⟨prepared, landed, hprepare, rfl⟩ := advancePhase_eq_ok h
  obtain ⟨bypass, hbypass, hprepared⟩ := preparePhaseAdvance_eq_ok hprepare
  have htimebox := getLoopIteration_congr (applyCycleTimebox_frame s target policy timing).2.2.symm field
  have hbypassed : bypass.state.getLoopIteration field = s.getLoopIteration field := by
    rw [← htimebox]
    rw [← htimebox] at hroom
    rcases hbypass with hown | ⟨_, hplain⟩
    · exact bypassFrom_count hcap hroom (ownBypass_eq_some_iff.mp hown).2.2.1
    · exact bypassFrom_count hcap hroom hplain
  have hconcluded : prepared.loopIterations = bypass.state.loopIterations := by
    rw [← (Prod.mk.inj hprepared).1]
    exact (concludeCycle_frame _ _ policy).2.trans (withBypassedCycleTiming_frame bypass policy timing _).2
  rw [← hbypassed]
  exact getLoopIteration_congr hconcluded.symm field

end

end RalphWorkflow.Frame
