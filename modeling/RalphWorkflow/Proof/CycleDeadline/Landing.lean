import RalphWorkflow.Proof.Movement

/-! The transition seam asks the deadline for the target of a route, and once more when spent phases were passed over
on the way. -/
namespace RalphWorkflow.CycleDeadline
open Lib Policy Recovery Movement Frame
open Pipeline Pipeline.Reducer

section

variable {policy : PipelinePolicy} {ct : CycleTimeboxPolicy} {timing : Option RoutingTiming}

/-! ## The deadline at the seam -/

/-- The timer runs, and the elapsed time has reached the duration of the timebox. -/
def Expired (ct : CycleTimeboxPolicy) (timing : Option RoutingTiming) (s : PipelineState) : Prop :=
  s.cycleTimeboxActive = true ∧ ∃ t, timing = some t ∧ ct.durationSeconds ≤ t.totalElapsedSeconds

variable {s s' : PipelineState} {target : String}

theorem Expired.of_seat (h : Expired ct timing s) (hseat : SameSeat s s') : Expired ct timing s' :=
  ⟨by rw [hseat.active]; exact h.1, h.2⟩

/-- The guarded phase is neither where the timer stops nor where failures or spent phases lead. -/
structure RoutesApart (policy : PipelinePolicy) (ct : CycleTimeboxPolicy) : Prop where
  not_failed : ct.guardedEntry ≠ policy.recovery.failedRoute
  not_end : ct.endEntry ≠ ct.guardedEntry
  not_finalization : ct.finalizationTarget ≠ ct.guardedEntry
  not_passed : ∀ s target bypass, target = ct.endEntry ∨ target = ct.finalizationTarget →
    ResolvesBypass s target policy bypass → bypass.targetPhase ≠ ct.guardedEntry

theorem timebox_of_idle (hidle : s.cycleTimeboxActive = false) (target : String) :
    (applyCycleTimebox s target policy timing).targetPhase = target := by
  rcases applyCycleTimebox_cases s target policy timing with h | ⟨ct, t, _, _, h⟩
  · rw [h]
  · rcases h with ⟨_, hactive, _⟩ | ⟨_, _, _, h⟩ | ⟨_, hactive, _⟩
    · rw [hidle] at hactive
      cases hactive
    · rw [h]
    · rw [hidle] at hactive
      cases hactive

/-- An expired cycle ends where the route goes, is redirected, or goes elsewhere and is left alone. -/
theorem timebox_of_expired (hct : policy.cycleTimebox = some ct) (hapart : RoutesApart policy ct)
    (hexpired : Expired ct timing s) (target : String) :
    let decision := applyCycleTimebox s target policy timing
    decision.timingStarted = false ∧
      ((decision.state.cycleTimeboxActive = false ∧ ((decision.targetPhase = ct.endEntry ∨ decision.targetPhase = ct.finalizationTarget))) ∨
        (decision.state = s ∧ decision.targetPhase = target ∧ target ≠ ct.guardedEntry)) ∧
      (target = ct.guardedEntry → decision.redirected = true ∧ decision.targetPhase = ct.finalizationTarget) := by
  obtain ⟨hactive, t, rfl, helapsed⟩ := hexpired
  unfold applyCycleTimebox
  rw [hct]
  dsimp only
  by_cases hend : (target = ct.endEntry ∨ target = ct.finalizationTarget) ∧ s.cycleTimeboxActive = true
  · rw [if_pos hend]
    refine ⟨rfl, .inl ⟨rfl, hend.1⟩, ?_⟩
    intro hguarded
    rcases hend.1 with h | h
    · exact absurd (h.symm.trans hguarded) hapart.not_end
    · exact absurd (h.symm.trans hguarded) hapart.not_finalization
  · rw [if_neg hend, if_neg (by rw [hactive]; exact fun h => Bool.noConfusion h.1)]
    by_cases hguarded : target = ct.guardedEntry
    · rw [if_pos ⟨hguarded, hactive, helapsed⟩]
      exact ⟨rfl, .inl ⟨rfl, .inr rfl⟩, fun _ => ⟨rfl, rfl⟩⟩
    · rw [if_neg fun h => hguarded h.1]
      exact ⟨rfl, .inr ⟨rfl, rfl, hguarded⟩, fun h => absurd h hguarded⟩

theorem prepared_landing {prepared : PipelineState} {landed : String} (h : preparePhaseAdvance s target policy timing = .ok (prepared, landed)) :
    ∃ bypass, ResolvesBypass (applyCycleTimebox s target policy timing).state
        (applyCycleTimebox s target policy timing).targetPhase policy bypass ∧ (landed = bypass.targetPhase ∧
          (bypass.skipped = [] ∨ (applyCycleTimebox s target policy timing).timingStarted = true) ∨
        (applyCycleTimebox s target policy timing).timingStarted = false ∧
          landed = (applyCycleTimebox bypass.state bypass.targetPhase policy timing).targetPhase) := by
  obtain ⟨bypass, hbypass, hprepared⟩ := preparePhaseAdvance_eq_ok h
  obtain ⟨_, hlanded⟩ := Prod.mk.inj hprepared
  refine ⟨bypass, hbypass, ?_⟩
  rw [← hlanded]
  unfold withBypassedCycleTiming
  split
  · rename_i hplain
    exact .inl ⟨rfl, by simpa using hplain⟩
  · rename_i hskipped
    simp only [Bool.or_eq_true, not_or, Bool.not_eq_true] at hskipped
    exact .inr ⟨hskipped.2, rfl⟩

theorem stopped_landing {effects : List Effect} (hstopped : (applyCycleTimebox s target policy timing).state.cycleTimeboxActive = false)
    (h : Reducer.advancePhase s target policy timing = .ok (s', effects)) :
    ∃ bypass, ResolvesBypass (applyCycleTimebox s target policy timing).state
        (applyCycleTimebox s target policy timing).targetPhase policy bypass ∧ s'.phase = bypass.targetPhase := by
  obtain ⟨prepared, landed, hprepare, rfl⟩ := advancePhase_eq_ok h
  obtain ⟨bypass, hbypass, hlanded⟩ := prepared_landing hprepare
  refine ⟨bypass, hbypass, ?_⟩
  rcases hlanded with ⟨hlanded, _⟩ | ⟨_, hlanded⟩
  · exact hlanded
  · have hidle : bypass.state.cycleTimeboxActive = false := by
      rw [(resolvesBypass_passes hbypass).1.active, hstopped]
    rw [timebox_of_idle hidle] at hlanded
    exact hlanded

theorem idle_landing {effects : List Effect}
    (hidle : s.cycleTimeboxActive = false) (h : Reducer.advancePhase s target policy timing = .ok (s', effects)) :
    ∃ s₀ bypass, ResolvesBypass s₀ target policy bypass ∧ s'.phase = bypass.targetPhase := by
  obtain ⟨prepared, landed, hprepare, rfl⟩ := advancePhase_eq_ok h
  obtain ⟨bypass, hbypass, hlanded⟩ := prepared_landing hprepare
  rw [timebox_of_idle hidle] at hbypass
  refine ⟨_, bypass, hbypass, ?_⟩
  rcases hlanded with ⟨hlanded, _⟩ | ⟨hunstarted, hlanded⟩
  · exact hlanded
  · -- the timer has not been started, so it is still stopped when the bypass has been resolved
    have hstill : bypass.state.cycleTimeboxActive = false := by
      rw [(resolvesBypass_passes hbypass).1.active]
      rcases applyCycleTimebox_cases s target policy timing with h | ⟨ct, t, _, _, h⟩
      · rw [h]
        exact hidle
      · rcases h with ⟨_, hactive, _⟩ | ⟨_, _, _, h⟩ | ⟨_, hactive, _⟩
        · rw [hidle] at hactive
          cases hactive
        · rw [h] at hunstarted
          cases hunstarted
        · rw [hidle] at hactive
          cases hactive
    rw [timebox_of_idle hstill] at hlanded
    exact hlanded

theorem expired_landing (hct : policy.cycleTimebox = some ct) (hapart : RoutesApart policy ct) {effects : List Effect} (hexpired : Expired ct timing s)
    (h : Reducer.advancePhase s target policy timing = .ok (s', effects)) : s'.phase ≠ ct.guardedEntry := by
  obtain ⟨hunstarted, hdecision, _⟩ := timebox_of_expired hct hapart hexpired target
  rcases hdecision with ⟨hstopped, hwhere⟩ | ⟨hsame, htarget, hunguarded⟩
  · -- the timer was stopped on the way to the finalization path
    obtain ⟨bypass, hbypass, hphase⟩ := stopped_landing hstopped h
    rw [hphase]
    exact hapart.not_passed _ _ bypass hwhere hbypass
  · obtain ⟨prepared, landed, hprepare, rfl⟩ := advancePhase_eq_ok h
    obtain ⟨bypass, hbypass, hlanded⟩ := prepared_landing hprepare
    obtain ⟨hbooks, _, hunskipped⟩ := resolvesBypass_passes hbypass
    show landed ≠ ct.guardedEntry
    rcases hlanded with ⟨hlanded, hskipped | hstarted⟩ | ⟨_, hlanded⟩
    · rw [hlanded, hunskipped hskipped, htarget]
      exact hunguarded
    · rw [hunstarted] at hstarted
      cases hstarted
    · -- the bypass moved the target, and the timer is asked again
      rw [hsame] at hbooks
      have hstill := hexpired.of_seat hbooks.toSameSeat
      obtain ⟨_, hdecision, _⟩ := timebox_of_expired hct hapart hstill bypass.targetPhase
      rw [hlanded]
      rcases hdecision with ⟨_, hend | hfinal⟩ | ⟨_, hkept, hunguarded'⟩
      · rw [hend]
        exact hapart.not_end
      · rw [hfinal]
        exact hapart.not_finalization
      · rw [hkept]
        exact hunguarded'

/-! ## Counters alone decide what is passed over -/

theorem skipIfExhausted_congr {t next : PipelineState} {phase : String} {skip : ExhaustedAnalysisSkip}
    (hloops : s.loopIterations = t.loopIterations) (h : skipIfExhausted s phase policy = .ok (some (skip, next))) :
    ∃ next', skipIfExhausted t phase policy = .ok (some (skip, next')) ∧ next.loopIterations = next'.loopIterations := by
  obtain ⟨loopPolicy, cap, hloop, hcap, hspent, htarget, hnext⟩ := skipIfExhausted_eq_some h
  rw [skipIfExhausted_spent hloop rfl hcap htarget hspent] at h
  have hcount := getLoopIteration_congr hloops loopPolicy.iterationStateField
  refine ⟨skipAnalysis t phase loopPolicy.iterationStateField policy, ?_, ?_⟩
  · rw [skipIfExhausted_spent hloop rfl hcap htarget (by rw [hcount]; exact hspent), hcount]
    have hskip := (Prod.mk.inj (Option.some.inj (Except.ok.inj h))).1
    rw [hskip]
  · rw [hnext, (skipAnalysis_frame s phase _ policy).2, (skipAnalysis_frame t phase _ policy).2, hloops]

theorem skipIfExhausted_congr_none {t : PipelineState} {phase : String} (hloops : s.loopIterations = t.loopIterations)
    (h : skipIfExhausted s phase policy = .ok none) : skipIfExhausted t phase policy = .ok none := by
  rcases skipIfExhausted_eq_none h with hnone | ⟨loopPolicy, cap, hloop, hcap, hopen⟩
  · exact skipIfExhausted_none hnone t
  · refine skipIfExhausted_open hloop rfl hcap ?_
    rw [getLoopIteration_congr hloops]
    exact hopen

theorem bypassFrom_congr {fuel : Nat} {t : PipelineState} {skipped : List ExhaustedAnalysisSkip}
    {visited : List String} {bypass : ExhaustedAnalysisBypassResult} (hloops : s.loopIterations = t.loopIterations)
    (h : exhaustedAnalysisBypassFrom policy fuel s target skipped visited = .ok bypass) :
    ∃ bypass', exhaustedAnalysisBypassFrom policy fuel t target skipped visited = .ok bypass' ∧
      bypass'.targetPhase = bypass.targetPhase ∧ bypass'.skipped = bypass.skipped := by
  induction fuel generalizing s t target skipped visited with
  | zero =>
    cases h
    exact ⟨_, rfl, rfl, rfl⟩
  | succ fuel ih =>
    by_cases hvisited : target ∈ visited
    · rw [exhaustedAnalysisBypassFrom, if_pos hvisited] at h
      cases h
      refine ⟨⟨t, target, skipped⟩, ?_, rfl, rfl⟩
      rw [exhaustedAnalysisBypassFrom, if_pos hvisited]
    · have hloop := h
      rw [exhaustedAnalysisBypassFrom, if_neg hvisited] at hloop
      obtain ⟨skip?, hskip, _⟩ := (bind_eq_ok_iff _ _ _).mp hloop
      cases skip? with
      | none =>
        rw [exhaustedAnalysisBypassFrom_stop hvisited hskip] at h
        cases h
        exact ⟨_, exhaustedAnalysisBypassFrom_stop hvisited (skipIfExhausted_congr_none hloops hskip) fuel skipped,
          rfl, rfl⟩
      | some pair =>
        obtain ⟨next', hskip', hnext⟩ := skipIfExhausted_congr hloops hskip
        rw [exhaustedAnalysisBypassFrom_skip hvisited hskip] at h
        rw [exhaustedAnalysisBypassFrom_skip hvisited hskip']
        exact ih hnext h

theorem bypass_congr {bypass : ExhaustedAnalysisBypassResult} (h : resolveExhaustedAnalysisBypass s target policy = .ok bypass) (t : PipelineState)
    (hloops : s.loopIterations = t.loopIterations) : ∃ bypass', resolveExhaustedAnalysisBypass t target policy = .ok bypass' ∧
      bypass'.targetPhase = bypass.targetPhase ∧ bypass'.skipped = bypass.skipped :=
  bypassFrom_congr hloops h

end

end RalphWorkflow.CycleDeadline
