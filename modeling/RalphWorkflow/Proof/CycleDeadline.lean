import Mathlib.Data.Fintype.EquivFin
import RalphWorkflow.Policy.Default
import RalphWorkflow.Proof.CycleDeadline.Steps

/-! The deadline is kept past its expiry exactly when the guarded phase is apart from every phase that the runner enters without asking: the
terminal, the failure and entry phases, where the timer is stopped, and the target of a phase that is not invoked. -/
namespace RalphWorkflow.CycleDeadline
open Lib Policy Recovery Movement Default
open Pipeline Pipeline.Reducer

section

variable {bundle : PolicyBundle} {ct : CycleTimeboxPolicy}

/-! ## Steps that do not ask -/

def atDeadline (ct : CycleTimeboxPolicy) : Option RoutingTiming := some { totalElapsedSeconds := ct.durationSeconds }

variable {s : PipelineState} {policy : PipelinePolicy} {target : String} {bypass : ExhaustedAnalysisBypassResult}

theorem expired_atDeadline (hactive : s.cycleTimeboxActive = true) : Expired ct (atDeadline ct) s := ⟨hactive, _, rfl, le_refl _⟩

theorem DeadlineKept.not_entered (hkept : DeadlineKept bundle ct) {s' : PipelineState}
    (hactive : s.cycleTimeboxActive = true) (hstep : StepsTo bundle (atDeadline ct) s s')
    (helsewhere : s.phase ≠ ct.guardedEntry) : s'.phase ≠ ct.guardedEntry := by
  intro hguarded
  have hbooks := (hkept _ s (expired_atDeadline hactive)).2 s' hstep hguarded
  exact helsewhere (hbooks.phase.symm.trans hguarded)

theorem DeadlineKept.not_reentered (hkept : DeadlineKept bundle ct) {s' : PipelineState}
    (hactive : s.cycleTimeboxActive = true) (hstep : StepsTo bundle (atDeadline ct) s s')
    (hprevious : s.previousPhase = none) (hmoved : s'.previousPhase ≠ none) : s'.phase ≠ ct.guardedEntry := by
  intro hguarded
  have hbooks := (hkept _ s (expired_atDeadline hactive)).2 s' hstep hguarded
  exact hmoved (hbooks.previous.trans hprevious)

theorem exists_undeclared (policy : PipelinePolicy) (ct : CycleTimeboxPolicy) :
    ∃ phase, policy.phases.get? phase = none ∧ phase ≠ ct.guardedEntry := by
  obtain ⟨phase, hfresh⟩ := Infinite.exists_notMem_finset (ct.guardedEntry :: policy.phases.keys).toFinset
  rw [List.mem_toFinset, List.mem_cons, not_or] at hfresh
  refine ⟨phase, ?_, hfresh.1⟩
  rw [Dict.mem_keys_iff, Dict.contains_iff] at hfresh
  cases hdeclared : policy.phases.get? phase with
  | none => rfl
  | some phaseDef => exact absurd ⟨phaseDef, hdeclared⟩ hfresh.2

theorem DeadlineKept.not_terminal (hkept : DeadlineKept bundle ct) : ct.guardedEntry ≠ bundle.pipeline.terminalPhase := by
  obtain ⟨phase, _, helsewhere⟩ := exists_undeclared bundle.pipeline ct
  let s : PipelineState := { phase := phase, cycleTimeboxActive := true }
  have hstep : StepsTo bundle (atDeadline ct) s (Pipeline.advancePhase s bundle.pipeline.terminalPhase bundle.pipeline) :=
    @StepsTo.reduced _ _ _ (.pipeline .complete) none _ _ (fun rc h => by cases h) rfl
  exact (hkept.not_entered rfl hstep helsewhere).symm

theorem DeadlineKept.not_failed (hkept : DeadlineKept bundle ct) : ct.guardedEntry ≠ bundle.pipeline.recovery.failedRoute := by
  obtain ⟨phase, hundeclared, helsewhere⟩ := exists_undeclared bundle.pipeline ct
  let s : PipelineState := { phase := phase, cycleTimeboxActive := true }
  have hcounter : resolveExecutionCycleLoopCounter phase bundle.pipeline = none := by
    unfold resolveExecutionCycleLoopCounter
    rw [executionCycleLoopCounterFrom, if_neg (by simp), hundeclared]
  have hreduced : (reduce s (.pipeline .commitFailure) bundle.pipeline none (atDeadline ct)).result =
      .ok ({ Pipeline.advancePhase s bundle.pipeline.recovery.failedRoute bundle.pipeline with
        lastError := some s!"{phase}: Commit failed", recoveryEpoch := 1 }, []) := by
    show restoring s (enterFailedRecovery s _ bundle.pipeline) = _
    unfold enterFailedRecovery applyExecutionCycleOutcome chargeExecutionCycle
    rw [show s.phase = phase from rfl, hcounter]
    rfl
  exact (hkept.not_entered rfl (.reduced (fun rc h => by cases h) hreduced) helsewhere).symm

theorem DeadlineKept.not_entry (hkept : DeadlineKept bundle ct) : ct.guardedEntry ≠ bundle.pipeline.entryPhase := by
  obtain ⟨phase, _, helsewhere⟩ := exists_undeclared bundle.pipeline ct
  have hentered := hkept.not_entered (s := { phase := phase, cycleTimeboxActive := true }) rfl (.unplanned "") helsewhere
  rw [recoverMissingPlanHandoff_phase, if_neg (by have := bundle.pipeline.recovery.cycleCap_pos; simp; omega)] at hentered
  exact hentered.symm

theorem timebox_at_stop (hct : policy.cycleTimebox = some ct) (hactive : s.cycleTimeboxActive = true)
    (hstop : target = ct.endEntry ∨ target = ct.finalizationTarget) :
    applyCycleTimebox s target policy (atDeadline ct) = { state := concluded s, targetPhase := target } := by
  unfold applyCycleTimebox atDeadline
  rw [hct]
  dsimp only
  rw [if_pos ⟨hstop, hactive⟩]

theorem DeadlineKept.not_stop (hct : bundle.pipeline.cycleTimebox = some ct) (hkept : DeadlineKept bundle ct) :
    ¬ (ct.guardedEntry = ct.endEntry ∨ ct.guardedEntry = ct.finalizationTarget) := by
  intro hstop
  let chain : AgentChainState := { agents := ["agent"] }
  let s : PipelineState := PipelineState.withPhaseChain
    { phase := ct.guardedEntry, cycleTimeboxActive := true } ct.guardedEntry chain
  have hroom : redirectExpiredCycleInPlace s bundle.pipeline (atDeadline ct) = none := by
    have htimebox := timebox_at_stop (s := s) hct rfl hstop
    unfold redirectExpiredCycleInPlace
    rw [show s.phase = ct.guardedEntry from rfl, htimebox]
    rfl
  have hchain : s.chainForPhase s.phase = some chain := by
    show ((∅ : Dict String AgentChainState).set ct.guardedEntry chain).get? ct.guardedEntry = some chain
    simp
  have hreduced : (reduce s (.pipeline .agentRetry) bundle.pipeline none (atDeadline ct)).result =
      .ok ({ s.withPhaseChain s.phase chain.withRetryIncrement with
        metrics := s.metrics.withContinuationIncrement }, []) := by
    show restoring s (handleAgentRetry s bundle.pipeline (atDeadline ct)) = _
    unfold handleAgentRetry
    rw [hroom, hchain]
    rfl
  have hbooks := (hkept _ s (expired_atDeadline rfl)).2 _ (.reduced (fun rc h => by cases h) hreduced) rfl
  have hretried : some chain.withRetryIncrement = some chain := by
    rw [← hchain]
    unfold PipelineState.chainForPhase
    rw [← hbooks.chains]
    show _ = (s.phaseChains.set s.phase chain.withRetryIncrement).get? s.phase
    simp
  exact absurd (congrArg AgentChainState.retries (Option.some.inj hretried)) (by decide)

theorem advance_at_stop (hct : policy.cycleTimebox = some ct) (hactive : s.cycleTimeboxActive = true)
    (hstop : target = ct.endEntry ∨ target = ct.finalizationTarget)
    (hbypass : ResolvesBypass (concluded s) target policy bypass) :
    ∃ prepared, Reducer.advancePhase s target policy (atDeadline ct) =
      .ok (Pipeline.advancePhase prepared bypass.targetPhase policy, []) := by
  have hidle : bypass.state.cycleTimeboxActive = false := (resolvesBypass_passes hbypass).1.active
  have hlanded : (withBypassedCycleTiming bypass policy (atDeadline ct) false).2 = bypass.targetPhase := by
    unfold withBypassedCycleTiming
    split
    · rfl
    · exact timebox_of_idle hidle bypass.targetPhase
  refine ⟨(concludedIfLeavingCycle (withBypassedCycleTiming bypass policy (atDeadline ct) false) policy).1, ?_⟩
  rw [← hlanded]
  unfold Reducer.advancePhase preparePhaseAdvance
  rw [timebox_at_stop hct hactive hstop]
  dsimp only
  rcases hbypass with hown | ⟨hown, hplain⟩
  · rw [hown]
    rfl
  · rw [hown, hplain]
    rfl

theorem resolvesBypass_in_place (h : resolveExhaustedAnalysisBypass s s.phase policy = .ok bypass) : ResolvesBypass s s.phase policy bypass := by
  unfold ResolvesBypass ownBypass
  split
  · split
    · exact .inr ⟨rfl, h⟩
    · split
      · rw [h]
        dsimp only [bind, Except.bind]
        split
        · exact .inr ⟨rfl, rfl⟩
        · exact .inl rfl
      · exact .inr ⟨rfl, h⟩
  · exact .inr ⟨rfl, h⟩

theorem DeadlineKept.advance_avoids (hct : bundle.pipeline.cycleTimebox = some ct) (hkept : DeadlineKept bundle ct) (event : Event)
    (hroute : (reduce s event bundle.pipeline none (atDeadline ct)).result =
      restoring s (Reducer.advancePhase s target bundle.pipeline (atDeadline ct)))
    (hactive : s.cycleTimeboxActive = true) (hprevious : s.previousPhase = none)
    (hstop : target = ct.endEntry ∨ target = ct.finalizationTarget)
    (hbypass : ResolvesBypass (concluded s) target bundle.pipeline bypass) : bypass.targetPhase ≠ ct.guardedEntry := by
  obtain ⟨prepared, hadvance⟩ := advance_at_stop hct hactive hstop hbypass
  rw [hadvance] at hroute
  have hbooks := restoreWorkUnits_books s (Pipeline.advancePhase prepared bypass.targetPhase bundle.pipeline)
  have hleft := hkept.not_reentered hactive (.reduced (fun rc h => by cases h) hroute) hprevious
    (by rw [hbooks.previous]; simp)
  rw [hbooks.phase] at hleft
  exact hleft

theorem DeadlineKept.not_passed (hct : bundle.pipeline.cycleTimebox = some ct) (hkept : DeadlineKept bundle ct)
    {s₀ : PipelineState} (hstop : target = ct.endEntry ∨ target = ct.finalizationTarget)
    (hbypass : ResolvesBypass s₀ target bundle.pipeline bypass) : bypass.targetPhase ≠ ct.guardedEntry := by
  rcases hbypass with hown | ⟨_, hplain⟩
  · -- a spent analysis phase that is left for its success target
    let s : PipelineState := { s₀ with cycleTimeboxActive := true, previousPhase := none }
    obtain ⟨hrole, hsuccess, hbypass, hskipped⟩ := ownBypass_eq_some_iff.mp hown
    obtain ⟨bypass', hbypass', htarget, hskipped'⟩ := bypass_congr hbypass (concluded s) rfl
    have hown' : ownBypass (concluded s) target bundle.pipeline = .ok (some bypass') :=
      ownBypass_eq_some_iff.mpr ⟨hrole, hsuccess, hbypass', by rw [hskipped']; exact hskipped⟩
    rw [← htarget]
    refine hkept.advance_avoids hct (.pipeline .fixSuccess) (s := s) ?_ rfl rfl hstop (.inl hown')
    show restoring s (resolveOrTerminal s .success bundle.pipeline "fix success" (atDeadline ct)) = _
    unfold resolveOrTerminal
    rw [show s.phase = s₀.phase from rfl, hsuccess]
  · -- a commit that has to be made again, in the target itself
    let s : PipelineState := { s₀ with phase := target, cycleTimeboxActive := true, previousPhase := none }
    obtain ⟨bypass', hplain', htarget, _⟩ := bypass_congr hplain (concluded s) rfl
    rw [← htarget]
    exact hkept.advance_avoids hct (.pipeline .commitResidual) (s := s) rfl rfl rfl hstop
      (resolvesBypass_in_place hplain')

/-! ## The hop out of a phase that is not invoked -/

def unspentLoops (policy : PipelinePolicy) (phaseDef : PhaseDefinition) : Dict String Int :=
  match phaseDef.loopPolicy with
  | none => ∅
  | some loopPolicy =>
    match resolveAnalysisCap loopPolicy.iterationStateField policy with
    | .ok cap => (∅ : Dict String Int).set loopPolicy.iterationStateField (cap - 1)
    | .error _ => ∅

theorem skipIfExhausted_unspent {phaseDef : PhaseDefinition} (hdeclared : policy.phases.get? s.phase = some phaseDef)
    (hcap : ∀ loopPolicy, phaseDef.loopPolicy = some loopPolicy →
      ∃ cap, resolveAnalysisCap loopPolicy.iterationStateField policy = .ok cap)
    (hloops : s.loopIterations = unspentLoops policy phaseDef) : skipIfExhausted s s.phase policy = .ok none := by
  have hbind : (policy.phases.get? s.phase).bind PhaseDefinition.loopPolicy = phaseDef.loopPolicy := by
    rw [hdeclared]
    rfl
  cases hloop : phaseDef.loopPolicy with
  | none => exact skipIfExhausted_none (hbind.trans hloop) s
  | some loopPolicy =>
    obtain ⟨cap, hcap⟩ := hcap loopPolicy hloop
    refine skipIfExhausted_open (hbind.trans hloop) rfl hcap ?_
    have hcount : s.getLoopIteration loopPolicy.iterationStateField = (cap : Int) - 1 := by
      unfold PipelineState.getLoopIteration
      rw [hloops, unspentLoops, hloop]
      dsimp only
      rw [hcap]
      simp
    omega

theorem DeadlineKept.no_hop (hkept : DeadlineKept bundle ct) (phase : String) : ¬ HopsInto bundle.pipeline ct phase := by
  rintro ⟨phaseDef, hdeclared, hskips, hsuccess, helsewhere, hunfinished, hunfailed, hcap⟩
  let s : PipelineState :=
    { phase := phase, cycleTimeboxActive := true, loopIterations := unspentLoops bundle.pipeline phaseDef }
  have hunspent : currentAnalysisPhaseAdvanceEffect s phaseDef bundle.pipeline = .ok none := by
    unfold currentAnalysisPhaseAdvanceEffect
    split
    · rfl
    · rename_i hrole
      have hstop := skipIfExhausted_unspent (s := s) hdeclared (hcap (not_not.mp hrole)) rfl
      unfold resolveExhaustedAnalysisBypass
      rw [exhaustedAnalysisBypassFrom_stop (by simp) hstop]
      rfl
  have hchosen : determineEffectFromPolicy s bundle {} = .ok (.preparePrompt ct.guardedEntry none (some phase) true) := by
    unfold determineEffectFromPolicy terminalPhaseEffect
    rw [if_neg hunfinished, if_neg hunfailed]
    dsimp only
    rw [show s.phase = phase from rfl, hdeclared]
    dsimp only
    rw [hunspent]
    dsimp only [bind, Except.bind]
    rw [if_pos hskips, skipInvocationEffect, hsuccess, if_neg hkept.not_terminal]
  have hstep : StepsTo bundle (atDeadline ct) s (preparePromptHop s ct.guardedEntry none bundle.pipeline (atDeadline ct)) :=
    @StepsTo.handled _ _ _ _ _ .done _ hchosen rfl
  refine hkept.not_entered rfl hstep helsewhere ?_
  rw [(preparePromptHop_seat s _ none bundle.pipeline (atDeadline ct)).1]
  unfold preparedTarget
  rw [if_neg hunfailed]

end

/-! ## The bundled policy -/

theorem bundled_passedOver {phase : String} (h : PassedOver Default.pipeline "development_final_commit_cleanup" phase) :
    phase = "development_final_commit_cleanup" ∨ phase = "development_final_commit" := by
  induction h with
  | refl => exact .inl rfl
  | tail _ hstep ih =>
    obtain ⟨phaseDef, hdeclared, hloop, rfl⟩ := hstep
    rcases ih with rfl | rfl
    · have hdef : some developmentFinalCommitCleanup = some phaseDef := hdeclared
      cases hdef
      exact .inr rfl
    · have hdef : some developmentFinalCommit = some phaseDef := hdeclared
      cases hdef
      cases hloop

theorem bundled_guardApart : GuardApart { pipeline := Default.pipeline } cycleTimebox where
  not_failed := by decide
  not_end := by decide
  not_finalization := by decide
  not_passed := by
    intro s target bypass hstop hbypass
    have htarget : target = "development_final_commit_cleanup" := by
      rcases hstop with h | h <;> exact h
    rw [htarget] at hbypass
    rcases bundled_passedOver (resolvesBypass_passes hbypass).2.1 with h | h
    · rw [h]
      decide
    · rw [h]
      decide
  not_terminal := by decide
  not_entry := by decide
  no_hop := by
    rintro phase ⟨phaseDef, hdeclared, hskips, _⟩
    have hinvoked : ∀ e ∈ Default.pipeline.phases.entries, e.2.skipInvocation = false := by decide
    rw [hinvoked (phase, phaseDef) ((Dict.get?_eq_some_iff _ _ _).mp hdeclared)] at hskips
    cases hskips

def resume : PhaseDefinition where
  drain := "development"
  role := some .execution
  transitions := { onSuccess := "development", onLoopback := some "development" }
  skipInvocation := true

/-- The analysis of the bundled policy, with requested changes going through `resume`. -/
def resumingAnalysis : PhaseDefinition :=
  { developmentAnalysis with
    decisions := developmentAnalysis.decisions.set "request_changes" { target := "resume" } }

def resumePolicy : PipelinePolicy :=
  { Default.pipeline with
    phases := (Default.pipeline.phases.set "development_analysis" resumingAnalysis).set "resume" resume }

def resuming : PipelineState :=
  { phase := "resume", previousPhase := some "development_analysis", cycleTimeboxActive := true,
    cycleTimeboxConsumedSeconds := 7200 }

end RalphWorkflow.CycleDeadline
