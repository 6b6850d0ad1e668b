import RalphWorkflow.Pipeline.Runner
import RalphWorkflow.Proof.CycleDeadline.Landing

/-! Past the deadline no step may begin another attempt of the guarded phase. Every route asks the deadline at the transition seam, and every
attempt in place asks it first; the hop out of a phase that is not invoked does not ask. -/
namespace RalphWorkflow.CycleDeadline
open Lib Policy Recovery Movement
open Pipeline Pipeline.Reducer

section

variable {policy : PipelinePolicy} {ct : CycleTimeboxPolicy} {timing : Option RoutingTiming}

/-! ## Another attempt -/

/-- The step ends elsewhere, or the run was there all along, with the same agent and count of retries. -/
def BeginsNoAttempt (ct : CycleTimeboxPolicy) (s s' : PipelineState) : Prop :=
  s'.phase = ct.guardedEntry → Books s s'

theorem beginsNoAttempt_of_moves (hct : policy.cycleTimebox = some ct) (hapart : RoutesApart policy ct)
    {s s' : PipelineState} (hexpired : Expired ct timing s) (hmoves : Moves policy timing s s') :
    BeginsNoAttempt ct s s' := by
  intro hguarded
  cases hmoves with
  | stays tallies => exact tallies.books
  | attempts seat room =>
    -- in the guarded phase the deadline leaves no room
    obtain ⟨_, _, hredirect⟩ := timebox_of_expired hct hapart hexpired s.phase
    have hredirected := (hredirect (by rw [← seat.phase, hguarded])).1
    unfold HasRoom at room
    rw [hredirected] at room
    cases room
  | advances before advance after =>
    rw [after.phase] at hguarded
    exact absurd hguarded (expired_landing hct hapart (hexpired.of_seat before.toSameSeat) advance)
  | redirects before expired advance after =>
    rename_i s₀ s₁ effects
    obtain ⟨_, hdecision, _⟩ := timebox_of_expired hct hapart (hexpired.of_seat before.toSameSeat) s₀.phase
    rw [after.phase] at hguarded
    rcases hdecision with ⟨hstopped, hwhere⟩ | ⟨hsame, htarget, _⟩
    · obtain ⟨s₂, bypass, hbypass, hphase⟩ := idle_landing hstopped advance
      exact absurd (hphase.symm.trans hguarded) (hapart.not_passed s₂ _ bypass hwhere hbypass)
    · rw [hsame, htarget] at advance
      exact absurd hguarded (expired_landing hct hapart (hexpired.of_seat before.toSameSeat) advance)
  | fails phase previous active consumed => exact absurd (phase.symm.trans hguarded) hapart.not_failed.symm

theorem runtimeRecovery_moves (s : PipelineState) (exc : RaisedException) {recovery : Option RecoveryController}
    (hrc : ∀ rc, recovery = some rc → ServesPolicy policy rc) :
    MovesTo policy timing s (reduceRuntimeRecovery s policy exc recovery timing).result := by
  unfold reduceRuntimeRecovery
  rcases redirect_cases s with ⟨expired, hexpired, hmoves⟩ | ⟨hnone, hroom⟩
  · rw [hexpired]
    exact hmoves.movesTo
  · rw [hnone]
    cases recovery with
    | none => exact reduce_moves (fun rc h => by cases h) (fun h => by cases h)
    | some rc =>
      refine movesTo_restoring ?_
      intro s' effects hok
      exact (handle_regains (hrc rc rfl) s' effects hok).moves hroom

/-! ## The steps of a run -/

/-- An event, an inline effect, a run without a plan sent back, or a recovery from a crash. -/
inductive StepsTo (bundle : PolicyBundle) (timing : Option RoutingTiming) (s : PipelineState) : PipelineState → Prop
  | reduced {event : Event} {recovery : Option RecoveryController} {s' : PipelineState} {effects : List Effect}
      (serves : ∀ rc, recovery = some rc → ServesPolicy bundle.pipeline rc)
      (result : (reduce s event bundle.pipeline recovery timing).result = .ok (s', effects)) :
      StepsTo bundle timing s s'
  | handled {env : RouterEnv} {effect : Effect} {materialization : Materialization} {s' : PipelineState}
      (chosen : determineEffectFromPolicy s bundle env = .ok effect)
      (result : handleInlineEffect effect s bundle.pipeline timing materialization = .ok (some (.state s'))) :
      StepsTo bundle timing s s'
  | unplanned (text : String) : StepsTo bundle timing s (recoverMissingPlanHandoff s bundle.pipeline text)
  | crashed {exc : RaisedException} {recovery : Option RecoveryController} {s' : PipelineState} {effects : List Effect}
      (serves : ∀ rc, recovery = some rc → ServesPolicy bundle.pipeline rc)
      (result : (reduceRuntimeRecovery s bundle.pipeline exc recovery timing).result = .ok (s', effects)) :
      StepsTo bundle timing s s'

def HopsInto (policy : PipelinePolicy) (ct : CycleTimeboxPolicy) (phase : String) : Prop :=
  ∃ phaseDef, policy.phases.get? phase = some phaseDef ∧ phaseDef.skipInvocation = true ∧
    phaseDef.transitions.onSuccess = ct.guardedEntry ∧ phase ≠ ct.guardedEntry ∧ phase ≠ policy.terminalPhase ∧
    phase ≠ policy.recovery.failedRoute ∧
    (phaseDef.role = some .analysis → ∀ loopPolicy, phaseDef.loopPolicy = some loopPolicy →
      ∃ cap, resolveAnalysisCap loopPolicy.iterationStateField policy = .ok cap)

/-- The guarded phase is entered by routes only, and no route to it is left unasked. -/
structure GuardApart (bundle : PolicyBundle) (ct : CycleTimeboxPolicy) : Prop
    extends RoutesApart bundle.pipeline ct where
  not_terminal : ct.guardedEntry ≠ bundle.pipeline.terminalPhase
  not_entry : ct.guardedEntry ≠ bundle.pipeline.entryPhase
  no_hop : ∀ phase, ¬ HopsInto bundle.pipeline ct phase

/-! ## Inline effects -/

variable {bundle : PolicyBundle}

theorem missingPlan_beginsNoAttempt (hapart : GuardApart bundle ct) (s : PipelineState) (text : String) :
    BeginsNoAttempt ct s (recoverMissingPlanHandoff s bundle.pipeline text) := by
  intro hguarded
  rw [recoverMissingPlanHandoff_phase] at hguarded
  split at hguarded
  · exact absurd hguarded.symm hapart.not_failed
  · exact absurd hguarded.symm hapart.not_entry

theorem hop_beginsNoAttempt (hct : bundle.pipeline.cycleTimebox = some ct) (hapart : GuardApart bundle ct)
    {s : PipelineState} (hexpired : Expired ct timing s) (hfailed : s.phase = bundle.pipeline.recovery.failedRoute)
    (phase : String) (drain : Option String) :
    BeginsNoAttempt ct s (preparePromptHop s phase drain bundle.pipeline timing) := by
  intro hguarded
  obtain ⟨t, htiming, _⟩ := hexpired.2
  rw [(preparePromptHop_seat s phase drain bundle.pipeline timing).1] at hguarded
  unfold preparedTarget at hguarded
  rw [if_pos hfailed, htiming] at hguarded
  rw [htiming] at hexpired
  obtain ⟨_, hdecision, _⟩ := timebox_of_expired hct hapart.toRoutesApart hexpired phase
  rcases hdecision with ⟨_, hend | hfinal⟩ | ⟨_, hkept, hunguarded⟩
  · exact absurd (hend.symm.trans hguarded) hapart.not_end
  · exact absurd (hfinal.symm.trans hguarded) hapart.not_finalization
  · exact absurd (hkept.symm.trans hguarded) hunguarded

theorem hopInPlace_books {s : PipelineState} {phase : String} (hunfailed : s.phase ≠ policy.recovery.failedRoute)
    (hplace : phase = s.phase) (drain : Option String) : Books s (preparePromptHop s phase drain policy timing) := by
  unfold preparePromptHop preparedTarget
  rw [if_neg hunfailed]
  dsimp only
  rw [if_pos hplace]
  exact ⟨⟨hplace, rfl, rfl⟩, rfl⟩

theorem cap_of_unspent {s : PipelineState} {phaseDef : PhaseDefinition} (hdeclared : policy.phases.get? s.phase = some phaseDef)
    (hunspent : currentAnalysisPhaseAdvanceEffect s phaseDef policy = .ok none) (hrole : phaseDef.role = some .analysis)
    {loopPolicy : PhaseLoopPolicy} (hloop : phaseDef.loopPolicy = some loopPolicy) :
    ∃ cap, resolveAnalysisCap loopPolicy.iterationStateField policy = .ok cap := by
  unfold currentAnalysisPhaseAdvanceEffect at hunspent
  rw [if_neg (not_not.mpr hrole)] at hunspent
  obtain ⟨bypass, hbypass, _⟩ := (bind_eq_ok_iff _ _ _).mp hunspent
  unfold resolveExhaustedAnalysisBypass at hbypass
  rw [exhaustedAnalysisBypassFrom, if_neg (by simp)] at hbypass
  obtain ⟨skip?, hskip, _⟩ := (bind_eq_ok_iff _ _ _).mp hbypass
  have hbound : (policy.phases.get? s.phase).bind PhaseDefinition.loopPolicy = some loopPolicy := by
    rw [hdeclared]
    exact hloop
  unfold skipIfExhausted at hskip
  rw [hbound] at hskip
  obtain ⟨cap, hcap, _⟩ := (bind_eq_ok_iff _ _ _).mp hskip
  exact ⟨cap, hcap⟩

theorem handled_beginsNoAttempt (hct : bundle.pipeline.cycleTimebox = some ct) (hapart : GuardApart bundle ct)
    {s s' : PipelineState} (hexpired : Expired ct timing s) {env : RouterEnv} {effect : Effect}
    {materialization : Materialization} (hchosen : determineEffectFromPolicy s bundle env = .ok effect)
    (h : handleInlineEffect effect s bundle.pipeline timing materialization = .ok (some (.state s'))) :
    BeginsNoAttempt ct s s' := by
  -- an effect that is executed leaves nothing to handle, and an exit goes to the failure phase
  let Quiet : Effect → Prop := fun effect =>
    handleInlineEffect effect s bundle.pipeline timing materialization = .ok (some (.state s')) → BeginsNoAttempt ct s s'
  have hexit : ∀ reason descriptive, Quiet (.exitFailure reason descriptive) := by
    intro reason descriptive hhandled hguarded
    cases hhandled
    exact absurd hguarded.symm hapart.not_failed
  cases determineEffectFromPolicy_eq_ok hchosen with
  | finished terminal => cases h
  | recovery unfinished failed =>
    unfold recoveryPrepareEffect handleInlineEffect at h
    dsimp only at h
    rw [if_neg (by simp)] at h
    cases materialization with
    | done =>
      cases h
      exact hop_beginsNoAttempt hct hapart hexpired failed _ _
    | missingPlan text =>
      cases h
      exact missingPlan_beginsNoAttempt hapart s text
    | raised exc => cases h
  | unknown undeclared exit => exact exitFailureEffect_elim (P := Quiet) hexit exit h
  | spent unfinished unfailed declared spent =>
    rw [currentAnalysisPhaseAdvanceEffect_eq_some spent] at h
    cases h
  | skipped unfinished unfailed declared unspent skips =>
    rename_i phaseDef
    unfold skipInvocationEffect at h
    dsimp only at h
    split at h
    · cases h
    · cases h
      intro hguarded
      rw [(preparePromptHop_seat s _ none bundle.pipeline timing).1] at hguarded
      unfold preparedTarget at hguarded
      rw [if_neg unfailed] at hguarded
      by_cases hplace : s.phase = ct.guardedEntry
      · exact hopInPlace_books unfailed (hguarded.trans hplace.symm) none
      · exact absurd ⟨phaseDef, declared, skips, hguarded, hplace, unfinished, unfailed,
          fun hrole loopPolicy hloop => cap_of_unspent declared unspent hrole hloop⟩ (hapart.no_hop s.phase)
  | commits declared role commit =>
    exact commitPhaseEffect_elim (P := Quiet) hexit (fun agent hnone => by cases hnone) (fun hnone => by cases hnone)
      (fun hnone => by cases hnone) commit h
  | works declared role unspent work =>
    exact parallelOrAgentEffect_elim (P := Quiet) hexit (fun agent hnone => by cases hnone)
      (fun workUnits maxWorkers verify hnone => by cases hnone) work h

/-! ## When the deadline is kept -/

/-- Past the deadline no attempt begins in the guarded phase: the finalization target or a way from there replaces it. -/
def DeadlineKept (bundle : PolicyBundle) (ct : CycleTimeboxPolicy) : Prop :=
  ∀ (timing : Option RoutingTiming) (s : PipelineState), Expired ct timing s →
    (∀ s' effects, Reducer.advancePhase s ct.guardedEntry bundle.pipeline timing = .ok (s', effects) →
      ∃ s₀ bypass, ResolvesBypass s₀ ct.finalizationTarget bundle.pipeline bypass ∧ s'.phase = bypass.targetPhase) ∧
    ∀ s', StepsTo bundle timing s s' → BeginsNoAttempt ct s s'

theorem guarded_landing (hct : policy.cycleTimebox = some ct) (hapart : RoutesApart policy ct)
    {s s' : PipelineState} {effects : List Effect} (hexpired : Expired ct timing s)
    (h : Reducer.advancePhase s ct.guardedEntry policy timing = .ok (s', effects)) :
    ∃ s₀ bypass, ResolvesBypass s₀ ct.finalizationTarget policy bypass ∧ s'.phase = bypass.targetPhase := by
  obtain ⟨_, hdecision, hredirect⟩ := timebox_of_expired hct hapart hexpired ct.guardedEntry
  rcases hdecision with ⟨hstopped, _⟩ | ⟨_, _, hunguarded⟩
  · obtain ⟨bypass, hbypass, hphase⟩ := stopped_landing hstopped h
    rw [(hredirect rfl).2] at hbypass
    exact ⟨_, bypass, hbypass, hphase⟩
  · exact absurd rfl hunguarded

theorem GuardApart.keeps (hct : bundle.pipeline.cycleTimebox = some ct) (hapart : GuardApart bundle ct) : DeadlineKept bundle ct := by
  intro timing s hexpired
  refine ⟨fun s' effects h => guarded_landing hct hapart.toRoutesApart hexpired h, ?_⟩
  intro s' hstep
  cases hstep with
  | reduced serves result =>
    rename_i event recovery effects
    by_cases hcomplete : event = .pipeline .complete
    · rw [hcomplete] at result
      intro hguarded
      exact absurd (hguarded.symm.trans (reduce_complete result).1) hapart.not_terminal
    · exact beginsNoAttempt_of_moves hct hapart.toRoutesApart hexpired
        (reduce_moves serves hcomplete s' effects result)
  | handled chosen result => exact handled_beginsNoAttempt hct hapart hexpired chosen result
  | unplanned text => exact missingPlan_beginsNoAttempt hapart s text
  | crashed serves result =>
    exact beginsNoAttempt_of_moves hct hapart.toRoutesApart hexpired (runtimeRecovery_moves s _ serves s' _ result)

end

end RalphWorkflow.CycleDeadline
