import RalphWorkflow.Pipeline.RunLoop
import RalphWorkflow.Proof.Accounts
import RalphWorkflow.Proof.Movement

/-! The seconds on the cycle timer are written in one place only, where a cycle starts, and a cycle starts on a stopped
timer. A running timer is therefore set back only by an advance that passes over the end of the cycle and its start
in one go. -/
namespace RalphWorkflow.ElapsedTime
open Lib Policy Recovery Movement
open Pipeline Pipeline.Reducer
open Accounts (serves_some)

/-- A route to a stop of the cycle leads over spent phases to the start entry, and on to `phase`. -/
def Reopens (policy : PipelinePolicy) (phase : String) : Prop :=
  ∃ ct stop, policy.cycleTimebox = some ct ∧ (stop = ct.endEntry ∨ stop = ct.finalizationTarget) ∧
    PassedOver policy stop ct.startEntry ∧ PassedOver policy ct.startEntry phase

/-- The timer shows what it showed, or was set back where the cycle was reopened. -/
def Clocked (policy : PipelinePolicy) (s s' : PipelineState) : Prop :=
  s'.cycleTimeboxConsumedSeconds = s.cycleTimeboxConsumedSeconds ∨
    s'.cycleTimeboxConsumedSeconds = 0 ∧ (s.cycleTimeboxActive = true → Reopens policy s'.phase)

section

variable {policy : PipelinePolicy} {timing : Option RoutingTiming}

/-! ## The seam -/

/-- Where a timer that is idle by now comes from: it was idle on the way to `target`, or a stop stopped it. -/
def IdleFrom (policy : PipelinePolicy) (s : PipelineState) (target origin : String) : Prop :=
  s.cycleTimeboxActive = false ∧ origin = target ∨
    ∃ ct, policy.cycleTimebox = some ct ∧ (origin = ct.endEntry ∨ origin = ct.finalizationTarget)

structure Carried (policy : PipelinePolicy) (s : PipelineState) (target : String) (t : PipelineState)
    (phase : String) : Prop where
  consumed : t.cycleTimeboxConsumedSeconds = s.cycleTimeboxConsumedSeconds
  idle : t.cycleTimeboxActive = false → ∃ origin, IdleFrom policy s target origin ∧ PassedOver policy origin phase

structure StartsOn (policy : PipelinePolicy) (s : PipelineState) (target : String) (t : PipelineState)
    (phase : String) : Prop where
  consumed : t.cycleTimeboxConsumedSeconds = 0
  passed : ∃ ct origin, policy.cycleTimebox = some ct ∧ IdleFrom policy s target origin ∧
    PassedOver policy origin ct.startEntry ∧ PassedOver policy ct.startEntry phase

theorem Carried.refl (s : PipelineState) (target : String) : Carried policy s target s target :=
  ⟨rfl, fun hidle => ⟨target, .inl ⟨hidle, rfl⟩, .refl⟩⟩

variable {s t s' : PipelineState} {target phase : String}

theorem Carried.passes {u : PipelineState} {next : String} (h : Carried policy s target t phase)
    (htallies : Tallies t u) (hpassed : PassedOver policy phase next) : Carried policy s target u next := by
  refine ⟨htallies.consumed.trans h.consumed, ?_⟩
  intro hidle
  rw [htallies.active] at hidle
  obtain ⟨origin, horigin, hover⟩ := h.idle hidle
  exact ⟨origin, horigin, hover.trans hpassed⟩

theorem Carried.starts {ct : CycleTimeboxPolicy}
    (hct : policy.cycleTimebox = some ct) (h : Carried policy s target t phase) (hidle : t.cycleTimeboxActive = false)
    (hentry : phase = ct.startEntry) : StartsOn policy s target (started t) phase := by
  obtain ⟨origin, horigin, hover⟩ := h.idle hidle
  refine ⟨rfl, ct, origin, hct, horigin, ?_, ?_⟩
  · rw [← hentry]
    exact hover
  · rw [hentry]
    exact .refl

theorem Carried.stops {u : PipelineState} {stop : String} {ct : CycleTimeboxPolicy}
    (hct : policy.cycleTimebox = some ct) (h : Carried policy s target t phase)
    (hstop : stop = ct.endEntry ∨ stop = ct.finalizationTarget)
    (hconsumed : u.cycleTimeboxConsumedSeconds = t.cycleTimeboxConsumedSeconds) : Carried policy s target u stop :=
  ⟨hconsumed.trans h.consumed, fun _ => ⟨stop, .inr ⟨ct, hct, hstop⟩, .refl⟩⟩

theorem Carried.timeboxed (h : Carried policy s target t phase) : Carried policy s target (applyCycleTimebox t phase policy timing).state
        (applyCycleTimebox t phase policy timing).targetPhase ∨ (applyCycleTimebox t phase policy timing).timingStarted = true ∧
        (applyCycleTimebox t phase policy timing).state.cycleTimeboxActive = true ∧
        StartsOn policy s target (applyCycleTimebox t phase policy timing).state
          (applyCycleTimebox t phase policy timing).targetPhase := by
  rcases applyCycleTimebox_cases t phase policy timing with hcase | ⟨ct, time, hct, _, hcase⟩
  · rw [hcase]
    exact .inl h
  · rcases hcase with ⟨hstop, _, hcase⟩ | ⟨hidle, _, hentry, hcase⟩ | ⟨_, _, _, hcase⟩
    · rw [hcase]
      exact .inl (h.stops hct hstop rfl)
    · rw [hcase]
      exact .inr ⟨rfl, rfl, h.starts hct hidle hentry⟩
    · rw [hcase]
      exact .inl (h.stops hct (.inr rfl) rfl)

theorem StartsOn.passes {u : PipelineState} {next : String} (h : StartsOn policy s target t phase)
    (htallies : Tallies t u) (hpassed : PassedOver policy phase next) : StartsOn policy s target u next := by
  obtain ⟨hconsumed, ct, origin, hct, horigin, hover, hon⟩ := h
  exact ⟨htallies.consumed.trans hconsumed, ct, origin, hct, horigin, hover, hon.trans hpassed⟩

theorem Carried.bypassed (h : Carried policy s target t phase) (skipped : List String) :
    Carried policy s target (startCycleForBypassedStartSource t phase skipped policy) phase ∨
      StartsOn policy s target (startCycleForBypassedStartSource t phase skipped policy) phase := by
  unfold startCycleForBypassedStartSource
  split
  · exact .inl h
  · rename_i ct hct
    split
    · rename_i hstart
      exact .inr (h.starts hct hstart.1 hstart.2.1)
    · exact .inl h

theorem startCycle_active (hactive : t.cycleTimeboxActive = true) (phase : String)
    (skipped : List String) : startCycleForBypassedStartSource t phase skipped policy = t := by
  unfold startCycleForBypassedStartSource
  split
  · rfl
  · rw [if_neg]
    intro hstart
    rw [hactive] at hstart
    cases hstart.1

theorem concludeCycle_consumed (t : PipelineState) (phase : String) :
    (concludeCycleOnRouteOutOfCycle t phase policy).cycleTimeboxConsumedSeconds = t.cycleTimeboxConsumedSeconds := by
  unfold concludeCycleOnRouteOutOfCycle
  split
  · rfl
  · split <;> rfl

/-- The seconds are those it was asked with, unless a cycle was started on the way. -/
def CarriedOrStarted (policy : PipelinePolicy) (s : PipelineState) (target : String) (landed : PipelineState × String) : Prop :=
  landed.1.cycleTimeboxConsumedSeconds = s.cycleTimeboxConsumedSeconds ∨ StartsOn policy s target landed.1 landed.2

theorem Carried.resolved {bypass : ExhaustedAnalysisBypassResult}
    (h : Carried policy s target bypass.state bypass.targetPhase) (justStarted : Bool) :
    CarriedOrStarted policy s target (withBypassedCycleTiming bypass policy timing justStarted) := by
  unfold withBypassedCycleTiming
  split
  · exact .inl h.consumed
  · dsimp only
    rcases h.timeboxed with hcarried | ⟨_, hactive, hstarts⟩
    · rcases hcarried.bypassed (bypass.skipped.map ExhaustedAnalysisSkip.phase) with hstill | hstarts
      · exact .inl hstill.consumed
      · exact .inr hstarts
    · rw [startCycle_active hactive]
      exact .inr hstarts

theorem CarriedOrStarted.concluded {landed : PipelineState × String} (h : CarriedOrStarted policy s target landed) :
    CarriedOrStarted policy s target (concludedIfLeavingCycle landed policy) := by
  have hconsumed := @concludeCycle_consumed policy landed.1 landed.2
  rcases h with hsame | hstarts
  · exact .inl (hconsumed.trans hsame)
  · exact .inr ⟨hconsumed.trans hstarts.consumed, hstarts.passed⟩

theorem prepare_clock {prepared : PipelineState} {landed : String} (h : preparePhaseAdvance s target policy timing = .ok (prepared, landed)) :
    CarriedOrStarted policy s target (prepared, landed) := by
  obtain ⟨bypass, hresolves, hresult⟩ := preparePhaseAdvance_eq_ok h
  obtain ⟨htallies, hpassed, _⟩ := resolvesBypass_passes hresolves
  rw [← hresult]
  apply CarriedOrStarted.concluded
  rcases (Carried.refl s target).timeboxed with hcarried | ⟨hjust, _, hstarts⟩
  · exact (hcarried.passes htallies hpassed).resolved _
  · -- a timer that was started on the way to the target is not asked again
    rw [hjust]
    unfold withBypassedCycleTiming
    rw [Bool.or_true, if_pos rfl]
    exact .inr (hstarts.passes htallies hpassed)

theorem advance_clock {effects : List Effect} (h : Reducer.advancePhase s target policy timing = .ok (s', effects)) :
    s'.cycleTimeboxConsumedSeconds = s.cycleTimeboxConsumedSeconds ∨ StartsOn policy s target s' s'.phase := by
  obtain ⟨prepared, landed, hprepare, rfl⟩ := advancePhase_eq_ok h
  rcases prepare_clock hprepare with hsame | hstarts
  · exact .inl hsame
  · exact .inr ⟨hstarts.consumed, hstarts.passed⟩

/-! ## Reductions -/

theorem Clocked.of_same (h : s'.cycleTimeboxConsumedSeconds = s.cycleTimeboxConsumedSeconds) : Clocked policy s s' := .inl h

theorem Clocked.of_tallies {s₀ : PipelineState} (h : Tallies s s₀) (h' : Clocked policy s₀ s') : Clocked policy s s' := by
  unfold Clocked
  rw [← h.consumed, ← h.active]
  exact h'

theorem Clocked.then_tallies {s₁ : PipelineState} (h : Clocked policy s s₁) (h' : Tallies s₁ s') : Clocked policy s s' := by
  unfold Clocked
  rw [h'.consumed, h'.phase]
  exact h

theorem StartsOn.reopens {landed : String} (h : StartsOn policy s target t landed) (hstop : ∀ origin, IdleFrom policy s target origin →
      ∃ ct, policy.cycleTimebox = some ct ∧ (origin = ct.endEntry ∨ origin = ct.finalizationTarget)) :
    Reopens policy landed := by
  obtain ⟨-, ct, origin, hct, horigin, hover, hon⟩ := h
  obtain ⟨ct', hct', hstops⟩ := hstop origin horigin
  cases hct.symm.trans hct'
  exact ⟨ct, origin, hct, hstops, hover, hon⟩

theorem advance_clocked {effects : List Effect} (h : Reducer.advancePhase s target policy timing = .ok (s', effects)) : Clocked policy s s' := by
  rcases advance_clock h with hsame | hstarts
  · exact .inl hsame
  · refine .inr ⟨hstarts.consumed, ?_⟩
    intro hactive
    refine hstarts.reopens ?_
    rintro origin (⟨hidle, _⟩ | hstop)
    · rw [hactive] at hidle
      cases hidle
    · exact hstop

theorem redirected_timer (h : (applyCycleTimebox s target policy timing).redirected = true) :
    (applyCycleTimebox s target policy timing).state.cycleTimeboxConsumedSeconds = s.cycleTimeboxConsumedSeconds ∧
      ∃ ct, policy.cycleTimebox = some ct ∧ (applyCycleTimebox s target policy timing).targetPhase = ct.finalizationTarget := by
  rcases applyCycleTimebox_cases s target policy timing with hcase | ⟨ct, time, hct, _, hcase⟩
  · rw [hcase] at h
    cases h
  · rcases hcase with ⟨_, _, hcase⟩ | ⟨_, _, _, hcase⟩ | ⟨_, _, _, hcase⟩
    · rw [hcase] at h
      cases h
    · rw [hcase] at h
      cases h
    · rw [hcase]
      exact ⟨rfl, ct, hct, rfl⟩

theorem Clocked.of_moves (h : Moves policy timing s s') : Clocked policy s s' := by
  cases h with
  | stays tallies => exact .of_same tallies.consumed
  | attempts clock room => exact .of_same clock.consumed
  | advances before advance after => exact ((advance_clocked advance).of_tallies before).then_tallies after
  | redirects before expired advance after =>
    refine Clocked.of_tallies before (Clocked.then_tallies ?_ after)
    obtain ⟨hconsumed, ct, hct, htarget⟩ := redirected_timer expired
    rcases advance_clock advance with hsame | hstarts
    · exact .inl (hsame.trans hconsumed)
    · refine .inr ⟨hstarts.consumed, fun _ => hstarts.reopens ?_⟩
      -- the redirect goes to a stop of the cycle
      rintro origin (⟨_, rfl⟩ | hstop)
      · exact ⟨ct, hct, .inr htarget⟩
      · exact hstop
  | fails phase previous active consumed => exact .of_same consumed

def ClockedTo (policy : PipelinePolicy) (s : PipelineState) (handled : Handled) : Prop :=
  ∀ s' effects, handled = .ok (s', effects) → Clocked policy s s'

theorem clockedTo_of_moves {handled : Handled} (h : MovesTo policy timing s handled) : ClockedTo policy s handled := by
  intro s' effects hok
  exact .of_moves (h s' effects hok)

theorem handle_consumed (policy : PipelinePolicy) {rc : RecoveryController} {raw : RawFailure} {context : FailureContext}
    {effects : List Effect} (h : (rc.handle s raw context).result = .ok (s', effects)) :
    s'.cycleTimeboxConsumedSeconds = s.cycleTimeboxConsumedSeconds := by
  obtain ⟨own, hserves⟩ := serves_some rc policy
  rcases handle_regains hserves s' effects h with hsame | hfailed
  · exact (sameClock_of_forget hsame).consumed
  · exact (sameClock_of_forget hfailed).consumed

theorem clockedTo_restoring {handled : Handled} (h : ClockedTo policy s handled) : ClockedTo policy s (restoring s handled) := by
  intro s' effects hok
  obtain ⟨⟨s₁, returned⟩, hhandled, hresult⟩ := (bind_eq_ok_iff _ _ _).mp hok
  cases hresult
  exact (h s₁ _ hhandled).then_tallies (restoreWorkUnits_books s s₁)

section

variable (s : PipelineState)

theorem clockedTo_throughController (raw : RawFailure) (context : FailureContext)
    (rc : RecoveryController) : ClockedTo policy s (recoverThroughController s raw context policy rc).result := by
  intro s' effects hok
  obtain ⟨⟨s₁, effects₁⟩, hhandle, hrest⟩ := (bind_eq_ok_iff _ _ _).mp hok
  obtain ⟨charged, hcharge, hresult⟩ := (bind_eq_ok_iff _ _ _).mp hrest
  cases hresult
  have hcharged : Tallies s₁ charged := by
    unfold chargeIfLeft at hcharge
    split at hcharge
    · cases hcharge
      exact Tallies.refl s₁
    · exact chargeExecutionCycle_books hcharge
  have hkept : Clocked policy s s₁ := .of_same (handle_consumed policy hhandle)
  exact hkept.then_tallies (hcharged.trans (restoreWorkUnits_books s charged))

theorem clockedTo_phaseFailure (event : PhaseFailureEvent) (recovery : Option RecoveryController) :
    ClockedTo policy s (reducePhaseFailure s event policy recovery timing).result := by
  unfold reducePhaseFailure
  cases recovery with
  | none => exact clockedTo_of_moves (movesOn_handlePhaseFailure s event).movesTo
  | some rc =>
    dsimp only
    rcases redirect_cases s with ⟨expired, hexpired, hmoves⟩ | ⟨hnone, -⟩
    · rw [hexpired]
      exact clockedTo_of_moves hmoves.movesTo
    · rw [hnone]
      exact clockedTo_throughController s _ _ rc

theorem clockedTo_agentFailure (recovery : Option RecoveryController) :
    ClockedTo policy s (reduceAgentFailure s policy recovery timing).result := by
  unfold reduceAgentFailure
  refine clockedTo_restoring ?_
  cases recovery with
  | none => exact clockedTo_of_moves (movesOn_agentFailure s none).movesTo
  | some rc =>
    dsimp only
    have hplain := clockedTo_of_moves (@movesOn_agentFailure policy timing s (some rc)).movesTo
    unfold reduceCapturedAgentFailure
    split
    · exact hplain
    · rcases redirect_cases s with ⟨expired, hexpired, hmoves⟩ | ⟨hnone, -⟩
      · rw [hexpired]
        exact clockedTo_of_moves hmoves.movesTo
      · rw [hnone]
        dsimp only
        cases capturedFailure s.agentRetryIntent _ with
        | none => exact hplain
        | some exc => exact clockedTo_throughController s _ _ rc

theorem clockedTo_workerFailed (unitId : String) (exitCode : Int) (error : String) (recovery : Option RecoveryController) :
    ClockedTo policy s (dispatchWorkerFailed s unitId exitCode error policy recovery timing).result := by
  cases recovery with
  | none =>
    apply clockedTo_of_moves
    exact movesTo_workerFailed s unitId exitCode error (by simp)
  | some rc =>
    unfold dispatchWorkerFailed
    rcases redirect_cases s with ⟨expired, hexpired, hmoves⟩ | ⟨hnone, -⟩
    · rw [hexpired]
      exact clockedTo_of_moves hmoves.movesTo
    · rw [hnone]
      intro s' effects hok
      obtain ⟨⟨s₁, effects₁⟩, hhandle, hrest⟩ := (bind_eq_ok_iff _ _ _).mp hok
      dsimp only at hrest
      split at hrest
      · cases hrest
      · cases hrest
        have hkept : Clocked policy s s₁ := .of_same (handle_consumed policy hhandle)
        refine hkept.then_tallies (Tallies.trans ?_ (restoreWorkUnits_books s _))
        exact ⟨⟨⟨rfl, rfl, rfl⟩, rfl⟩, rfl⟩

theorem reduce_clocked (event : Event) (recovery : Option RecoveryController) :
    ClockedTo policy s (reduce s event policy recovery timing).result := by
  have hnone : event ≠ .pipeline .complete → MovesTo policy timing s (reduce s event policy none timing).result :=
    reduce_moves (fun rc h => by cases h)
  cases event with
  | phaseFailure event => exact clockedTo_phaseFailure s event recovery
  | workerFailed unitId exitCode error => exact clockedTo_workerFailed s unitId exitCode error recovery
  | pipeline event =>
    cases event with
    | agentFailure => exact clockedTo_agentFailure s recovery
    | complete =>
      refine clockedTo_restoring ?_
      intro s' effects hok
      cases hok
      exact .of_same rfl
    | _ => exact clockedTo_of_moves (hnone (by decide))
  | _ => exact clockedTo_of_moves (hnone (by simp))

theorem runtimeRecovery_clocked (exc : RaisedException) (recovery : Option RecoveryController) :
    ClockedTo policy s (reduceRuntimeRecovery s policy exc recovery timing).result := by
  unfold reduceRuntimeRecovery
  rcases redirect_cases s with ⟨expired, hexpired, hmoves⟩ | ⟨hnone, -⟩
  · rw [hexpired]
    exact clockedTo_of_moves hmoves.movesTo
  · rw [hnone]
    cases recovery with
    | none => exact reduce_clocked s _ none
    | some rc =>
      refine clockedTo_restoring ?_
      intro s' effects hok
      exact .of_same (handle_consumed policy hok)

end

end

end RalphWorkflow.ElapsedTime

/-! ## The consumed seconds outside the normal step

Inline effects and fan-outs reduce as they go. Each reduction leaves the seconds on the timer or starts a cycle, and
so does the whole.
-/

namespace RalphWorkflow.ElapsedTime

open Lib Policy Recovery Movement
open Pipeline Pipeline.Reducer


def SameOrZero (s s' : PipelineState) : Prop :=
  s'.cycleTimeboxConsumedSeconds = s.cycleTimeboxConsumedSeconds ∨ s'.cycleTimeboxConsumedSeconds = 0

section

variable {policy : PipelinePolicy} {timing : Option RoutingTiming}

theorem SameOrZero.refl (s : PipelineState) : SameOrZero s s := .inl rfl

variable {s s' : PipelineState}

theorem SameOrZero.trans {t u : PipelineState} (h : SameOrZero s t) (h' : SameOrZero t u) : SameOrZero s u := by
  rcases h' with hsame | hzero
  · unfold SameOrZero
    rw [hsame]
    exact h
  · exact .inr hzero

theorem Clocked.sameOrZero (h : Clocked policy s s') : SameOrZero s s' := by
  rcases h with hsame | ⟨hzero, _⟩
  · exact .inl hsame
  · exact .inr hzero

theorem reduceForward_clocked {event : Event} (h : reduceForward s event policy = .ok s') : Clocked policy s s' := by
  obtain ⟨⟨t, effects⟩, hreduce, hresult⟩ := (bind_eq_ok_iff _ _ _).mp h
  cases hresult
  exact reduce_clocked s event none _ effects hreduce

/-! ## Inline effects -/

theorem reset_consumed (s : PipelineState) (phase : String) :
    (resetPhaseChainForRecovery s phase).cycleTimeboxConsumedSeconds = s.cycleTimeboxConsumedSeconds := by
  unfold resetPhaseChainForRecovery
  split <;> rfl

theorem missingPlan_consumed (s : PipelineState) (text : String) :
    (recoverMissingPlanHandoff s policy text).cycleTimeboxConsumedSeconds = s.cycleTimeboxConsumedSeconds := by
  unfold recoverMissingPlanHandoff
  dsimp only
  split
  · rw [concludeCycle_consumed]
    rfl
  · rw [reset_consumed, concludeCycle_consumed]
    rfl

theorem hop_clocked (s : PipelineState) (phase : String) (drain : Option String) :
    Clocked policy s (preparePromptHop s phase drain policy timing) := by
  have hprepared : (preparePromptHop s phase drain policy timing).cycleTimeboxConsumedSeconds =
      (preparedTarget s phase policy timing).2.cycleTimeboxConsumedSeconds := by
    unfold preparePromptHop
    dsimp only
    split <;> rfl
  have htimer : (preparedTarget s phase policy timing).2.cycleTimeboxConsumedSeconds = s.cycleTimeboxConsumedSeconds ∨
      (preparedTarget s phase policy timing).2.cycleTimeboxConsumedSeconds = 0 ∧ s.cycleTimeboxActive = false := by
    unfold preparedTarget
    split
    · dsimp only
      generalize timing.getD { totalElapsedSeconds := s.cycleTimeboxConsumedSeconds } = time
      have hreset : ∀ (target : String) (t : PipelineState),
          (if phaseHasRole policy target .commit then { resetPhaseChainForRecovery t target with commit := {} }
            else resetPhaseChainForRecovery t target).cycleTimeboxConsumedSeconds = t.cycleTimeboxConsumedSeconds := by
        intro target t
        split <;> exact reset_consumed t target
      rw [hreset]
      rcases applyCycleTimebox_cases s phase policy (some time) with h | ⟨ct, t, _, _, h⟩
      · rw [h]
        exact .inl rfl
      · rcases h with ⟨_, _, h⟩ | ⟨hidle, _, _, h⟩ | ⟨_, _, _, h⟩
        · rw [h]
          exact .inl rfl
        · rw [h]
          exact .inr ⟨rfl, hidle⟩
        · rw [h]
          exact .inl rfl
    · exact .inl rfl
  unfold Clocked
  rw [hprepared]
  rcases htimer with hsame | ⟨hzero, hidle⟩
  · exact .inl hsame
  · exact .inr ⟨hzero, fun hactive => by rw [hactive] at hidle; cases hidle⟩

theorem inline_clocked {effect : Effect} {materialization : Materialization}
    (h : handleInlineEffect effect s policy timing materialization = .ok (some (.state s'))) : Clocked policy s s' := by
  cases effect with
  | saveCheckpoint =>
    simp only [handleInlineEffect] at h
    cases hsaved : reduceForward s (.pipeline .checkpointSaved) policy with
    | ok saved =>
      rw [hsaved] at h
      cases h
      exact reduceForward_clocked hsaved
    | error e =>
      rw [hsaved] at h
      cases h
  | preparePrompt phase drain previous skip =>
    simp only [handleInlineEffect] at h
    cases skip with
    | true =>
      cases h
      exact hop_clocked s phase drain
    | false =>
      cases materialization with
      | done =>
        cases h
        exact hop_clocked s phase drain
      | missingPlan text =>
        cases h
        exact .of_same (missingPlan_consumed s text)
      | raised exc => cases h
  | exitFailure reason descriptive =>
    cases h
    exact .of_same rfl
  | _ => cases h

theorem integrated_sameOrZero {inline : InlineResult} {conflict : Option String} (hinline : ∀ t, inline = .state t → SameOrZero s t)
    (h : integrateInlineEffect s inline policy conflict = .ok (.state s')) : SameOrZero s s' := by
  unfold integrateInlineEffect at h
  split at h
  · exact hinline s' (Except.ok.inj h)
  · cases h
  · obtain ⟨failed, hfailed, hresult⟩ := (bind_eq_ok_iff _ _ _).mp h
    cases hresult
    exact (reduceForward_clocked hfailed).sameOrZero

/-! ## Fan-outs -/

variable (policy) in
theorem reduceWave_sameOrZero (s : PipelineState) (events : List Event) : SameOrZero s (reduceWave policy s events).1 := by
  induction events generalizing s with
  | nil => exact .refl s
  | cons event events ih =>
    unfold reduceWave
    split
    · rename_i next hnext
      exact (reduceForward_clocked hnext).sameOrZero.trans (ih next)
    · exact .refl s

theorem cleared_sameOrZero (s : PipelineState) : SameOrZero s (clearedAfterSuccessfulWave s) := by
  unfold clearedAfterSuccessfulWave
  split
  · exact .inl rfl
  · exact .refl s

theorem runVerifyPhase_sameOrZero {enabled failed passed : Bool} {error : Option String}
    (h : runVerifyPhase s policy enabled failed error = .ok (s', passed)) : SameOrZero s s' := by
  unfold runVerifyPhase at h
  split at h
  · cases h
    exact .refl s
  · obtain ⟨verified, hverified, hresult⟩ := (bind_eq_ok_iff _ _ _).mp h
    cases hresult
    exact (reduceForward_clocked hverified).sameOrZero

theorem finishWave_sameOrZero (s : PipelineState) (units : List WorkUnit) (verify : Bool) (script : FanOutScript) :
    SameOrZero s (finishWave s policy units verify script).1 := by
  have hcleared := cleared_sameOrZero s
  unfold finishWave
  dsimp only
  split
  · exact hcleared
  · rename_i verified passed hverified
    have hkept := hcleared.trans (runVerifyPhase_sameOrZero hverified)
    split
    · exact hkept
    · split
      · split
        · split
          · rename_i failed hfailed
            exact hkept.trans (reduceForward_clocked hfailed).sameOrZero
          · exact hkept
        · exact hkept
      · exact hkept

variable (policy) in
theorem runWave_sameOrZero (s : PipelineState) (units : List WorkUnit) (verify : Bool) (script : FanOutScript) :
    SameOrZero s (runWave s policy units verify script).1 := by
  have hseeded : SameOrZero s (if s.workUnits.isEmpty then { s with workUnits := units } else s) := by
    split
    · exact .inl rfl
    · exact .refl s
  unfold runWave
  dsimp only
  split
  · exact .refl s
  · rename_i resumed hresumed
    have hkept := hseeded.trans (reduceForward_clocked hresumed).sameOrZero
    split
    · split
      · rename_i current hcurrent
        exact (hkept.trans (reduceForward_clocked hcurrent).sameOrZero).trans (cleared_sameOrZero current)
      · exact hkept
    · have hwave := hkept.trans (reduceWave_sameOrZero policy resumed script.events)
      split
      · rename_i wave exc hreduced
        rw [hreduced] at hwave
        exact hwave
      · rename_i wave hreduced
        rw [hreduced] at hwave
        split
        · exact hwave
        · exact hwave.trans (finishWave_sameOrZero wave units verify script)

theorem fanOut_sameOrZero {units : List WorkUnit} {verify : Bool} {script : FanOutScript}
    (h : runFanOutPhase s policy units verify script = .ok s') : SameOrZero s s' := by
  unfold runFanOutPhase at h
  split at h
  · exact (reduceForward_clocked h).sameOrZero
  · split at h
    · exact (reduceForward_clocked h).sameOrZero
    · have hwave := runWave_sameOrZero policy s units verify script
      split at h
      · rename_i current exc hrun
        rw [hrun] at hwave
        exact hwave.trans (reduceForward_clocked h).sameOrZero
      · rename_i current hrun
        rw [hrun] at hwave
        cases h
        exact hwave

end

end RalphWorkflow.ElapsedTime
