import RalphWorkflow.Policy.Default
import RalphWorkflow.Proof.ElapsedTime.Reductions

/-! The runner keeps the clock reading of its last reduction and charges the next one with the seconds since, so also for an inline hop, a fan-out
or a crash in between. The first reduction of a process only takes a reading. -/
namespace RalphWorkflow.ElapsedTime
open Lib Policy Recovery Movement
open Pipeline Pipeline.Reducer

/-! ## One step -/

/-- A step charged nothing and moved no reading, or charged the seconds since the last one. -/
def Accounts (policy : PipelinePolicy) (before : RunnerState) (now : ℚ) (stepped : Stepped) : Prop :=
  ∀ s', stepped.result = .next s' →
    stepped.lastSample = before.lastSample ∧ SameOrZero before.state s' ∨
      stepped.lastSample = some now ∧ ∃ t, SameOrZero before.state t ∧
        s'.cycleTimeboxConsumedSeconds = t.cycleTimeboxConsumedSeconds +
          (sampleCycleTiming before.state policy before.lastSample now).2

section

variable {policy : PipelinePolicy} {before : RunnerState} {frame : StepFrame} {now : ℚ}

theorem accounts_finish {result : StepResult} (h : ∀ s, result ≠ .next s) : Accounts policy before now (frame.finish result) := by
  intro s' hnext
  exact absurd hnext (h s')

theorem accounts_next {s : PipelineState} (hsample : frame.lastSample = before.lastSample)
    (hkept : SameOrZero before.state s) : Accounts policy before now (frame.next s) := by
  intro s' hnext
  cases hnext
  exact .inl ⟨hsample, hkept⟩

theorem accounts_crash (hsample : frame.lastSample = before.lastSample) (hkept : SameOrZero before.state frame.state)
    (exc : RaisedException) : Accounts policy before now (frame.crash policy exc) := by
  unfold StepFrame.crash
  dsimp only
  split
  · exact accounts_finish fun s h => by cases h
  · rename_i newState effects hreduced
    split
    · exact accounts_finish fun s h => by cases h
    · refine accounts_next hsample (hkept.trans ?_)
      exact (runtimeRecovery_clocked frame.state exc frame.recovery newState effects hreduced).sameOrZero

structure Fresh (before : RunnerState) (frame : StepFrame) : Prop where
  sample : frame.lastSample = before.lastSample
  active : frame.state.cycleTimeboxActive = before.state.cycleTimeboxActive
  consumed : frame.state.cycleTimeboxConsumedSeconds = before.state.cycleTimeboxConsumedSeconds

theorem Fresh.sampled (h : Fresh before frame) : sampleCycleTiming frame.state policy frame.lastSample now =
      sampleCycleTiming before.state policy before.lastSample now := by
  unfold sampleCycleTiming
  rw [h.sample, h.active, h.consumed]

theorem foldCycleElapsed_consumed (s s' : PipelineState) (last : Option ℚ) : (foldCycleElapsed s s' (sampleCycleTiming s policy last now).2
        policy.cycleTimebox.isSome).cycleTimeboxConsumedSeconds =
      s'.cycleTimeboxConsumedSeconds + (sampleCycleTiming s policy last now).2 := by
  unfold foldCycleElapsed
  split
  · rfl
  · rename_i hfold
    -- a delta that is not folded is zero
    have hzero : (sampleCycleTiming s policy last now).2 = 0 := by
      unfold sampleCycleTiming at hfold ⊢
      split
      · rename_i htimebox
        rw [if_pos htimebox, htimebox] at hfold
        cases last with
        | none => rfl
        | some last =>
          dsimp only at hfold ⊢
          split
          · rename_i hactive
            rw [hactive] at hfold
            have hnonpos : ¬ 0 < max 0 (now - last) := by simpa using hfold
            exact le_antisymm (not_lt.mp hnonpos) (le_max_left _ _)
          · rfl
      · rfl
    rw [hzero, add_zero]

variable {script : StepScript}

theorem accounts_reduceStep (hfresh : Fresh before frame) (hrecord : script.recordError = none)
    (htimebox : policy.cycleTimebox.isSome = true) (event : Event) :
    Accounts policy before script.reduceNow (reduceStep frame event policy script) := by
  have hkept : SameOrZero before.state frame.state := .inl hfresh.consumed
  unfold reduceStep
  dsimp only
  split
  · refine accounts_crash ?_ ?_ _
    · exact hfresh.sample
    · exact hkept
  · rename_i newState effects hreduced
    rw [hrecord]
    intro s' hnext
    cases hnext
    refine .inr ⟨if_pos htimebox, newState, ?_, ?_⟩
    · exact hkept.trans (reduce_clocked frame.state event frame.recovery newState effects hreduced).sameOrZero
    · rw [← hfresh.sampled]
      exact foldCycleElapsed_consumed frame.state newState frame.lastSample

theorem capture_timer (s : PipelineState) (capture : SessionCapture) : (applySessionCapture s capture).cycleTimeboxActive = s.cycleTimeboxActive ∧
      (applySessionCapture s capture).cycleTimeboxConsumedSeconds = s.cycleTimeboxConsumedSeconds := by
  have hcleared : (applySessionCapture.cleared s).cycleTimeboxActive = s.cycleTimeboxActive ∧
      (applySessionCapture.cleared s).cycleTimeboxConsumedSeconds = s.cycleTimeboxConsumedSeconds := by
    unfold applySessionCapture.cleared
    split <;> exact ⟨rfl, rfl⟩
  unfold applySessionCapture
  dsimp only
  split
  · exact ⟨rfl, rfl⟩
  · split
    · split
      · exact hcleared
      · exact ⟨rfl, rfl⟩
    · exact hcleared

theorem finalize_timer (effect : Effect) (event : Event) (s : PipelineState) (recovery : Option RecoveryController) (script : StepScript) :
    (finalizeAgentInvocation effect event s recovery script).1.cycleTimeboxActive = s.cycleTimeboxActive ∧
      (finalizeAgentInvocation effect event s recovery script).1.cycleTimeboxConsumedSeconds =
        s.cycleTimeboxConsumedSeconds := by
  unfold finalizeAgentInvocation
  split
  · dsimp only
    split <;> exact capture_timer s script.capture
  · exact ⟨rfl, rfl⟩

theorem accounts_executeStep (hfresh : Fresh before frame) (hrecord : script.recordError = none)
    (htimebox : policy.cycleTimebox.isSome = true) (effect : Effect) :
    Accounts policy before script.reduceNow (executeStep frame effect policy script) := by
  have hkept : SameOrZero before.state frame.state := .inl hfresh.consumed
  obtain ⟨hactive, hconsumed⟩ := finalize_timer effect (executedEvent effect script) frame.state frame.recovery script
  unfold executeStep
  split
  · exact accounts_crash hfresh.sample hkept _
  · dsimp only
    split
    · refine accounts_crash ?_ ?_ _
      · exact hfresh.sample
      · exact hkept
    · have hcaptured : Fresh before { frame with
          recovery := (finalizeAgentInvocation effect (executedEvent effect script) frame.state frame.recovery script).2.2
          state := (finalizeAgentInvocation effect (executedEvent effect script) frame.state frame.recovery script).1 } :=
        ⟨hfresh.sample, hactive.trans hfresh.active, hconsumed.trans hfresh.consumed⟩
      split
      · refine accounts_crash ?_ ?_ _
        · exact hcaptured.sample
        · exact .inl hcaptured.consumed
      · split
        · exact accounts_reduceStep hcaptured hrecord htimebox _
        · exact accounts_reduceStep hcaptured hrecord htimebox _

theorem accounts_dispatchStep (hfresh : Fresh before frame) (hrecord : script.recordError = none)
    (htimebox : policy.cycleTimebox.isSome = true) (effect : Effect) :
    Accounts policy before script.reduceNow (dispatchStep frame effect policy script) := by
  have hkept : SameOrZero before.state frame.state := .inl hfresh.consumed
  unfold dispatchStep
  split
  · exact accounts_crash hfresh.sample hkept _
  · rename_i inlineResult hinline
    split
    · exact accounts_crash hfresh.sample hkept _
    · split
      · exact accounts_crash hfresh.sample hkept _
      · rename_i newState hintegrated
        refine accounts_next hfresh.sample (hkept.trans (integrated_sameOrZero ?_ hintegrated))
        intro t ht
        rw [ht] at hinline
        exact (inline_clocked hinline).sameOrZero
      · exact accounts_finish fun s h => by cases h
  · split
    · split
      · rename_i newState hfanOut
        exact accounts_next hfresh.sample (hkept.trans (fanOut_sameOrZero hfanOut))
      · exact accounts_crash hfresh.sample hkept _
    · split
      · exact accounts_executeStep hfresh hrecord htimebox _
      · refine accounts_next hfresh.sample (hkept.trans (.inl ?_))
        exact missingPlan_consumed frame.state _
      · exact accounts_crash hfresh.sample hkept _
    · exact accounts_executeStep hfresh hrecord htimebox effect

theorem accounts_runPipelineStep {bundle : PolicyBundle} (hrecord : script.recordError = none)
    (htimebox : bundle.pipeline.cycleTimebox.isSome = true) (before : RunnerState) :
    Accounts bundle.pipeline before script.reduceNow (runPipelineStep bundle before script) := by
  unfold runPipelineStep
  dsimp only
  split
  · exact accounts_crash rfl (.refl before.state) _
  · split
    · exact accounts_crash rfl (.refl before.state) _
    · exact accounts_dispatchStep ⟨rfl, rfl, rfl⟩ hrecord htimebox _

end

/-! ## One turn of the loop -/

/-- The seconds between two readings, none while there is no earlier one. -/
def charge : Option ℚ → Option ℚ → ℚ
  | some last, some now => now - last
  | _, _ => 0

theorem charge_self (sample : Option ℚ) : charge sample sample = 0 := by
  cases sample with
  | none => rfl
  | some last => exact sub_self last

theorem sampled_charge {policy : PipelinePolicy} {s : PipelineState} {last : Option ℚ} {now : ℚ}
    (htimebox : policy.cycleTimebox.isSome = true) (hactive : s.cycleTimeboxActive = true)
    (hclock : ∀ sample, last = some sample → sample ≤ now) :
    (sampleCycleTiming s policy last now).2 = charge last (some now) := by
  unfold sampleCycleTiming
  rw [if_pos htimebox]
  cases last with
  | none => rfl
  | some sample =>
    have hlater : 0 ≤ now - sample := sub_nonneg.mpr (hclock sample rfl)
    dsimp only
    rw [if_pos hactive, max_eq_right hlater]
    rfl

theorem reselected_timer (s : PipelineState) (recovery : Option RecoveryController) :
    (reselectPreferredAgent s recovery).1.cycleTimeboxConsumedSeconds = s.cycleTimeboxConsumedSeconds := by
  unfold reselectPreferredAgent
  split
  · dsimp only
    split
    · split <;> rfl
    · rfl
  · rfl

theorem slept_timer (s : PipelineState) (recovery : Option RecoveryController) (script : TurnScript) :
    (sleepOffDelay s recovery script).1.cycleTimeboxConsumedSeconds = s.cycleTimeboxConsumedSeconds := by
  unfold sleepOffDelay
  split
  · dsimp only
    split
    · rfl
    · split
      · split
        · exact reselected_timer { s with lastRetryDelayMs := 0 } recovery
        · rfl
      · rfl
  · rfl

variable {script : TurnScript}

theorem runTurn_timer {bundle : PolicyBundle} {before after : RunnerState}
    (h : (runTurn bundle before script).after = .inl after) : ∃ s', (runPipelineStep bundle { before with
          state := applyConnectivityCheck before.state script.connectivityKnown } script.toStepScript).result = .next s' ∧
      after.lastSample = (runPipelineStep bundle { before with
          state := applyConnectivityCheck before.state script.connectivityKnown } script.toStepScript).lastSample ∧
      after.state.cycleTimeboxConsumedSeconds = s'.cycleTimeboxConsumedSeconds := by
  unfold runTurn at h
  split at h
  · cases h
  · split at h
    · cases h
    · dsimp only at h
      split at h
      · cases h
      · cases h
      · rename_i s' hresult
        refine ⟨s', hresult, ?_⟩
        cases h
        refine ⟨rfl, ?_⟩
        dsimp only
        split
        · exact slept_timer s' _ script
        · rw [reselected_timer]
          exact slept_timer s' _ script

theorem connectivity_timer (s : PipelineState) (known : Bool) : (applyConnectivityCheck s known).cycleTimeboxActive = s.cycleTimeboxActive ∧
      (applyConnectivityCheck s known).cycleTimeboxConsumedSeconds = s.cycleTimeboxConsumedSeconds := by
  unfold applyConnectivityCheck
  split <;> exact ⟨rfl, rfl⟩

theorem runTurn_charges {bundle : PolicyBundle} {before after : RunnerState}
    (htimebox : bundle.pipeline.cycleTimebox.isSome = true) (hactive : before.state.cycleTimeboxActive = true)
    (hrecord : script.recordError = none) (hclock : ∀ last, before.lastSample = some last → last ≤ script.reduceNow)
    (h : (runTurn bundle before script).after = .inl after) :
    (after.lastSample = before.lastSample ∨ after.lastSample = some script.reduceNow) ∧
      (after.state.cycleTimeboxConsumedSeconds = before.state.cycleTimeboxConsumedSeconds + charge before.lastSample after.lastSample ∨
        after.state.cycleTimeboxConsumedSeconds = charge before.lastSample after.lastSample) := by
  obtain ⟨s', hresult, hsample, hconsumed⟩ := runTurn_timer h
  obtain ⟨hstill, hshown⟩ := connectivity_timer before.state script.connectivityKnown
  have haccounts := accounts_runPipelineStep hrecord htimebox _ s' hresult
  rw [hsample, hconsumed]
  rcases haccounts with ⟨hunmoved, hkept⟩ | ⟨hmoved, t, hkept, hcharged⟩
  · refine ⟨.inl hunmoved, ?_⟩
    have hnone : charge before.lastSample (runPipelineStep bundle { before with
        state := applyConnectivityCheck before.state script.connectivityKnown } script.toStepScript).lastSample = 0 := by
      rw [hunmoved]
      exact charge_self _
    rw [hnone, add_zero, ← hshown]
    exact hkept
  · refine ⟨.inr hmoved, ?_⟩
    rw [sampled_charge htimebox (hstill.trans hactive) hclock] at hcharged
    rw [hmoved, hcharged]
    rcases hkept with hsame | hzero
    · left
      rw [hsame]
      exact congrArg (· + _) hshown
    · right
      rw [hzero, zero_add]

/-! ## Runs -/

def SetsBack (before after : RunnerState) : Prop :=
  before.state.cycleTimeboxConsumedSeconds ≠ 0 ∧
    after.state.cycleTimeboxConsumedSeconds = charge before.lastSample after.lastSample

instance (before after : RunnerState) : Decidable (SetsBack before after) :=
  inferInstanceAs (Decidable (_ ∧ _))

/-- One active cycle throughout; no turn raises once its event is reduced. -/
inductive OneCycle (bundle : PolicyBundle) : RunnerState → List TurnScript → RunnerState → Prop
  | rest {before : RunnerState} (active : before.state.cycleTimeboxActive = true) : OneCycle bundle before [] before
  | turn {before next after : RunnerState} {script : TurnScript} {scripts : List TurnScript}
      (active : before.state.cycleTimeboxActive = true) (recorded : script.recordError = none)
      (step : (runTurn bundle before script).after = .inl next) (kept : ¬ SetsBack before next)
      (turns : OneCycle bundle next scripts after) : OneCycle bundle before (script :: scripts) after

def readings (scripts : List TurnScript) : List ℚ := scripts.flatMap fun script => [script.now, script.reduceNow]

def samples (bundle : PolicyBundle) : RunnerState → List TurnScript → List ℚ
  | _, [] => []
  | before, script :: scripts =>
    match (runTurn bundle before script).after with
    | .inl after =>
      (if after.lastSample = before.lastSample then [] else after.lastSample.toList) ++ samples bundle after scripts
    | .inr _ => []

def span : List ℚ → ℚ
  | [] => 0
  | base :: rest => rest.getLastD base - base

theorem span_cons (last now : ℚ) (rest : List ℚ) : span (last :: now :: rest) = (now - last) + span (now :: rest) := by
  simp only [span, List.getLastD_cons]
  ring

theorem readings_cons (script : TurnScript) (scripts : List TurnScript) :
    readings (script :: scripts) = script.now :: script.reduceNow :: readings scripts := rfl

theorem samples_cons {bundle : PolicyBundle} {before next : RunnerState}
    (scripts : List TurnScript) (h : (runTurn bundle before script).after = .inl next) :
    samples bundle before (script :: scripts) =
      (if next.lastSample = before.lastSample then [] else next.lastSample.toList) ++ samples bundle next scripts := by
  rw [samples, h]

theorem runTurn_consumed {bundle : PolicyBundle} {before next : RunnerState}
    (htimebox : bundle.pipeline.cycleTimebox.isSome = true) (hactive : before.state.cycleTimeboxActive = true)
    (hrecord : script.recordError = none) (hclock : ∀ last, before.lastSample = some last → last ≤ script.reduceNow)
    (h : (runTurn bundle before script).after = .inl next) (hkept : ¬ SetsBack before next) :
    next.state.cycleTimeboxConsumedSeconds =
      before.state.cycleTimeboxConsumedSeconds + charge before.lastSample next.lastSample := by
  obtain ⟨-, hcharged | hfresh⟩ := runTurn_charges htimebox hactive hrecord hclock h
  · exact hcharged
  · by_cases hzero : before.state.cycleTimeboxConsumedSeconds = 0
    · rw [hzero, zero_add]
      exact hfresh
    · exact absurd ⟨hzero, hfresh⟩ hkept

theorem OneCycle.consumed {bundle : PolicyBundle} {before after : RunnerState} {scripts : List TurnScript}
    (htimebox : bundle.pipeline.cycleTimebox.isSome = true) (h : OneCycle bundle before scripts after)
    (hclock : (before.lastSample.toList ++ readings scripts).Pairwise (· ≤ ·)) :
    after.state.cycleTimeboxConsumedSeconds = before.state.cycleTimeboxConsumedSeconds +
        span (before.lastSample.toList ++ samples bundle before scripts) ∧
      after.lastSample = (before.lastSample.toList ++ samples bundle before scripts).getLast? := by
  induction h with
  | @rest before active =>
    cases hsample : before.lastSample with
    | none => simp [samples, span]
    | some last => simp [samples, span]
  | @turn before next after script scripts active recorded step kept turns ih =>
    have hlast : ∀ last, before.lastSample = some last → last ≤ script.reduceNow := by
      intro last hsample
      rw [hsample, readings_cons] at hclock
      exact List.rel_of_pairwise_cons hclock (by simp)
    have hcharged := runTurn_consumed htimebox active recorded hlast step kept
    rw [samples_cons scripts step]
    by_cases hunmoved : next.lastSample = before.lastSample
    · have hlater : (next.lastSample.toList ++ readings scripts).Pairwise (· ≤ ·) := by
        rw [hunmoved]
        refine hclock.sublist (List.Sublist.append_left ?_ _)
        rw [readings_cons]
        exact ((List.Sublist.refl _).cons _).cons _
      rw [hunmoved, charge_self, add_zero] at hcharged
      rw [if_pos hunmoved, List.nil_append, ← hcharged, ← hunmoved]
      exact ih hlater
    · have hmoved : next.lastSample = some script.reduceNow :=
        (runTurn_charges htimebox active recorded hlast step).1.resolve_left hunmoved
      have hlater : (next.lastSample.toList ++ readings scripts).Pairwise (· ≤ ·) := by
        rw [hmoved]
        refine hclock.sublist ?_
        rw [readings_cons]
        exact ((List.Sublist.refl _).cons _).trans (List.sublist_append_right _ _)
      obtain ⟨hconsumed, hsample⟩ := ih hlater
      rw [if_neg hunmoved, hconsumed, hcharged, hsample, hmoved]
      cases before.lastSample with
      | none => simp [charge]
      | some last =>
        refine ⟨?_, by simp⟩
        show _ = before.state.cycleTimeboxConsumedSeconds +
          span (last :: script.reduceNow :: samples bundle next scripts)
        rw [span_cons, ← add_assoc]
        rfl

/-! ## Charged once -/

section

variable {bundle : PolicyBundle}

theorem runTurn_sample {before after : RunnerState} {script : TurnScript} (hrecord : script.recordError = none)
    (htimebox : bundle.pipeline.cycleTimebox.isSome = true) (h : (runTurn bundle before script).after = .inl after) :
    after.lastSample = before.lastSample ∨ after.lastSample = some script.reduceNow := by
  obtain ⟨s', hresult, hsample, -⟩ := runTurn_timer h
  rw [hsample]
  rcases accounts_runPipelineStep hrecord htimebox _ s' hresult with ⟨hunmoved, _⟩ | ⟨hmoved, _⟩
  · exact .inl hunmoved
  · exact .inr hmoved

theorem reduceStep_sample {frame : StepFrame} {event : Event} {script : StepScript} {newState : PipelineState}
    {effects : List Effect} (hrecord : script.recordError = none)
    (htimebox : bundle.pipeline.cycleTimebox.isSome = true)
    (h : (reduce frame.state event bundle.pipeline frame.recovery
      (sampleCycleTiming frame.state bundle.pipeline frame.lastSample script.reduceNow).1).result =
        .ok (newState, effects)) :
    (reduceStep frame event bundle.pipeline script).lastSample = some script.reduceNow := by
  unfold reduceStep
  dsimp only
  rw [h, hrecord]
  exact if_pos htimebox

theorem OneCycle.active_after {before after : RunnerState} {scripts : List TurnScript}
    (h : OneCycle bundle before scripts after) : after.state.cycleTimeboxActive = true := by
  induction h with
  | rest active => exact active
  | turn active recorded step kept turns ih => exact ih

theorem OneCycle.told {before after : RunnerState} {scripts : List TurnScript} {base : ℚ} {rest : List ℚ}
    (htimebox : bundle.pipeline.cycleTimebox.isSome = true) (h : OneCycle bundle before scripts after)
    (hconsumed : after.state.cycleTimeboxConsumedSeconds =
      before.state.cycleTimeboxConsumedSeconds + span (base :: rest))
    (hsample : after.lastSample = (base :: rest).getLast?) {now : ℚ}
    (hnow : ∀ last, after.lastSample = some last → last ≤ now) :
    (sampleCycleTiming after.state bundle.pipeline after.lastSample now).1 =
      some { totalElapsedSeconds := before.state.cycleTimeboxConsumedSeconds + (now - base) } := by
  have hlast : after.lastSample = some (rest.getLastD base) := by
    rw [hsample, List.getLast?_cons, List.getLastD_eq_getLast?]
  have hcharge := sampled_charge htimebox h.active_after hnow
  have htotal : (sampleCycleTiming after.state bundle.pipeline after.lastSample now).1 =
      some { totalElapsedSeconds := after.state.cycleTimeboxConsumedSeconds +
        (sampleCycleTiming after.state bundle.pipeline after.lastSample now).2 } := by
    unfold sampleCycleTiming
    rw [if_pos htimebox]
  have hspan : after.state.cycleTimeboxConsumedSeconds + charge (some (rest.getLastD base)) (some now) =
      before.state.cycleTimeboxConsumedSeconds + (now - base) := by
    rw [hconsumed]
    simp only [span, charge]
    ring
  rw [htotal, hcharge, hlast, hspan]

end

/-- From the first reduction on, the time of the cycle is charged once. -/
theorem charged_from_first_reduction (bundle : PolicyBundle) (htimebox : bundle.pipeline.cycleTimebox.isSome = true) :
    (∀ before scripts after, before.lastSample = none → (readings scripts).Pairwise (· ≤ ·) → OneCycle bundle before scripts after →
        after.state.cycleTimeboxConsumedSeconds = before.state.cycleTimeboxConsumedSeconds + span (samples bundle before scripts) ∧
          ∀ base rest, samples bundle before scripts = base :: rest →
            ∀ now, (∀ last, after.lastSample = some last → last ≤ now) →
              (sampleCycleTiming after.state bundle.pipeline after.lastSample now).1 =
                some { totalElapsedSeconds := before.state.cycleTimeboxConsumedSeconds + (now - base) }) ∧
      (∀ (before after : RunnerState) (script : TurnScript), script.recordError = none →
        (runTurn bundle before script).after = .inl after →
        after.lastSample = before.lastSample ∨ after.lastSample = some script.reduceNow) ∧
      (∀ (frame : StepFrame) (event : Event) (script : StepScript) (newState : PipelineState) (effects : List Effect),
        script.recordError = none →
        (reduce frame.state event bundle.pipeline frame.recovery
          (sampleCycleTiming frame.state bundle.pipeline frame.lastSample script.reduceNow).1).result =
            .ok (newState, effects) →
        (reduceStep frame event bundle.pipeline script).lastSample = some script.reduceNow) ∧
      ∀ (s s' : PipelineState) (event : Event) (recovery : Option RecoveryController) (timing : Option RoutingTiming)
        (effects : List Effect), s.cycleTimeboxActive = true →
        (reduce s event bundle.pipeline recovery timing).result = .ok (s', effects) →
        s'.cycleTimeboxConsumedSeconds ≠ s.cycleTimeboxConsumedSeconds → Reopens bundle.pipeline s'.phase := by
  refine ⟨?_, ?_, ?_, ?_⟩
  · intro before scripts after hfirst hclock hrun
    have hreadings : (before.lastSample.toList ++ readings scripts).Pairwise (· ≤ ·) := by
      rw [hfirst]
      exact hclock
    obtain ⟨hconsumed, hsample⟩ := hrun.consumed htimebox hreadings
    rw [hfirst] at hconsumed hsample
    refine ⟨hconsumed, ?_⟩
    intro base rest hsamples now hnow
    rw [hsamples] at hconsumed hsample
    exact hrun.told htimebox hconsumed hsample hnow
  · intro before after script hrecord hturn
    exact runTurn_sample hrecord htimebox hturn
  · intro frame event script newState effects hrecord hreduce
    exact reduceStep_sample hrecord htimebox hreduce
  · intro s s' event recovery timing effects hactive hreduce hchanged
    rcases reduce_clocked s event recovery s' effects hreduce with hsame | ⟨_, hreopens⟩
    · exact absurd hsame hchanged
    · exact hreopens hactive

/-! ## A resumed cycle -/

def bundled : PolicyBundle := { pipeline := Default.pipeline }

def resumed : RunnerState where
  state := { phase := "development"
             cycleTimeboxActive := true
             cycleTimeboxConsumedSeconds := 3600
             phaseChains := ⟨[("development", { agents := ["claude"] }),
               ("development_commit_cleanup", { agents := ["claude"] })], by decide⟩ }

def developing : TurnScript := { now := 0, reduceNow := 600 }

def crashing : TurnScript where
  now := 700
  reduceNow := 700
  dispatchError := some { typeName := "OSError", text := "disk full" }

def cleaning : TurnScript := { now := 710, reduceNow := 900 }

/-- The time of the crashed step is charged by the step after it. -/
theorem resumed_charged : ∃ after, OneCycle bundled resumed [developing, crashing, cleaning] after ∧
    samples bundled resumed [developing, crashing, cleaning] = [600, 900] ∧
    after.state.cycleTimeboxConsumedSeconds =
      resumed.state.cycleTimeboxConsumedSeconds + span (samples bundled resumed [developing, crashing, cleaning]) := by
  have hrun : ∃ after, OneCycle bundled resumed [developing, crashing, cleaning] after :=
    ⟨_, .turn (by decide) rfl rfl (by decide +kernel) (.turn (by decide +kernel) rfl rfl (by decide +kernel)
      (.turn (by decide +kernel) rfl rfl (by decide +kernel) (.rest (by decide +kernel))))⟩
  obtain ⟨after, hrun⟩ := hrun
  refine ⟨after, hrun, by decide +kernel, ?_⟩
  exact ((charged_from_first_reduction bundled rfl).1 resumed _ after rfl (by decide +kernel) hrun).1

/-- The ten minutes before the first reduction are charged to nobody. -/
theorem first_step_uncharged : ∃ after, OneCycle bundled resumed [developing] after ∧ after.state.cycleTimeboxConsumedSeconds ≠
      resumed.state.cycleTimeboxConsumedSeconds + (developing.reduceNow - developing.now) :=
  ⟨_, .turn (by decide) rfl rfl (by decide +kernel) (.rest (by decide +kernel)), by decide +kernel⟩

end RalphWorkflow.ElapsedTime
