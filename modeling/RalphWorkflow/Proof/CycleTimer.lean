import RalphWorkflow.Pipeline.Runner
import RalphWorkflow.Policy.Default
import RalphWorkflow.Proof.Movement

/-! A running timer means a run inside the cycle, or in the failure phase on its way back. Every route goes through one seam, which stops the timer
outside; the failure phase is entered with the timer running, because the router leads back to the phase that failed. -/
namespace RalphWorkflow.CycleTimer
open Lib Policy Recovery Movement Default
open Pipeline Pipeline.Reducer

def LeavesCycle (policy : PipelinePolicy) (ct : CycleTimeboxPolicy) (phase : String) : Prop :=
  phase ∈ outsideCyclePhases policy ct ∨ phase ∈ policy.terminalStates

instance (policy : PipelinePolicy) (ct : CycleTimeboxPolicy) (phase : String) : Decidable (LeavesCycle policy ct phase) :=
  inferInstanceAs (Decidable (phase ∈ outsideCyclePhases policy ct ∨ phase ∈ policy.terminalStates))

def TimerInCycle (policy : PipelinePolicy) (ct : CycleTimeboxPolicy) (s : PipelineState) : Prop :=
  s.cycleTimeboxActive = true → s.phase = policy.recovery.failedRoute ∨ ¬ LeavesCycle policy ct s.phase

section

variable {policy : PipelinePolicy} {ct : CycleTimeboxPolicy} {timing : Option RoutingTiming}

theorem concluded_active_of_leaves (hct : policy.cycleTimebox = some ct) {s : PipelineState} {phase : String}
    (hactive : (concludeCycleOnRouteOutOfCycle s phase policy).cycleTimeboxActive = true) :
    ¬ LeavesCycle policy ct phase := by
  intro hleaves
  have hends : endsCycle policy ct phase = true := by
    unfold endsCycle
    simpa [LeavesCycle] using hleaves
  unfold concludeCycleOnRouteOutOfCycle at hactive
  rw [hct] at hactive
  dsimp only at hactive
  rw [hends, Bool.and_true] at hactive
  split at hactive
  · cases hactive
  · rename_i hidle
    exact hidle hactive

theorem advance_leaves_timer (hct : policy.cycleTimebox = some ct) {s s' : PipelineState} {target : String}
    {effects : List Effect} (h : Reducer.advancePhase s target policy timing = .ok (s', effects))
    (hactive : s'.cycleTimeboxActive = true) : ¬ LeavesCycle policy ct s'.phase := by
  obtain ⟨prepared, landed, hprepare, rfl⟩ := advancePhase_eq_ok h
  obtain ⟨bypass, _, hprepared⟩ := preparePhaseAdvance_eq_ok hprepare
  obtain ⟨hstate, hlanded⟩ := Prod.mk.inj hprepared
  have hrunning : prepared.cycleTimeboxActive = true := hactive
  rw [← hstate] at hrunning
  have hinside := concluded_active_of_leaves hct hrunning
  rw [hlanded] at hinside
  exact hinside

theorem TimerInCycle.of_seat {s s' : PipelineState} (h : TimerInCycle policy ct s) (hseat : SameSeat s s') : TimerInCycle policy ct s' := by
  intro hactive
  rw [hseat.phase]
  exact h (by rw [← hseat.active, hactive])

theorem TimerInCycle.of_moves (hct : policy.cycleTimebox = some ct) {s s' : PipelineState}
    (h : TimerInCycle policy ct s) (hmoves : Moves policy timing s s') : TimerInCycle policy ct s' := by
  cases hmoves with
  | stays tallies => exact h.of_seat tallies.toSameSeat
  | attempts clock room => exact h.of_seat clock.toSameSeat
  | advances before advance after =>
    intro hactive
    rw [after.active] at hactive
    rw [after.phase]
    exact .inr (advance_leaves_timer hct advance hactive)
  | redirects before expired advance after =>
    intro hactive
    rw [after.active] at hactive
    rw [after.phase]
    exact .inr (advance_leaves_timer hct advance hactive)
  | fails phase previous active consumed => exact fun _ => .inl phase

/-! ## The prepare-prompt hop -/

theorem preparedTarget_cases (s : PipelineState) (phase : String) : (preparedTarget s phase policy timing).1 = phase ∨
      (preparedTarget s phase policy timing).2.cycleTimeboxActive = false := by
  unfold preparedTarget
  split
  · dsimp only
    have hactive : ∀ (target : String) (s₀ : PipelineState),
        (if phaseHasRole policy target .commit then { resetPhaseChainForRecovery s₀ target with commit := {} }
          else resetPhaseChainForRecovery s₀ target).cycleTimeboxActive = s₀.cycleTimeboxActive := by
      intro target s₀
      split <;> exact resetPhaseChainForRecovery_active s₀ target
    rw [hactive]
    generalize timing.getD { totalElapsedSeconds := s.cycleTimeboxConsumedSeconds } = elapsed
    rcases applyCycleTimebox_cases s phase policy (some elapsed) with h | ⟨ct, t, _, _, h⟩
    · rw [h]
      exact .inl rfl
    · rcases h with ⟨_, _, h⟩ | ⟨_, _, _, h⟩ | ⟨_, _, _, h⟩
      · rw [h]
        exact .inl rfl
      · rw [h]
        exact .inl rfl
      · rw [h]
        exact .inr rfl
  · exact .inl rfl

/-! ## The timer belongs to the cycle -/

/-- The timer stays in its cycle under every event but completion, and under hops to a phase of the cycle. -/
theorem timerInCycle_preserved (policy : PipelinePolicy) (ct : CycleTimeboxPolicy)
    (hct : policy.cycleTimebox = some ct) (timing : Option RoutingTiming) :
    (∀ (s s' : PipelineState) (event : Event) (recovery : Option RecoveryController) (effects : List Effect),
        event ≠ .pipeline .complete → (∀ rc, recovery = some rc → ServesPolicy policy rc) →
        TimerInCycle policy ct s → (reduce s event policy recovery timing).result = .ok (s', effects) →
        TimerInCycle policy ct s') ∧
      ∀ (s : PipelineState) (phase : String) (drain : Option String), ¬ LeavesCycle policy ct phase →
        TimerInCycle policy ct s → TimerInCycle policy ct (preparePromptHop s phase drain policy timing) := by
  constructor
  · intro s s' event recovery effects hevent hrc htimer hreduce
    exact htimer.of_moves hct (reduce_moves hrc hevent s' effects hreduce)
  · intro s phase drain hinside _ hactive
    obtain ⟨hphase, htimer⟩ := preparePromptHop_seat s phase drain policy timing
    rw [htimer] at hactive
    rw [hphase]
    rcases preparedTarget_cases s phase with hsame | hidle
    · rw [hsame]
      exact .inr hinside
    · rw [hidle] at hactive
      cases hactive

end

/-! ## A commit that fails inside the cycle -/

def committing : PipelineState := { phase := "development_commit", cycleTimeboxActive := true }

def commitFailed : PipelineState :=
  { Pipeline.advancePhase committing "failed_terminal" pipeline with
    lastError := some "development_commit: Commit failed"
    recoveryEpoch := 1 }

theorem committing_reduces (timing : Option RoutingTiming) :
    (reduce committing (.pipeline .commitFailure) pipeline none timing).result = .ok (commitFailed, []) := rfl

theorem committing_inside : ¬ LeavesCycle pipeline cycleTimebox "development_commit" := by
  decide +kernel

theorem commitFailed_timerInCycle : TimerInCycle pipeline cycleTimebox commitFailed := by
  have hstart : TimerInCycle pipeline cycleTimebox committing := fun _ => .inr committing_inside
  refine (timerInCycle_preserved pipeline cycleTimebox rfl none).1 committing commitFailed
    (.pipeline .commitFailure) none [] (by decide) ?_ hstart (committing_reduces none)
  intro rc hrc
  cases hrc

/-- A timer that never runs outside the cycle, the failure phase exempt only as a terminal. -/
def TimerOffOutside (policy : PipelinePolicy) (ct : CycleTimeboxPolicy) (s : PipelineState) : Prop :=
  s.cycleTimeboxActive = true → s.phase ∉ outsideCyclePhases policy ct ∧
    (s.phase ∈ policy.terminalStates → s.phase = policy.recovery.failedRoute)

/-- The bundled failure phase is outside its cycle, and a failed commit takes the running timer there. -/
theorem timerOffOutside_not_preserved : pipeline.Accepted ∧ TimerOffOutside pipeline cycleTimebox committing ∧
      (reduce committing (.pipeline .commitFailure) pipeline none none).result = .ok (commitFailed, []) ∧
      ¬ TimerOffOutside pipeline cycleTimebox commitFailed := by
  have hinside := not_or.mp committing_inside
  have houtside : "failed_terminal" ∈ outsideCyclePhases pipeline cycleTimebox := by decide +kernel
  refine ⟨pipeline_accepted, fun _ => ⟨hinside.1, fun h => absurd h hinside.2⟩, rfl, ?_⟩
  intro htimer
  exact (htimer rfl).1 houtside

end RalphWorkflow.CycleTimer
