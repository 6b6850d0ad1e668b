import RalphWorkflow.Lib.Worklist
import RalphWorkflow.Pipeline.Handoffs

/-! `ralph/pipeline/cycle_timing.py`. The timer starts on the declared transition, stops on entry to the finalization path or any phase outside the
cycle, and an entry to the guarded phase past the deadline is redirected. The elapsed seconds come in as `RoutingTiming`. -/
namespace RalphWorkflow.Pipeline
open Lib Lib.Text Lib.Worklist Policy

structure RoutingTiming where
  totalElapsedSeconds : ℚ

structure CycleTimeboxDecision where
  state : PipelineState
  targetPhase : String
  redirectReason : Option String := none
  timingStarted : Bool := false

def CycleTimeboxDecision.redirected (decision : CycleTimeboxDecision) : Bool := decision.redirectReason.isSome

def concluded (state : PipelineState) : PipelineState := { state with cycleTimeboxActive := false }

/-- The conclusion of a deadline redirect; it never outranks a verdict the cycle recorded. -/
def concludedByRedirect (state : PipelineState) (reason : String) (outcome : CycleOutcome) : PipelineState :=
  { state with
    cycleTimeboxActive := false
    cycleTimeboxRedirectReason := some reason
    cycleTimeboxRedirects := state.cycleTimeboxRedirects + 1
    pendingCycleOutcome := some (state.pendingCycleOutcome.getD outcome) }

def cycleTimeboxRedirectReason (limitSeconds elapsedSeconds : ℚ) (target : String) : String :=
  s!"cycle timebox reached {fixed0 limitSeconds}s (elapsed {fixed0 elapsedSeconds}s); redirecting to {target}"

def started (state : PipelineState) : PipelineState :=
  { state with
    cycleTimeboxActive := true
    cycleTimeboxConsumedSeconds := 0
    cycleTimeboxRedirectReason := none }

def applyCycleTimebox (state : PipelineState) (targetPhase : String) (policy : PipelinePolicy)
    (routingTiming : Option RoutingTiming) : CycleTimeboxDecision :=
  match policy.cycleTimebox, routingTiming with
  | some ct, some timing =>
    if (targetPhase = ct.endEntry ∨ targetPhase = ct.finalizationTarget) ∧ state.cycleTimeboxActive = true then
      { state := concluded state, targetPhase := targetPhase }
    else if state.cycleTimeboxActive = false ∧ state.phase = ct.startSource ∧ targetPhase = ct.startEntry then
      { state := started state, targetPhase := targetPhase, timingStarted := true }
    else if targetPhase = ct.guardedEntry ∧ state.cycleTimeboxActive = true ∧ ct.durationSeconds ≤ timing.totalElapsedSeconds then
      let reason := cycleTimeboxRedirectReason ct.durationSeconds timing.totalElapsedSeconds ct.finalizationTarget
      { state := concludedByRedirect state reason ct.finalizationCycleOutcome,
        targetPhase := ct.finalizationTarget, redirectReason := some reason }
    else { state := state, targetPhase := targetPhase }
  | _, _ => { state := state, targetPhase := targetPhase }

def redirectReason (ct : CycleTimeboxPolicy) (timing : RoutingTiming) : String :=
  cycleTimeboxRedirectReason ct.durationSeconds timing.totalElapsedSeconds ct.finalizationTarget

/-- The timebox leaves the route alone, ends the cycle, starts it at its start edge, or redirects an expired one. -/
theorem applyCycleTimebox_cases (state : PipelineState) (targetPhase : String) (policy : PipelinePolicy) (routingTiming : Option RoutingTiming) :
    applyCycleTimebox state targetPhase policy routingTiming = { state := state, targetPhase := targetPhase } ∨
      ∃ ct timing, policy.cycleTimebox = some ct ∧ routingTiming = some timing ∧
        (((targetPhase = ct.endEntry ∨ targetPhase = ct.finalizationTarget) ∧ state.cycleTimeboxActive = true ∧
            applyCycleTimebox state targetPhase policy routingTiming =
              { state := concluded state, targetPhase := targetPhase }) ∨
          (state.cycleTimeboxActive = false ∧ state.phase = ct.startSource ∧ targetPhase = ct.startEntry ∧
            applyCycleTimebox state targetPhase policy routingTiming =
              { state := started state, targetPhase := targetPhase, timingStarted := true }) ∨
          (targetPhase = ct.guardedEntry ∧ state.cycleTimeboxActive = true ∧
            ct.durationSeconds ≤ timing.totalElapsedSeconds ∧
            applyCycleTimebox state targetPhase policy routingTiming =
              { state := concludedByRedirect state (redirectReason ct timing) ct.finalizationCycleOutcome,
                targetPhase := ct.finalizationTarget, redirectReason := some (redirectReason ct timing) })) := by
  cases hct : policy.cycleTimebox with
  | none => exact .inl (by simp only [applyCycleTimebox, hct])
  | some ct =>
    cases routingTiming with
    | none => exact .inl (by simp only [applyCycleTimebox, hct])
    | some timing =>
      simp only [applyCycleTimebox, hct]
      split
      · rename_i hend
        exact .inr ⟨ct, timing, rfl, rfl, .inl ⟨hend.1, hend.2, rfl⟩⟩
      · split
        · rename_i hstart
          exact .inr ⟨ct, timing, rfl, rfl, .inr (.inl ⟨hstart.1, hstart.2.1, hstart.2.2, rfl⟩)⟩
        · split
          · rename_i hexpired
            exact .inr ⟨ct, timing, rfl, rfl, .inr (.inr ⟨hexpired.1, hexpired.2.1, hexpired.2.2, rfl⟩)⟩
          · exact .inl rfl

/-! ## Phases outside the cycle -/

def declaredTargets (phaseDef : PhaseDefinition) : List String :=
  let t := phaseDef.transitions
  [some t.onSuccess, t.onFailure, t.onLoopback].filterMap id ++
    phaseDef.decisions.values.map PhaseDecisionRoute.target

/-- Declared edges of a phase, except that the cycle's two entries are the boundary. -/
def outsideExpand (policy : PipelinePolicy) (ct : CycleTimeboxPolicy) (phase : String) : Option (List String) :=
  if phase = ct.startEntry ∨ phase = ct.guardedEntry then none
  else (policy.phases.get? phase).map declaredTargets

def outsideCyclePhases (policy : PipelinePolicy) (ct : CycleTimeboxPolicy) : List String :=
  let frontier := [policy.entryPhase, ct.startSource, ct.endEntry]
  sweep (outsideExpand policy ct) (walkFuel (outsideExpand policy ct) policy.phases.keys frontier) frontier.reverse []

def endsCycle (policy : PipelinePolicy) (ct : CycleTimeboxPolicy) (nextPhase : String) : Bool :=
  nextPhase ∈ outsideCyclePhases policy ct || nextPhase ∈ policy.terminalStates

/-! ## The timer along a route -/

def concludeCycleOnRouteOutOfCycle (state : PipelineState) (nextPhase : String) (policy : PipelinePolicy) : PipelineState :=
  match policy.cycleTimebox with
  | none => state
  | some ct => if state.cycleTimeboxActive && endsCycle policy ct nextPhase then concluded state else state

def startCycleForBypassedStartSource (state : PipelineState) (targetPhase : String) (skippedPhases : List String)
    (policy : PipelinePolicy) : PipelineState :=
  match policy.cycleTimebox with
  | none => state
  | some ct =>
    if state.cycleTimeboxActive = false ∧ targetPhase = ct.startEntry ∧ ct.startSource ∈ skippedPhases then
      started state
    else state

/-- Start a timer for a checkpoint, written before cycles were timed, that resumes inside a cycle. -/
def initializeLegacyCycleOnResume (state : PipelineState) (policy : PipelinePolicy) : PipelineState :=
  match policy.cycleTimebox with
  | none => state
  | some ct =>
    if state.cycleTimeboxActive = true ∨ 0 < state.cycleTimeboxConsumedSeconds then state
    else if state.phase = ct.startEntry ∨ state.phase = ct.guardedEntry then started state
    else if policy.hasPhase state.phase = false ∨ state.phase ∈ policy.terminalStates then state
    else if state.phase ∈ outsideCyclePhases policy ct then state
    else started state

end RalphWorkflow.Pipeline
