import RalphWorkflow.Pipeline.State

/-! `ralph/pipeline/progress.py`: the analysis-loop counters, the forward phase advance, and what commits, analysis
exits and execution outcomes charge to loop counters and budgets. -/
namespace RalphWorkflow.Pipeline
open Lib Policy

/-! ## Analysis-loop counters -/

structure AnalysisLoopCounter where
  completed : Int
  cap : Nat

namespace AnalysisLoopCounter

def shouldSkipReentry (c : AnalysisLoopCounter) : Bool := (c.cap : Int) ≤ c.completed

def nextCompleted (c : AnalysisLoopCounter) : Int := max 0 (min (c.completed + 1) c.cap)

end AnalysisLoopCounter

def resolveAnalysisCap (iterationField : String) (policy : PipelinePolicy) : Except PyError Nat :=
  match policy.loopCounters.get? iterationField with
  | some counter => .ok counter.defaultMax
  | none => .error (.valueError
      (s!"Analysis loop counter '{iterationField}' is not declared in pipeline.loop_counters. " ++
        "Analysis caps must come from a declared loop counter."))

def shouldSkipAnalysisReentry (currentIteration : Int) (maxIterations : Nat) : Bool :=
  (AnalysisLoopCounter.mk currentIteration maxIterations).shouldSkipReentry

/-! ## The forward advance -/

def resolvePhaseDrain (phase : String) (policy : PipelinePolicy) : Option String :=
  (policy.phases.get? phase).map PhaseDefinition.drain

def phaseHasRole (policy : PipelinePolicy) (phase : String) (role : PhaseRole) : Bool :=
  match policy.phases.get? phase with
  | some phaseDef => phaseDef.role == some role
  | none => false

/-- Enter `targetPhase`: session, retry intent and recovery epoch are dropped, commit phases and cycles begin afresh. -/
def advancePhase (state : PipelineState) (targetPhase : String) (policy : PipelinePolicy) : PipelineState :=
  { state with
    phase := targetPhase
    previousPhase := some state.phase
    lastAgentSessionId := none
    agentRetryIntent := clearedAgentRetryIntent
    recoveryEpoch := 0
    executionCycleCharged :=
      if phaseHasRole policy targetPhase .execution then false else state.executionCycleCharged
    commit := if phaseHasRole policy targetPhase .commit then {} else state.commit
    currentDrain := resolvePhaseDrain targetPhase policy }

@[simp] theorem advancePhase_phase (state : PipelineState) (target : String) (policy : PipelinePolicy) :
    (advancePhase state target policy).phase = target := rfl

@[simp] theorem advancePhase_previousPhase (state : PipelineState) (target : String) (policy : PipelinePolicy) :
    (advancePhase state target policy).previousPhase = some state.phase := rfl

/-! ## Charges -/

/-- Leaving an analysis phase forward resets its loop counter. -/
def applyAnalysisSuccess (state advancedState : PipelineState) (policy : PipelinePolicy) : PipelineState :=
  let result := { advancedState with reviewOutcome := none }
  match (policy.phases.get? state.phase).bind PhaseDefinition.loopPolicy with
  | some loopPolicy => result.withLoopIteration loopPolicy.iterationStateField 0
  | none => result

def applyAnalysisLoopback (state advancedState : PipelineState) (iterationField : String) (maxIterations : Nat)
    (reviewOutcome : Option String) (increment : Bool) : PipelineState :=
  let counted :=
    if increment then
      advancedState.withLoopIteration iterationField
        (AnalysisLoopCounter.mk (state.getLoopIteration iterationField) maxIterations).nextCompleted
    else advancedState
  match reviewOutcome with
  | some outcome => { counted with reviewOutcome := some outcome }
  | none => counted

/-- The loop of `resolve_execution_cycle_loop_counter`, to an analysis phase that loops back to `origin`. -/
def executionCycleLoopCounterFrom (policy : PipelinePolicy) (origin : String) : Nat → String → List String → Option String
  | 0, _, _ => none
  | fuel + 1, current, visited =>
    if current ∈ visited then none
    else match policy.phases.get? current with
      | none => none
      | some phaseDef =>
        match phaseDef.loopPolicy with
        | some loopPolicy =>
          if phaseDef.role = some .analysis ∧ phaseDef.transitions.onLoopback = some origin then
            some loopPolicy.iterationStateField
          else executionCycleLoopCounterFrom policy origin fuel phaseDef.transitions.onSuccess
            (current :: visited)
        | none => executionCycleLoopCounterFrom policy origin fuel phaseDef.transitions.onSuccess
            (current :: visited)

def resolveExecutionCycleLoopCounter (phase : String) (policy : PipelinePolicy) : Option String :=
  executionCycleLoopCounterFrom policy phase (policy.phases.keys.length + 1) phase []

/-- Charge one cycle to the loop of `executionPhase`; the count is read in `counted`. -/
def chargeExecutionCycle (counted state : PipelineState) (executionPhase : String) (policy : PipelinePolicy) : Except PyError PipelineState :=
  match resolveExecutionCycleLoopCounter executionPhase policy with
  | none => .ok state
  | some iterationField => do
    let cap ← resolveAnalysisCap iterationField policy
    let next := (AnalysisLoopCounter.mk (counted.getLoopIteration iterationField) cap).nextCompleted
    .ok { state.withLoopIteration iterationField next with executionCycleCharged := true }

def applyExecutionCycleOutcome (state advancedState : PipelineState) (policy : PipelinePolicy) : Except PyError PipelineState :=
  chargeExecutionCycle state advancedState state.phase policy

def chargeAnalysisCycleForGate (state : PipelineState) (executionPhase : String) (policy : PipelinePolicy) : Except PyError PipelineState :=
  chargeExecutionCycle state state executionPhase policy

def cumulativeExecutionSeconds (state : PipelineState) (executionPhase : String) : ℚ :=
  (((state.phaseTimings.drop state.cycleTimingStartIndex).filter fun record =>
    record.phase == executionPhase).map PhaseTimingRecord.elapsed).sum

def analysisLoopbackIsAlreadyCharged (phase : String) (state : PipelineState) (policy : PipelinePolicy) : Bool :=
  match policy.phases.get? phase with
  | some phaseDef =>
    phaseDef.loopPolicy.isSome && phaseDef.role == some .analysis && state.executionCycleCharged
  | none => false

def resetLoops (state : PipelineState) (fields : List String) : PipelineState :=
  fields.foldl (fun result field => result.withLoopIteration field 0) state

def applyLifecycleCompletionPolicy (state advancedState : PipelineState) (lifecycle : LifecyclePhasePolicy) : PipelineState :=
  let result := resetLoops advancedState lifecycle.loopResets
  match lifecycle.incrementsCounter with
  | none => result
  | some counter =>
    if counter = "none" then result
    else
      let counted := result.withOuterProgress counter (state.getOuterProgress counter + 1)
      { counted with cycleTimingStartIndex := counted.phaseTimings.length }

def applyCommitOutcomePolicyDriven (state advancedState : PipelineState) (skipped : Bool) (commitPolicy : PhaseCommitPolicy) : PipelineState :=
  let result := resetLoops advancedState commitPolicy.loopResets
  match commitPolicy.incrementsCounter with
  | none => result
  | some counter =>
    if !skipped || commitPolicy.skippedAdvancesProgress then
      result.withOuterProgress counter (state.getOuterProgress counter + 1)
    else result

/-- Lifecycle-owned accounting takes precedence over the phase's own commit policy. -/
def applyCommitOutcome (state advancedState : PipelineState) (skipped : Bool) (policy : PipelinePolicy) : PipelineState :=
  match policy.lifecyclePhases.get? state.phase with
  | some lifecycle => applyLifecycleCompletionPolicy state advancedState lifecycle
  | none =>
    match (policy.phases.get? state.phase).bind PhaseDefinition.commitPolicy with
    | some commitPolicy => applyCommitOutcomePolicyDriven state advancedState skipped commitPolicy
    | none => advancedState

def consumePostCommitPhaseOverride (state : PipelineState) : PipelineState :=
  { state with postCommitPhaseOverride := none }

def applyBudgetCounterIncrement (state advancedState : PipelineState) (counter : Option String) : PipelineState :=
  match counter with
  | none => advancedState
  | some counter =>
    if counter = "none" then advancedState
    else advancedState.withOuterProgress counter (state.getOuterProgress counter + 1)

end RalphWorkflow.Pipeline
