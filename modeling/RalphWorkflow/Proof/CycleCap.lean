import RalphWorkflow.Pipeline.RunLoop
import RalphWorkflow.Policy.Default
import RalphWorkflow.Proof.CycleCap.Reductions

/-! A crashed step honours the exit that recovery asks for, and fan-outs and inline effects reduce without a controller
and can ask for none. The normal path of a step drops the effects of its reduction, and an exit with them. -/
namespace RalphWorkflow.CycleCap
open Lib Policy Recovery
open Pipeline Pipeline.Reducer

/-! ## One step -/

def executedReduction (frame : StepFrame) (effect : Effect) (script : StepScript) : Option (StepFrame × Event) :=
  match script.executionError, script.gradingError, script.integrationError with
  | none, none, none =>
    let (captured, event, recovery) :=
      finalizeAgentInvocation effect (executedEvent effect script) frame.state frame.recovery script
    some ({ frame with state := captured, recovery := recovery },
      match script.integrationConflict with
      | some reason => integrationConflictFailure captured reason
      | none => event)
  | _, _, _ => none

/-- Inline effects and fan-outs have no reduction of their own. -/
def dispatchedReduction (frame : StepFrame) (effect : Effect) (policy : PipelinePolicy) (script : StepScript) : Option (StepFrame × Event) :=
  match handleInlineEffect effect frame.state policy frame.routingTiming script.materialization with
  | .ok none =>
    match effect with
    | .fanOut .. => none
    | .invokeAgent .. =>
      match script.materialization with
      | .done => executedReduction frame effect script
      | _ => none
    | _ => executedReduction frame effect script
  | _ => none

def normalReduction (bundle : PolicyBundle) (before : RunnerState) (script : StepScript) : Option (StepFrame × Event) :=
  match script.dispatchError, determineEffectFromPolicy before.state bundle script.env with
  | none, .ok effect =>
    dispatchedReduction { startFrame bundle before script with effect := some effect } effect bundle.pipeline script
  | _, _ => none

def StepSpares (bundle : PolicyBundle) (before : RunnerState) (script : StepScript) : Prop :=
  ∀ frame event, normalReduction bundle before script = some (frame, event) →
    reductionReachesCap frame.state event bundle.pipeline frame.recovery
      (sampleCycleTiming frame.state bundle.pipeline frame.lastSample script.reduceNow).1 = false

def HonoursExit (stepped : Stepped) : Prop := exits stepped.recovered = true → stepped.result = .exit 1

section

variable {policy : PipelinePolicy} {frame : StepFrame}

theorem finish_honours (hquiet : exits frame.recovered = false) (result : StepResult) : HonoursExit (frame.finish result) := by
  intro hexits
  rw [show (frame.finish result).recovered = frame.recovered from rfl, hquiet] at hexits
  cases hexits

theorem next_honours (hquiet : exits frame.recovered = false) (s : PipelineState) : HonoursExit (frame.next s) :=
  finish_honours hquiet _

theorem exits_append (effects effects' : List Effect) : exits (effects ++ effects') = (exits effects || exits effects') := List.any_append

theorem crash_honours (hquiet : exits frame.recovered = false) (exc : RaisedException) : HonoursExit (frame.crash policy exc) := by
  unfold StepFrame.crash
  dsimp only
  split
  · exact finish_honours hquiet _
  · rename_i effects _
    split
    · exact fun _ => rfl
    · rename_i hstays
      refine next_honours ?_ _
      show exits (frame.recovered ++ effects) = false
      rw [exits_append, hquiet]
      exact Bool.eq_false_iff.mpr hstays

theorem reduceStep_honours {event : Event} {script : StepScript} (hquiet : exits frame.recovered = false)
    (hspares : reductionReachesCap frame.state event policy frame.recovery
      (sampleCycleTiming frame.state policy frame.lastSample script.reduceNow).1 = false) :
    HonoursExit (reduceStep frame event policy script) := by
  unfold reduceStep
  dsimp only
  split
  · refine crash_honours ?_ _
    exact hquiet
  · rename_i s' effects hresult
    have heffects : exits effects = false := (reduce_exits hresult).trans hspares
    split
    · refine crash_honours ?_ _
      exact heffects
    · refine next_honours ?_ _
      exact heffects

theorem executeStep_honours {effect : Effect} {script : StepScript} (hquiet : exits frame.recovered = false)
    (hspares : ∀ frame' event, executedReduction frame effect script = some (frame', event) →
      reductionReachesCap frame'.state event policy frame'.recovery
        (sampleCycleTiming frame'.state policy frame'.lastSample script.reduceNow).1 = false) :
    HonoursExit (executeStep frame effect policy script) := by
  unfold executeStep
  unfold executedReduction at hspares
  cases hexecution : script.executionError with
  | some exc => exact crash_honours hquiet exc
  | none =>
    dsimp only
    cases hgrading : script.gradingError with
    | some exc =>
      refine crash_honours ?_ _
      exact hquiet
    | none =>
      dsimp only
      cases hintegration : script.integrationError with
      | some exc =>
        refine crash_honours ?_ _
        exact hquiet
      | none =>
        rw [hexecution, hgrading, hintegration] at hspares
        dsimp only at hspares ⊢
        have hreduction := hspares _ _ rfl
        cases hconflict : script.integrationConflict with
        | some reason =>
          rw [hconflict] at hreduction
          refine reduceStep_honours ?_ hreduction
          exact hquiet
        | none =>
          rw [hconflict] at hreduction
          refine reduceStep_honours ?_ hreduction
          exact hquiet

theorem dispatchStep_honours {effect : Effect} {script : StepScript} (hquiet : exits frame.recovered = false)
    (hspares : ∀ frame' event, dispatchedReduction frame effect policy script = some (frame', event) →
      reductionReachesCap frame'.state event policy frame'.recovery
        (sampleCycleTiming frame'.state policy frame'.lastSample script.reduceNow).1 = false) :
    HonoursExit (dispatchStep frame effect policy script) := by
  unfold dispatchStep
  unfold dispatchedReduction at hspares
  cases hinline : handleInlineEffect effect frame.state policy frame.routingTiming script.materialization with
  | error exc => exact crash_honours hquiet exc
  | ok inline =>
    rw [hinline] at hspares
    cases inline with
    | some inlineResult =>
      dsimp only
      cases script.executionError with
      | some exc => exact crash_honours hquiet exc
      | none =>
        dsimp only
        split
        · exact crash_honours hquiet _
        · exact next_honours hquiet _
        · exact finish_honours hquiet _
    | none =>
      cases effect with
      | fanOut workUnits maxParallel verify command =>
        dsimp only
        split
        · exact next_honours hquiet _
        · exact crash_honours hquiet _
      | invokeAgent agentName phase drain =>
        dsimp only at hspares ⊢
        cases hmaterialization : script.materialization with
        | done =>
          rw [hmaterialization] at hspares
          exact executeStep_honours hquiet hspares
        | missingPlan text => exact next_honours hquiet _
        | raised exc => exact crash_honours hquiet _
      | _ => exact executeStep_honours hquiet hspares

end

theorem runPipelineStep_honours {bundle : PolicyBundle} {before : RunnerState} {script : StepScript}
    (hspares : StepSpares bundle before script) : HonoursExit (runPipelineStep bundle before script) := by
  unfold runPipelineStep
  unfold StepSpares normalReduction at hspares
  cases hdispatch : script.dispatchError with
  | some exc =>
    refine crash_honours ?_ exc
    rfl
  | none =>
    rw [hdispatch] at hspares
    cases hchosen : determineEffectFromPolicy before.state bundle script.env with
    | error e =>
      refine crash_honours ?_ _
      rfl
    | ok effect =>
      rw [hchosen] at hspares
      refine dispatchStep_honours ?_ hspares
      rfl

/-! ## Runs -/

/-- The turn takes no step, or one that does not reach the cap on its normal path. -/
def TurnSpares (bundle : PolicyBundle) (before : RunnerState) (script : TurnScript) : Prop :=
  before.state.phase ≠ bundle.pipeline.terminalPhase → script.blocked = false →
    StepSpares bundle { before with state := applyConnectivityCheck before.state script.connectivityKnown }
      script.toStepScript

def NormalPathSpares (bundle : PolicyBundle) : RunnerState → List TurnScript → Prop
  | _, [] => True
  | before, script :: scripts =>
    TurnSpares bundle before script ∧
      ∀ after, (runTurn bundle before script).after = .inl after → NormalPathSpares bundle after scripts

def EndsAtCap (trace : List Stepped) : Prop :=
  ∀ earlier stepped later, trace = earlier ++ stepped :: later → exits stepped.recovered = true →
    stepped.result = .exit 1 ∧ ∀ next ∈ later, ∀ effect, next.effect = some effect → effect.dispatchesWork = false

theorem endsAtCap_last {step : Option Stepped} (hhonours : ∀ stepped, step = some stepped → HonoursExit stepped) : EndsAtCap step.toList := by
  intro earlier stepped later htrace hexits
  cases step with
  | none => simp at htrace
  | some only =>
    cases earlier with
    | nil =>
      obtain ⟨rfl, hlater⟩ := List.cons.inj htrace
      refine ⟨hhonours only rfl hexits, ?_⟩
      rw [← hlater]
      simp
    | cons first earlier => simp at htrace

theorem endsAtCap_cons {first : Stepped} {trace : List Stepped} (hquiet : exits first.recovered = false)
    (h : EndsAtCap trace) : EndsAtCap (first :: trace) := by
  intro earlier stepped later htrace hexits
  cases earlier with
  | nil =>
    obtain ⟨rfl, _⟩ := List.cons.inj htrace
    rw [hquiet] at hexits
    cases hexits
  | cons head earlier =>
    obtain ⟨_, hrest⟩ := List.cons.inj htrace
    exact h earlier stepped later hrest hexits

theorem runTurn_honours {bundle : PolicyBundle} {before : RunnerState} {script : TurnScript}
    (hspares : TurnSpares bundle before script) {stepped : Stepped}
    (hstep : (runTurn bundle before script).step = some stepped) : HonoursExit stepped := by
  unfold runTurn at hstep
  split at hstep
  · cases hstep
  · rename_i hrunning
    split at hstep
    · cases hstep
    · rename_i hopen
      have hhonours := runPipelineStep_honours (hspares hrunning (Bool.eq_false_iff.mpr hopen))
      dsimp only at hstep
      split at hstep <;> cases hstep <;> exact hhonours

theorem runTurn_inl {bundle : PolicyBundle} {before after : RunnerState} {script : TurnScript}
    (h : (runTurn bundle before script).after = .inl after) :
    ∃ stepped s, (runTurn bundle before script).step = some stepped ∧ stepped.result = .next s := by
  unfold runTurn at h ⊢
  split at h
  · cases h
  · rename_i hrunning
    rw [if_neg hrunning]
    split at h
    · cases h
    · rename_i hopen
      rw [if_neg hopen]
      dsimp only at h ⊢
      split at h
      · cases h
      · cases h
      · rename_i s hresult
        exact ⟨_, s, rfl, hresult⟩

/-- A run that never reaches the cap on a normal path ends, with a failure, at the step that reaches it. -/
theorem cap_ends_run (bundle : PolicyBundle) (before : RunnerState) (scripts : List TurnScript)
    (hspares : NormalPathSpares bundle before scripts) : EndsAtCap (runTrace bundle before scripts) := by
  induction scripts generalizing before with
  | nil =>
    intro earlier stepped later htrace
    simp [runTrace] at htrace
  | cons script scripts ih =>
    obtain ⟨hturn, hrest⟩ := hspares
    unfold runTrace
    dsimp only
    split
    · rename_i after hafter
      obtain ⟨stepped, s, hstep, hresult⟩ := runTurn_inl hafter
      rw [hstep]
      refine endsAtCap_cons ?_ (ih after (hrest after hafter))
      by_contra hexits
      have hexit := runTurn_honours hturn hstep (Bool.not_eq_false _ ▸ hexits)
      rw [hresult] at hexit
      cases hexit
    · exact endsAtCap_last fun stepped hstep => runTurn_honours hturn hstep

/-! ## A dropped exit -/

def cappedBundle : PolicyBundle where
  pipeline := { Default.pipeline with
    recovery := { cycleCap := 1, failedRoute := "failed_terminal", terminalFailurePhase := some "failed_terminal" } }

def cappedController : RecoveryController where
  cap := ⟨1, by decide⟩
  classify := fun _ _ _ _ => { category := .agent, reason := "the agent failed", countsAgainstBudget := true }
  clock := fun _ => 0
  policyBundle := some cappedBundle

def freshRun : RunnerState where
  state := { phase := "planning"
             policyEntryPhase := "planning"
             phaseChains := ⟨[("planning", { agents := ["claude"] })], by decide⟩ }
  recovery := some cappedController

def failingTurn : TurnScript where
  event := .phaseFailure
    { phase := "planning", reason := "no plan was written", recoverable := true, failureCategory := some .agent }

theorem not_endsAtCap {trace earlier later : List Stepped} {stepped next : Stepped} {effect : Effect}
    (htrace : trace = earlier ++ stepped :: later) (hexits : exits stepped.recovered = true) (hnext : next ∈ later)
    (heffect : next.effect = some effect) (hwork : effect.dispatchesWork = true) : ¬ EndsAtCap trace := by
  intro hends
  have hidle := (hends earlier stepped later htrace hexits).2 next hnext effect heffect
  rw [hwork] at hidle
  cases hidle

/-- The fourth failure reaches the cap, and yet the run goes on and invokes the agent again. -/
theorem cap_dropped_on_normal_path : cappedBundle.pipeline.Accepted ∧
      ¬ EndsAtCap (runTrace cappedBundle freshRun (List.replicate 6 failingTurn)) := by
  refine ⟨by decide +kernel, ?_⟩
  have hexits : ((runTrace cappedBundle freshRun (List.replicate 6 failingTurn))[3]?.map fun stepped =>
      exits stepped.recovered) = some true := by
    decide +kernel
  have hwork : (((runTrace cappedBundle freshRun (List.replicate 6 failingTurn)).drop 4)[1]?.bind fun stepped =>
      stepped.effect.map Effect.dispatchesWork) = some true := by
    decide +kernel
  generalize runTrace cappedBundle freshRun (List.replicate 6 failingTurn) = steps at hexits hwork
  obtain ⟨capped, hcapped, hcap⟩ := Option.map_eq_some_iff.mp hexits
  obtain ⟨next, hnext, hdispatched⟩ := Option.bind_eq_some_iff.mp hwork
  obtain ⟨effect, heffect, hworks⟩ := Option.map_eq_some_iff.mp hdispatched
  obtain ⟨hlt, rfl⟩ := List.getElem?_eq_some_iff.mp hcapped
  have htrace : steps = steps.take 3 ++ steps[3] :: steps.drop 4 := by
    rw [← List.drop_eq_getElem_cons hlt, List.take_append_drop]
  exact not_endsAtCap htrace hcap (List.mem_of_getElem? hnext) heffect hworks

def crashingTurn : TurnScript where
  dispatchError := some { typeName := "OSError", text := "disk full" }

def spentRun : RunnerState where
  state := { phase := "planning"
             policyEntryPhase := "planning"
             phaseChains := ⟨[("planning", { agents := ["claude"], retries := 3 })], by decide⟩ }
  recovery := some { cappedController with
    registry := ⟨[(("planning", "claude"), { maxRetries := 3, consumed := 2 })], by decide⟩ }

theorem cap_ends_crashed_run : NormalPathSpares cappedBundle spentRun [crashingTurn] ∧
      (runTrace cappedBundle spentRun [crashingTurn]).map (fun stepped => exits stepped.recovered) = [true] ∧
      EndsAtCap (runTrace cappedBundle spentRun [crashingTurn]) := by
  have hspares : NormalPathSpares cappedBundle spentRun [crashingTurn] := by
    refine ⟨?_, fun after _ => trivial⟩
    intro _ _ frame event hreduction
    cases hreduction
  exact ⟨hspares, by decide +kernel, cap_ends_run cappedBundle spentRun [crashingTurn] hspares⟩

end RalphWorkflow.CycleCap
