import RalphWorkflow.Pipeline.Runner

/-! `_run_inner_loop_after_startup` of `ralph/pipeline/run_loop.py`: steps are taken until the run is in the terminal phase, a step exits, or an
exception leaves a step. In between the loop sleeps off a retry delay and selects the preferred agent of a new phase. -/
namespace RalphWorkflow.Pipeline
open Lib Policy Recovery
open Lib Policy

/-! ## The initial state

`create_initial_state` of `ralph/pipeline/state_init.py`.
-/

def agentsForPhase (config : ConfigAgents) (phase : String) (bundle : PolicyBundle) : List String :=
  let policyDrain := (bundle.pipeline.phases.get? phase).map PhaseDefinition.drain
  match configAgentsForPhase (some config) phase policyDrain with
  | agent :: rest => agent :: rest
  | [] =>
    (((bundle.pipeline.phases.get? phase).bind fun phaseDef =>
      (bundle.agents.agentDrains.get? phaseDef.drain).bind fun drain =>
        bundle.agents.agentChains.get? drain.chain).map AgentChainConfig.agents).getD []

def initialPhaseChains (config : ConfigAgents) (bundle : PolicyBundle) : Dict String AgentChainState :=
  Dict.ofList (bundle.pipeline.phases.keys.map fun phase =>
    (phase, ({ agents := agentsForPhase config phase bundle } : AgentChainState)))

/-- The declared caps, the configured number of development iterations, and the overrides of the command line. -/
def initialBudgetCaps (policy : PipelinePolicy) (developerIters : Int) (counterOverrides : Dict String Int) : Dict String Int :=
  let declared := Dict.ofList (policy.budgetCounters.entries.map fun (name, counter) => (name, (counter.defaultMax : Int)))
  let configured := if declared.contains "iteration" then declared.set "iteration" developerIters else declared
  counterOverrides.entries.foldl (fun caps (name, cap) => caps.set name cap) configured

def createInitialState (config : ConfigAgents) (bundle : PolicyBundle) (developerIters : Int)
    (counterOverrides : Dict String Int) : PipelineState where
  phase := bundle.pipeline.entryPhase
  budgetCaps := initialBudgetCaps bundle.pipeline developerIters counterOverrides
  phaseChains := initialPhaseChains config bundle
  policyEntryPhase := bundle.pipeline.entryPhase
  currentDrain := resolvePhaseDrain bundle.pipeline.entryPhase bundle.pipeline

/-- One turn of the loop. An unresolved integration ends the run. -/
structure TurnScript extends StepScript where
  blocked : Bool := false
  connectivityKnown : Bool := false
  sleepRaised : Bool := false
  resumeAllowed : Bool := true

def applyConnectivityCheck (state : PipelineState) (known : Bool) : PipelineState :=
  if known then { state with lastConnectivityState := "online" } else state

/-- Move the chain of the current phase to its highest-priority available agent. -/
def reselectPreferredAgent (state : PipelineState) (recovery : Option RecoveryController) : PipelineState × Option RecoveryController :=
  match state.chainForPhase state.phase, recovery with
  | some chain, some rc =>
    let (selection, rc) := rc.preferredAgentIndex state.phase chain.agents none false
    match selection with
    | some index =>
      if index = chain.currentIndex then (state, some rc)
      else
        let chain := { agents := chain.agents, currentIndex := index, retries := 0 }
        ({ state.withPhaseChain state.phase chain with
           lastAgentSessionId := none
           agentRetryIntent := clearedAgentRetryIntent }, some rc)
    | none => (state, some rc)
  | _, _ => (state, recovery)

/-- Sleep off a retry delay; a wait for cooldowns also selects an agent again. -/
def sleepOffDelay (state : PipelineState) (recovery : Option RecoveryController) (script : TurnScript) :
    PipelineState × Option RecoveryController :=
  if 0 < state.lastRetryDelayMs then
    let waiting := state.isWaitingState
    let state := { state with lastRetryDelayMs := 0 }
    if script.sleepRaised then ({ state with lastRetryDelayMs := 1000 }, recovery)
    else if waiting then
      let (selected, recovery) := if script.resumeAllowed then reselectPreferredAgent state recovery else (state, recovery)
      ({ selected with isWaitingState := false }, recovery)
    else (state, recovery)
  else (state, recovery)

inductive RunEnd
  | terminal
  | exit (code : Nat)
  | raised (error : PyError)
  deriving DecidableEq

/-- The step it took, and the surroundings for the next turn or the end of the run. -/
structure Turn where
  step : Option Stepped
  after : RunnerState ⊕ RunEnd

def runTurn (bundle : PolicyBundle) (before : RunnerState) (script : TurnScript) : Turn :=
  if before.state.phase = bundle.pipeline.terminalPhase then { step := none, after := .inr .terminal }
  else if script.blocked then { step := none, after := .inr (.exit 1) }
  else
    let checked := { before with state := applyConnectivityCheck before.state script.connectivityKnown }
    let stepped := runPipelineStep bundle checked script.toStepScript
    match stepped.result with
    | .exit code => { step := some stepped, after := .inr (.exit code) }
    | .raised e => { step := some stepped, after := .inr (.raised e) }
    | .next state =>
      let (rested, recovery) := sleepOffDelay state stepped.recovery script
      let (selected, recovery) :=
        if rested.phase = before.state.phase then (rested, recovery) else reselectPreferredAgent rested recovery
      { step := some stepped,
        after := .inl { state := selected, recovery := recovery, lastSample := stepped.lastSample } }

/-- The steps of a run, in order, for as long as the scripts last or until the run ends. -/
def runTrace (bundle : PolicyBundle) : RunnerState → List TurnScript → List Stepped
  | _, [] => []
  | before, script :: scripts =>
    let turn := runTurn bundle before script
    match turn.after with
    | .inl after => turn.step.toList ++ runTrace bundle after scripts
    | .inr _ => turn.step.toList

end RalphWorkflow.Pipeline
