import RalphWorkflow.Pipeline.CycleTiming

/-! `determine_effect_from_policy` of `ralph/pipeline/effect_router.py`: the effect that a state asks for. What the
router reads from the workspace comes in as a `RouterEnv`. Prompt files, message files and log lines are left out. -/
namespace RalphWorkflow.Pipeline
open Lib Lib.Text Policy

structure ConfigAgents where
  agentDrains : Dict String String := ∅
  agentChains : Dict String (List String) := ∅

/-- What the router reads besides. -/
structure RouterEnv where
  config : Option ConfigAgents := none
  hasUncommittedChanges : Option Bool := some true
  planWorkUnits : List WorkUnit := []
  preflight : List WorkUnit → Option String := fun _ => none

/-! ## Agents -/

def configDrainCandidates (phase : String) (policyDrain : Option String) : List String :=
  ([policyDrain, some phase].filterMap id |>.filter (· ≠ "")).dedup

def configAgentsForDrain (config : ConfigAgents) (drainName : String) : Option (List String) :=
  match (config.agentDrains.get? drainName).bind config.agentChains.get? with
  | some agents => some agents
  | none => config.agentChains.get? drainName

def configAgentsForPhase (config : Option ConfigAgents) (phase : String) (policyDrain : Option String) : List String :=
  match config with
  | none => []
  | some config => ((configDrainCandidates phase policyDrain).findSome? (configAgentsForDrain config)).getD []

def agentNameForPhaseFromPolicy (state : PipelineState) (bundle : PolicyBundle) (config : Option ConfigAgents) : Option String :=
  match state.currentAgent with
  | some agent => some agent
  | none =>
    (bundle.pipeline.phases.get? state.phase).bind fun phaseDef =>
      match configAgentsForPhase config state.phase (some phaseDef.drain) with
      | agent :: _ => some agent
      | [] =>
        ((bundle.agents.agentDrains.get? phaseDef.drain).bind fun drain =>
          bundle.agents.agentChains.get? drain.chain).bind fun chain => chain.agents.head?

/-! ## Effects -/

/-- The failure phase is left again: the router prepares the phase the run came from. -/
def recoveryPrepareEffect (state : PipelineState) (policy : PipelinePolicy) : Effect :=
  let requested := match state.previousPhase with
    | some phase => if phase = "" then state.policyEntryPhase else phase
    | none => state.policyEntryPhase
  let targetPhase := if requested = policy.recovery.failedRoute then state.policyEntryPhase else requested
  .preparePrompt targetPhase (resolvePhaseDrain targetPhase policy) state.previousPhase false

def terminalPhaseEffect (state : PipelineState) (policy : PipelinePolicy) : Option Effect :=
  if state.phase = policy.terminalPhase then some .exitSuccess
  else if state.phase = policy.recovery.failedRoute then some (recoveryPrepareEffect state policy)
  else none

def currentAnalysisPhaseAdvanceEffect (state : PipelineState) (phaseDef : PhaseDefinition)
    (policy : PipelinePolicy) : Except PyError (Option Effect) :=
  if phaseDef.role ≠ some .analysis then .ok none
  else do
    let bypass ← resolveExhaustedAnalysisBypass state state.phase policy
    .ok (if bypass.skipped.isEmpty then none else some (.exhaustedAnalysisPhaseAdvance state.phase))

def skipInvocationEffect (state : PipelineState) (phaseDef : PhaseDefinition) (policy : PipelinePolicy) : Effect :=
  let onSuccess := phaseDef.transitions.onSuccess
  if onSuccess = policy.terminalPhase then .exitSuccess
  else .preparePrompt onSuccess none (some state.phase) true

def shouldEarlySkipCommit (env : RouterEnv) : Bool := env.hasUncommittedChanges == some false

def invokeOrFail (state : PipelineState) (phaseDef : PhaseDefinition) (bundle : PolicyBundle) (env : RouterEnv)
    (reason : String) : Except PyError Effect :=
  match agentNameForPhaseFromPolicy state bundle env.config with
  | none => exitFailureEffect reason
  | some agentName => .ok (.invokeAgent agentName state.phase (some phaseDef.drain))

def commitPhaseEffect (state : PipelineState) (phaseDef : PhaseDefinition) (bundle : PolicyBundle) (env : RouterEnv) : Except PyError Effect :=
  if state.commit.agentInvoked then .ok .commit
  else if shouldEarlySkipCommit env then .ok .earlySkipCommit
  else invokeOrFail state phaseDef bundle env s!"No agent configured for commit phase '{state.phase}'"

def fanOutEffect (state : PipelineState) (phaseDef : PhaseDefinition) (workUnits : List WorkUnit) (env : RouterEnv) : Except PyError Effect :=
  match phaseDef.parallelization with
  | none => exitFailureEffect
      (s!"Phase {pyRepr state.phase} does not declare parallelization but the plan " ++
        s!"declares {workUnits.length} work_units; either declare " ++
        s!"[phases.{state.phase}.parallelization] or remove the work_units from the plan")
  | some parallel =>
    match env.preflight workUnits with
    | some text =>
      let offending := String.intercalate ", "
        ((workUnits.filter fun unit => unit.allowedDirectories.isEmpty).map WorkUnit.unitId)
      exitFailureEffect (s!"parallel preflight rejected plan: {text} (offending units: " ++
        (if offending = "" then "(see details)" else offending) ++ ")")
    | none =>
      .ok (.fanOut workUnits parallel.maxParallelWorkers parallel.postFanoutVerification state.phase)

def minWorkUnitsForParallelization : Nat := 2

/-- A plan of several units fans out, unless the agent is to dispatch its own sub-agents. -/
def parallelOrAgentEffect (state : PipelineState) (phaseDef : PhaseDefinition) (bundle : PolicyBundle) (env : RouterEnv) : Except PyError Effect :=
  let workUnits :=
    if state.workUnits.isEmpty && phaseDef.parallelization.isSome then env.planWorkUnits else state.workUnits
  let dormant := phaseDef.parallelization.map PhaseParallelization.dispatchMode == some .agentSubagents
  if minWorkUnitsForParallelization ≤ workUnits.length ∧ dormant = false then
    fanOutEffect state phaseDef workUnits env
  else invokeOrFail state phaseDef bundle env s!"No agent configured for phase '{state.phase}'"

def determineEffectFromPolicy (state : PipelineState) (bundle : PolicyBundle) (env : RouterEnv) : Except PyError Effect :=
  match terminalPhaseEffect state bundle.pipeline with
  | some effect => .ok effect
  | none =>
    match bundle.pipeline.phases.get? state.phase with
    | none => exitFailureEffect s!"Unknown phase: {state.phase}"
    | some phaseDef => do
      match ← currentAnalysisPhaseAdvanceEffect state phaseDef bundle.pipeline with
      | some effect => .ok effect
      | none =>
        if phaseDef.skipInvocation then .ok (skipInvocationEffect state phaseDef bundle.pipeline)
        else if phaseDef.role = some .commit then commitPhaseEffect state phaseDef bundle env
        else parallelOrAgentEffect state phaseDef bundle env

theorem recoveryPrepareEffect_eq (state : PipelineState) (policy : PipelinePolicy) : ∃ target, recoveryPrepareEffect state policy =
        .preparePrompt target (resolvePhaseDrain target policy) state.previousPhase false ∧
      (target = state.policyEntryPhase ∨ state.previousPhase = some target) := by
  refine ⟨_, rfl, ?_⟩
  cases hprevious : state.previousPhase with
  | none => simp
  | some phase =>
    by_cases hempty : phase = ""
    · simp [hempty]
    · simp only [if_neg hempty]
      split
      · exact .inl rfl
      · exact .inr rfl

/-! ## What the router chooses -/

inductive Chosen (state : PipelineState) (bundle : PolicyBundle) (env : RouterEnv) : Effect → Prop
  | finished (terminal : state.phase = bundle.pipeline.terminalPhase) : Chosen state bundle env .exitSuccess
  | recovery (unfinished : state.phase ≠ bundle.pipeline.terminalPhase)
      (failed : state.phase = bundle.pipeline.recovery.failedRoute) :
      Chosen state bundle env (recoveryPrepareEffect state bundle.pipeline)
  | unknown {effect : Effect} (undeclared : bundle.pipeline.phases.get? state.phase = none)
      (exit : exitFailureEffect s!"Unknown phase: {state.phase}" = .ok effect) : Chosen state bundle env effect
  | spent {phaseDef : PhaseDefinition} {effect : Effect} (unfinished : state.phase ≠ bundle.pipeline.terminalPhase)
      (unfailed : state.phase ≠ bundle.pipeline.recovery.failedRoute)
      (declared : bundle.pipeline.phases.get? state.phase = some phaseDef)
      (spent : currentAnalysisPhaseAdvanceEffect state phaseDef bundle.pipeline = .ok (some effect)) :
      Chosen state bundle env effect
  | skipped {phaseDef : PhaseDefinition} (unfinished : state.phase ≠ bundle.pipeline.terminalPhase)
      (unfailed : state.phase ≠ bundle.pipeline.recovery.failedRoute)
      (declared : bundle.pipeline.phases.get? state.phase = some phaseDef)
      (unspent : currentAnalysisPhaseAdvanceEffect state phaseDef bundle.pipeline = .ok none)
      (skips : phaseDef.skipInvocation = true) :
      Chosen state bundle env (skipInvocationEffect state phaseDef bundle.pipeline)
  | commits {phaseDef : PhaseDefinition} {effect : Effect}
      (declared : bundle.pipeline.phases.get? state.phase = some phaseDef) (role : phaseDef.role = some .commit)
      (commit : commitPhaseEffect state phaseDef bundle env = .ok effect) : Chosen state bundle env effect
  | works {phaseDef : PhaseDefinition} {effect : Effect}
      (declared : bundle.pipeline.phases.get? state.phase = some phaseDef) (role : phaseDef.role ≠ some .commit)
      (unspent : currentAnalysisPhaseAdvanceEffect state phaseDef bundle.pipeline = .ok none)
      (work : parallelOrAgentEffect state phaseDef bundle env = .ok effect) : Chosen state bundle env effect

theorem determineEffectFromPolicy_eq_ok {state : PipelineState} {bundle : PolicyBundle} {env : RouterEnv}
    {effect : Effect} (h : determineEffectFromPolicy state bundle env = .ok effect) :
    Chosen state bundle env effect := by
  unfold determineEffectFromPolicy terminalPhaseEffect at h
  by_cases hterminal : state.phase = bundle.pipeline.terminalPhase
  · rw [if_pos hterminal] at h
    cases h
    exact .finished hterminal
  · rw [if_neg hterminal] at h
    by_cases hfailed : state.phase = bundle.pipeline.recovery.failedRoute
    · rw [if_pos hfailed] at h
      cases h
      exact .recovery hterminal hfailed
    · rw [if_neg hfailed] at h
      dsimp only at h
      cases hdeclared : bundle.pipeline.phases.get? state.phase with
      | none =>
        rw [hdeclared] at h
        exact .unknown hdeclared h
      | some phaseDef =>
        rw [hdeclared] at h
        obtain ⟨advance, hadvance, hrest⟩ := (bind_eq_ok_iff _ _ _).mp h
        cases advance with
        | some effect' =>
          cases hrest
          exact .spent hterminal hfailed hdeclared hadvance
        | none =>
          dsimp only at hrest
          split at hrest
          · rename_i hskips
            cases hrest
            exact .skipped hterminal hfailed hdeclared hadvance hskips
          · split at hrest
            · exact .commits hdeclared ‹_› hrest
            · exact .works hdeclared ‹_› hadvance hrest

section

variable {state : PipelineState} {phaseDef : PhaseDefinition} {bundle : PolicyBundle} {env : RouterEnv}
  {effect : Effect} {P : Effect → Prop}

theorem exitFailureEffect_elim {reason : String} (exit : ∀ reason descriptive, P (.exitFailure reason descriptive))
    (h : exitFailureEffect reason = .ok effect) : P effect := by
  unfold exitFailureEffect at h
  split at h
  · cases h
    exact exit _ _
  · split at h <;> cases h

theorem invokeOrFail_elim {reason : String} (exit : ∀ reason descriptive, P (.exitFailure reason descriptive))
    (invoke : ∀ agent, P (.invokeAgent agent state.phase (some phaseDef.drain)))
    (h : invokeOrFail state phaseDef bundle env reason = .ok effect) : P effect := by
  unfold invokeOrFail at h
  split at h
  · exact exitFailureEffect_elim exit h
  · cases h
    exact invoke _

theorem commitPhaseEffect_elim (exit : ∀ reason descriptive, P (.exitFailure reason descriptive))
    (invoke : ∀ agent, P (.invokeAgent agent state.phase (some phaseDef.drain))) (commit : P .commit)
    (skip : P .earlySkipCommit) (h : commitPhaseEffect state phaseDef bundle env = .ok effect) : P effect := by
  unfold commitPhaseEffect at h
  split at h
  · cases h
    exact commit
  · split at h
    · cases h
      exact skip
    · exact invokeOrFail_elim exit invoke h

theorem fanOutEffect_elim {workUnits : List WorkUnit} (exit : ∀ reason descriptive, P (.exitFailure reason descriptive))
    (fanOut : ∀ workUnits maxWorkers verify, P (.fanOut workUnits maxWorkers verify state.phase))
    (h : fanOutEffect state phaseDef workUnits env = .ok effect) : P effect := by
  unfold fanOutEffect at h
  split at h
  · exact exitFailureEffect_elim exit h
  · split at h
    · exact exitFailureEffect_elim exit h
    · cases h
      exact fanOut _ _ _

theorem parallelOrAgentEffect_elim (exit : ∀ reason descriptive, P (.exitFailure reason descriptive))
    (invoke : ∀ agent, P (.invokeAgent agent state.phase (some phaseDef.drain)))
    (fanOut : ∀ workUnits maxWorkers verify, P (.fanOut workUnits maxWorkers verify state.phase))
    (h : parallelOrAgentEffect state phaseDef bundle env = .ok effect) : P effect := by
  unfold parallelOrAgentEffect at h
  dsimp only at h
  generalize (if state.workUnits.isEmpty && phaseDef.parallelization.isSome then env.planWorkUnits
    else state.workUnits) = workUnits at h
  split at h
  · exact fanOutEffect_elim exit fanOut h
  · exact invokeOrFail_elim exit invoke h

theorem currentAnalysisPhaseAdvanceEffect_eq_some {policy : PipelinePolicy}
    (h : currentAnalysisPhaseAdvanceEffect state phaseDef policy = .ok (some effect)) :
    effect = .exhaustedAnalysisPhaseAdvance state.phase := by
  unfold currentAnalysisPhaseAdvanceEffect at h
  split at h
  · cases h
  · obtain ⟨bypass, _, hresult⟩ := (bind_eq_ok_iff _ _ _).mp h
    split at hresult
    · cases hresult
    · cases hresult
      rfl

theorem preparePrompt_chosen {phase : String} {drain previous : Option String} {skip : Bool}
    (h : determineEffectFromPolicy state bundle env = .ok (.preparePrompt phase drain previous skip)) :
    (state.phase = bundle.pipeline.recovery.failedRoute ∧
      Effect.preparePrompt phase drain previous skip = recoveryPrepareEffect state bundle.pipeline) ∨
    (state.phase ≠ bundle.pipeline.recovery.failedRoute ∧ ∃ phaseDef,
      bundle.pipeline.phases.get? state.phase = some phaseDef ∧ phaseDef.skipInvocation = true ∧
        phaseDef.transitions.onSuccess = phase) := by
  generalize heffect : Effect.preparePrompt phase drain previous skip = effect at h
  cases determineEffectFromPolicy_eq_ok h with
  | finished => cases heffect
  | recovery unfinished failed => exact .inl ⟨failed, rfl⟩
  | unknown undeclared exit =>
    exact (exitFailureEffect_elim (P := fun effect => effect ≠ .preparePrompt phase drain previous skip)
      (fun _ _ h => by cases h) exit heffect.symm).elim
  | spent _ _ _ spent =>
    rw [currentAnalysisPhaseAdvanceEffect_eq_some spent] at heffect
    cases heffect
  | @skipped phaseDef _ unfailed declared _ skips =>
    unfold skipInvocationEffect at heffect
    dsimp only at heffect
    split at heffect
    · cases heffect
    · cases heffect
      exact .inr ⟨unfailed, phaseDef, declared, skips, rfl⟩
  | commits _ _ commit =>
    exact (commitPhaseEffect_elim (P := fun effect => effect ≠ .preparePrompt phase drain previous skip)
      (fun _ _ h => by cases h) (fun _ h => by cases h) (fun h => by cases h) (fun h => by cases h) commit
      heffect.symm).elim
  | works _ _ _ work =>
    exact (parallelOrAgentEffect_elim (P := fun effect => effect ≠ .preparePrompt phase drain previous skip)
      (fun _ _ h => by cases h) (fun _ h => by cases h) (fun _ _ _ h => by cases h) work heffect.symm).elim

theorem commit_chosen (h : determineEffectFromPolicy state bundle env = .ok .commit) :
    (∃ phaseDef, bundle.pipeline.phases.get? state.phase = some phaseDef ∧ phaseDef.role = some .commit) ∧
      state.commit.agentInvoked = true := by
  generalize heffect : Effect.commit = effect at h
  cases determineEffectFromPolicy_eq_ok h with
  | finished => cases heffect
  | recovery unfinished failed => cases heffect
  | unknown undeclared exit =>
    exact (exitFailureEffect_elim (P := fun effect => effect ≠ .commit) (fun _ _ h => by cases h) exit
      heffect.symm).elim
  | spent _ _ _ spent =>
    rw [currentAnalysisPhaseAdvanceEffect_eq_some spent] at heffect
    cases heffect
  | skipped =>
    unfold skipInvocationEffect at heffect
    dsimp only at heffect
    split at heffect <;> cases heffect
  | @commits phaseDef _ declared role commit =>
    refine ⟨⟨phaseDef, declared, role⟩, ?_⟩
    by_contra hinvoked
    unfold commitPhaseEffect at commit
    rw [if_neg hinvoked] at commit
    split at commit
    · cases commit
      cases heffect
    · exact (invokeOrFail_elim (P := fun effect => effect ≠ .commit) (fun _ _ h => by cases h) (fun _ h => by cases h)
        commit heffect.symm).elim
  | works _ _ _ work =>
    exact (parallelOrAgentEffect_elim (P := fun effect => effect ≠ .commit) (fun _ _ h => by cases h)
      (fun _ h => by cases h) (fun _ _ _ h => by cases h) work heffect.symm).elim

theorem skipInvocation_chosen (hphase : state.phase ≠ bundle.pipeline.terminalPhase) (hfailed : state.phase ≠ bundle.pipeline.recovery.failedRoute)
    (hdeclared : bundle.pipeline.phases.get? state.phase = some phaseDef) (hskips : phaseDef.skipInvocation = true)
    (h : determineEffectFromPolicy state bundle env = .ok effect) :
    effect = .exhaustedAnalysisPhaseAdvance state.phase ∨
      effect = skipInvocationEffect state phaseDef bundle.pipeline := by
  unfold determineEffectFromPolicy terminalPhaseEffect at h
  rw [if_neg hphase, if_neg hfailed, hdeclared] at h
  obtain ⟨advance, hadvance, hrest⟩ := (bind_eq_ok_iff _ _ _).mp h
  cases advance with
  | some effect' =>
    cases hrest
    exact .inl (currentAnalysisPhaseAdvanceEffect_eq_some hadvance)
  | none =>
    dsimp only at hrest
    rw [if_pos hskips] at hrest
    cases hrest
    exact .inr rfl

end

end RalphWorkflow.Pipeline
