import RalphWorkflow.Lib.Except
import RalphWorkflow.Lib.Text
import RalphWorkflow.Lib.Worklist
import RalphWorkflow.Policy.Model

/-! The `mode="after"` validators of `ralph/policy/models/_pipeline_policy.py`, in the order pydantic runs them; the
first that raises rejects the document. `Accepted` is what every loaded policy satisfies. -/
namespace RalphWorkflow.Policy
open Lib Lib.Text Lib.Worklist

namespace PipelinePolicy

/-! ## References between phases -/

def allTransitionsReferenceKnownPhases (policy : PipelinePolicy) : Except String Unit :=
  policy.phases.entries.forM fun (phaseName, phaseDef) =>
    let t := phaseDef.transitions
    [("on_success", some t.onSuccess), ("on_failure", t.onFailure), ("on_loopback", t.onLoopback)].forM
      fun (label, target?) =>
        match target? with
        | none => .ok ()
        | some target =>
          require (policy.known target)
            s!"Phase '{phaseName}' transitions.{label} references unknown phase '{target}'"

def entryPhaseExists (policy : PipelinePolicy) : Except String Unit :=
  require (policy.hasPhase policy.entryPhase) s!"entry_phase '{policy.entryPhase}' is not defined in phases"

def noPhaseCyclesWithoutLoopback (policy : PipelinePolicy) : Except String Unit :=
  policy.phases.entries.forM fun (name, phaseDef) =>
    let t := phaseDef.transitions
    require (name ∈ policy.terminalStates || !(t.onSuccess == name && t.onLoopback == none))
      (s!"Phase '{name}' transitions.on_success to itself with no " ++
        "on_loopback — this creates an infinite loop with no escape")

def postCommitRoutesReferenceKnownTargets (policy : PipelinePolicy) : Except String Unit :=
  policy.postCommitRoutes.forM fun route =>
    require (policy.known route.target) s!"post_commit_routes target '{route.target}' is not a known phase"

def uniqueConditionsFrom (seen : List PostCommitRouteWhen) : List PostCommitRoute → Except String Unit
  | [] => .ok ()
  | route :: rest =>
    if route.when ∈ seen then
      .error ("Duplicate post_commit_routes condition for " ++
        s!"phase='{route.when.phase}', budget_state='{route.when.budgetState.name}'")
    else uniqueConditionsFrom (route.when :: seen) rest

def postCommitRoutesUniqueConditions (policy : PipelinePolicy) : Except String Unit :=
  uniqueConditionsFrom [] policy.postCommitRoutes

def parallelizationTargetsNonTerminalPhases (policy : PipelinePolicy) : Except String Unit :=
  policy.phases.entries.forM fun (phaseName, phaseDef) =>
    require (!(phaseDef.parallelization.isSome && phaseDef.role == some .terminal))
      s!"Phase '{phaseName}' declares parallelization but has terminal role"

def decisionRoutesTargetKnownPhases (policy : PipelinePolicy) : Except String Unit :=
  policy.phases.entries.forM fun (phaseName, phaseDef) =>
    phaseDef.decisions.entries.forM fun (decisionName, route) =>
      require (policy.known route.target)
        s!"Phase '{phaseName}' decisions['{decisionName}'] targets unknown phase '{route.target}'"

/-- One check for every named route of a phase; `field` is the section that declares them. -/
def namedRoutesTargetKnownPhases (policy : PipelinePolicy) (field : String) (routes : PhaseDefinition → Dict String String) : Except String Unit :=
  policy.phases.entries.forM fun (phaseName, phaseDef) =>
    (routes phaseDef).entries.forM fun (key, target) =>
      require (policy.known target) s!"Phase '{phaseName}' {field}['{key}'] targets unknown phase '{target}'"

def bypassRoutesTargetKnownPhases (policy : PipelinePolicy) : Except String Unit :=
  policy.namedRoutesTargetKnownPhases "bypass_routes" PhaseDefinition.bypassRoutes

def resultStatusPostCommitTargetsKnownPhases (policy : PipelinePolicy) : Except String Unit :=
  policy.namedRoutesTargetKnownPhases "result_status_post_commit" PhaseDefinition.resultStatusPostCommit

def loopCounterReferencesValid (policy : PipelinePolicy) : Except String Unit :=
  if policy.loopCounters.entries.isEmpty then .ok ()
  else policy.phases.entries.forM fun (phaseName, phaseDef) =>
    match phaseDef.loopPolicy with
    | none => .ok ()
    | some loopPolicy =>
      let field := loopPolicy.iterationStateField
      require (policy.loopCounters.contains field)
        (s!"phases.{phaseName}.loop_policy.iteration_state_field: " ++
          s!"'{field}' is not declared in loop_counters. " ++
          s!"Declared counters: {pyReprList (sortedText policy.loopCounters.keys)}. " ++
          s!"Add [loop_counters.{field}] to pipeline.toml.")

def budgetCounterReferencesValid (policy : PipelinePolicy) : Except String Unit :=
  if policy.budgetCounters.entries.isEmpty then .ok ()
  else policy.phases.entries.forM fun (phaseName, phaseDef) =>
    match phaseDef.commitPolicy.bind PhaseCommitPolicy.incrementsCounter with
    | none => .ok ()
    | some counter =>
      require (policy.budgetCounters.contains counter)
        (s!"phases.{phaseName}.commit_policy.increments_counter: " ++
          s!"'{counter}' is not declared in budget_counters. " ++
          s!"Declared counters: {pyReprList (sortedText policy.budgetCounters.keys)}. " ++
          s!"Add [budget_counters.{counter}] to pipeline.toml.")

def workflowFallbackTargetsValid (policy : PipelinePolicy) : Except String Unit :=
  policy.phases.entries.forM fun (phaseName, phaseDef) =>
    match phaseDef.workflowFallback with
    | none => .ok ()
    | some fallback =>
      require (policy.known fallback.target)
        (s!"Phase '{phaseName}' workflow_fallback.target " ++
          s!"'{fallback.target}' is not a known phase or terminal")

def terminalFailurePhaseValid (policy : PipelinePolicy) : Except String Unit :=
  match policy.recovery.terminalFailurePhase with
  | none => .ok ()
  | some tfp =>
    match policy.phases.get? tfp with
    | none =>
      .error (s!"recovery.terminal_failure_phase: '{tfp}' is not a known phase. " ++
        s!"Declared phases: {pyReprList (sortedText policy.phases.keys)}")
    | some phaseDef =>
      require (phaseDef.role == some .terminal && phaseDef.terminalOutcome == some .failure)
        (s!"recovery.terminal_failure_phase: '{tfp}' must have " ++
          "role='terminal' and terminal_outcome='failure'")

/-! ## Cycle outcomes and their routes -/

def recordableCycleOutcomes (policy : PipelinePolicy) : List CycleOutcome :=
  (policy.cycleTimebox.map CycleTimeboxPolicy.finalizationCycleOutcome).toList ++
    policy.phases.values.flatMap fun phaseDef =>
      phaseDef.decisions.values.filterMap fun route =>
        if route.target ∈ policy.terminalStates then none else route.cycleOutcome

def recordableCycleOutcomesAreRoutable (policy : PipelinePolicy) : Except String Unit :=
  (sortedText (policy.postCommitRoutes.map fun route => route.when.phase).dedup).forM fun phaseName =>
    match policy.phases.get? phaseName with
    | none => .ok ()
    | some phaseDef =>
      let routes := policy.postCommitRoutes.filter fun route => route.when.phase == phaseName
      -- `sorted` puts both enumerations in the order of their names
      ([CycleOutcome.completed, .failed].filter (· ∈ policy.recordableCycleOutcomes)).forM fun outcome =>
        ([BudgetLabel.exhausted, .noReview, .remaining].filter (· ∈ routes.map fun route => route.when.budgetState)).forM fun budgetState =>
          require
            (routes.any fun route =>
              route.when.budgetState == budgetState &&
                (route.when.cycleOutcome == none || route.when.cycleOutcome == some outcome))
            (s!"post_commit_routes for commit phase '{phaseName}' do not cover " ++
              s!"budget_state='{budgetState.name}' with cycle outcome '{outcome.name}', which " ++
              "this workflow can record. That combination would fall through to " ++
              s!"'{phaseDef.transitions.onSuccess}' instead of routing by budget. " ++
              "Add a [[post_commit_routes]] entry for it, or omit when.cycle_outcome " ++
              "on an existing entry so it matches every outcome.")

/-! ## The cycle timebox -/

def cycleTimeboxReferencesKnownPhases (policy : PipelinePolicy) : Except String Unit :=
  match policy.cycleTimebox with
  | none => .ok ()
  | some ct =>
    [("start_source", ct.startSource), ("start_entry", ct.startEntry), ("guarded_entry", ct.guardedEntry),
      ("end_entry", ct.endEntry), ("finalization_target", ct.finalizationTarget)].forM fun (label, target) =>
      require (policy.known target)
        (s!"cycle_timebox.{label} references unknown phase or terminal " ++
          s!"'{target}'. Update the reference to a declared phase, or remove " ++
          "the [cycle_timebox] section to disable the timebox.")

/-- The edges the load-time walk follows: the success transition and the decision targets. -/
def forwardTargets (phaseDef : PhaseDefinition) : List String :=
  phaseDef.transitions.onSuccess :: phaseDef.decisions.values.map PhaseDecisionRoute.target

def forwardAvoiding (policy : PipelinePolicy) (avoid : List String) (phase : String) : Option (List String) :=
  if phase ∈ avoid then none else (policy.phases.get? phase).map forwardTargets

/-- The loop of `_reachable_avoiding`; `first` is still set while no phase has been popped. -/
def reachableAvoidingLoop (policy : PipelinePolicy) (avoid : List String) (excludeStart : Bool) :
    Nat → List String → List String → Bool → List String
  | 0, _, seen, _ => seen
  | _ + 1, [], seen, _ => seen
  | fuel + 1, phase :: rest, seen, first =>
    match policy.forwardAvoiding avoid phase with
    | none => policy.reachableAvoidingLoop avoid excludeStart fuel rest seen false
    | some targets =>
      if phase ∈ seen then policy.reachableAvoidingLoop avoid excludeStart fuel rest seen first
      else
        policy.reachableAvoidingLoop avoid excludeStart fuel (targets.reverse ++ rest)
          (if first && excludeStart then seen else phase :: seen) false

/-- Phases reachable by forward edges, never entering `avoid`; a start left out may be expanded twice. -/
def reachableAvoiding (policy : PipelinePolicy) (starts avoid : List String) (excludeStart : Bool) : List String :=
  let expand := policy.forwardAvoiding avoid
  policy.reachableAvoidingLoop avoid excludeStart
    (walkFuel expand policy.phases.keys starts + unseenPushes expand [] policy.phases.keys) starts.reverse [] true

/-- Phases reachable from the cycle's entries that can route back to the guarded one. -/
def phasesInsideCycle (policy : PipelinePolicy) (ct : CycleTimeboxPolicy) : List String :=
  let preCycle := [policy.entryPhase, ct.startSource]
  (policy.reachableAvoiding [ct.startEntry, ct.guardedEntry] preCycle false).filter fun phase =>
    ct.guardedEntry ∈ policy.reachableAvoiding [phase] preCycle true

def cycleTimeboxEndsOutsideTheCycle (policy : PipelinePolicy) : Except String Unit :=
  match policy.cycleTimebox with
  | none => .ok ()
  | some ct =>
    let inside := policy.phasesInsideCycle ct
    [("end_entry", ct.endEntry), ("finalization_target", ct.finalizationTarget)].forM fun (label, target) =>
      require (target ∉ inside)
        (s!"cycle_timebox.{label} '{target}' is a phase the cycle routes through, so " ++
          "entering it would stop the clock mid-cycle and the deadline could never " ++
          "re-arm. Name a phase on the finalization path instead.")

def phaseDeclaresEdge (policy : PipelinePolicy) (source target : String) : Bool :=
  (match policy.phases.get? source with
    | none => false
    | some phaseDef =>
      let t := phaseDef.transitions
      some target ∈ [some t.onSuccess, t.onFailure, t.onLoopback] ||
        phaseDef.decisions.values.any (·.target == target) ||
        phaseDef.bypassRoutes.values.any (· == target) ||
        phaseDef.resultStatusPostCommit.values.any (· == target)) ||
    policy.postCommitRoutes.any fun route => route.when.phase == source && route.target == target

def cycleTimeboxStartEdgeDeclared (policy : PipelinePolicy) : Except String Unit :=
  match policy.cycleTimebox with
  | none => .ok ()
  | some ct =>
    require (policy.phaseDeclaresEdge ct.startSource ct.startEntry)
      ("cycle_timebox.start_source -> start_entry edge " ++
        s!"'{ct.startSource}' -> '{ct.startEntry}' is not a declared " ++
        "transition in the graph. The timer starts only on this exact " ++
        "transition, so it must be reachable via a transition, decision, " ++
        "bypass route, result-status post-commit route, or post-commit " ++
        s!"route of '{ct.startSource}'. Update start_source/start_entry " ++
        "to a declared edge, or remove the [cycle_timebox] section.")

/-! ## Acceptance -/

def modelValidators : List (PipelinePolicy → Except String Unit) :=
  [allTransitionsReferenceKnownPhases, entryPhaseExists, noPhaseCyclesWithoutLoopback,
    postCommitRoutesReferenceKnownTargets, postCommitRoutesUniqueConditions,
    parallelizationTargetsNonTerminalPhases, decisionRoutesTargetKnownPhases, bypassRoutesTargetKnownPhases,
    resultStatusPostCommitTargetsKnownPhases, loopCounterReferencesValid, budgetCounterReferencesValid,
    workflowFallbackTargetsValid, terminalFailurePhaseValid, cycleTimeboxReferencesKnownPhases,
    recordableCycleOutcomesAreRoutable, cycleTimeboxEndsOutsideTheCycle, cycleTimeboxStartEdgeDeclared]

def validate (policy : PipelinePolicy) : Except String Unit := modelValidators.forM fun validator => validator policy

def Accepted (policy : PipelinePolicy) : Prop := policy.validate = .ok ()

instance (policy : PipelinePolicy) : Decidable policy.Accepted :=
  decidable_of_iff (policy.validate.isOk = true) <| by
    unfold Accepted
    cases policy.validate <;> simp [Except.isOk, Except.toBool]

theorem Accepted.passes {policy : PipelinePolicy} (h : policy.Accepted)
    (validator : PipelinePolicy → Except String Unit) (hmem : validator ∈ modelValidators) :
    validator policy = .ok () :=
  (forM_eq_ok_iff modelValidators fun v => v policy).mp h validator hmem

end PipelinePolicy

end RalphWorkflow.Policy
