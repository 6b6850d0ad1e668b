import RalphWorkflow.Pipeline.EffectRouter
import RalphWorkflow.Proof.Movement
import RalphWorkflow.Proof.PostCommitRouting

/-! The gate charges a pass to the loop counter when it admits it, before the pass is run; the router takes a full
counter for passes already run. The two accountings meet at the last pass a cap permits: it is admitted, charged,
and passed over. -/
namespace RalphWorkflow.InvocationGate
open Lib Policy Policy.PipelinePolicy Recovery
open Pipeline Pipeline.Reducer Frame Movement

structure GatedAnalysis (policy : PipelinePolicy) (phase : String) (phaseDef : PhaseDefinition)
    (gate : PhaseInvocationGate) (field : String) (cap : Nat) : Prop where
  declared : policy.phases.get? phase = some phaseDef
  role : phaseDef.role = some .analysis
  gated : phaseDef.invocationGate = some gate
  looped : phaseDef.loopPolicy.map PhaseLoopPolicy.iterationStateField = some field
  capped : resolveAnalysisCap field policy = .ok cap
  positive : 1 ≤ cap

section

variable {policy : PipelinePolicy} {phase : String} {phaseDef : PhaseDefinition} {gate : PhaseInvocationGate}
  {field : String} {cap : Nat}

theorem GatedAnalysis.loopPolicy (hgated : GatedAnalysis policy phase phaseDef gate field cap) :
    ∃ loopPolicy, (policy.phases.get? phase).bind PhaseDefinition.loopPolicy = some loopPolicy ∧
      loopPolicy.iterationStateField = field := by
  obtain ⟨loopPolicy, hloop, hfield⟩ := Option.map_eq_some_iff.mp hgated.looped
  refine ⟨loopPolicy, ?_, hfield⟩
  rw [hgated.declared]
  exact hloop

/-! ## The bypass of an accepted policy -/

theorem cap_declared (haccepted : policy.Accepted) (hcap : resolveAnalysisCap field policy = .ok cap)
    {other : String} {loopPolicy : PhaseLoopPolicy}
    (hloop : (policy.phases.get? other).bind PhaseDefinition.loopPolicy = some loopPolicy) :
    ∃ otherCap, resolveAnalysisCap loopPolicy.iterationStateField policy = .ok otherCap := by
  obtain ⟨otherDef, hdeclared, hloop⟩ := Option.bind_eq_some_iff.mp hloop
  have hpass := haccepted.passes loopCounterReferencesValid (by simp [modelValidators])
  unfold loopCounterReferencesValid at hpass
  rw [if_neg] at hpass
  · have hentry := (forM_eq_ok_iff _ _).mp hpass _ ((Dict.get?_eq_some_iff _ _ _).mp hdeclared)
    dsimp only at hentry
    rw [hloop] at hentry
    obtain ⟨counter, hcounter⟩ := (Dict.contains_iff _ _).mp ((require_eq_ok_iff _ _).mp hentry)
    refine ⟨counter.defaultMax, ?_⟩
    unfold resolveAnalysisCap
    rw [hcounter]
  · intro hempty
    unfold resolveAnalysisCap at hcap
    split at hcap
    · rename_i counter hcounter
      have hmem := (Dict.get?_eq_some_iff _ _ _).mp hcounter
      rw [List.isEmpty_iff.mp hempty] at hmem
      cases hmem
    · cases hcap

theorem bypassFrom_total (haccepted : policy.Accepted) (hcap : resolveAnalysisCap field policy = .ok cap)
    (fuel : Nat) (s : PipelineState) (target : String) (skipped : List ExhaustedAnalysisSkip) (visited : List String) :
    ∃ bypass, exhaustedAnalysisBypassFrom policy fuel s target skipped visited = .ok bypass ∧
      skipped.length ≤ bypass.skipped.length := by
  induction fuel generalizing s target skipped visited with
  | zero => exact ⟨_, rfl, le_refl _⟩
  | succ fuel ih =>
    by_cases hvisited : target ∈ visited
    · refine ⟨⟨s, target, skipped⟩, ?_, le_refl _⟩
      rw [exhaustedAnalysisBypassFrom, if_pos hvisited]
    · cases hloop : (policy.phases.get? target).bind PhaseDefinition.loopPolicy with
      | none => exact ⟨_, exhaustedAnalysisBypassFrom_stop hvisited (skipIfExhausted_none hloop s) fuel skipped, le_refl _⟩
      | some loopPolicy =>
        obtain ⟨otherCap, hother⟩ := cap_declared haccepted hcap hloop
        by_cases hspent : (otherCap : Int) ≤ s.getLoopIteration loopPolicy.iterationStateField
        · obtain ⟨targetDef, hdeclared, _⟩ := Option.bind_eq_some_iff.mp hloop
          have hnext := PostCommitRouting.resolveNextPhase_success haccepted hdeclared
          have hskip := skipIfExhausted_spent hloop rfl hother hnext hspent
          rw [exhaustedAnalysisBypassFrom_skip hvisited hskip]
          obtain ⟨bypass, hbypass, hlength⟩ := ih _ _ (skipped ++ [_]) _
          refine ⟨bypass, hbypass, ?_⟩
          rw [List.length_append] at hlength
          omega
        · have hopen := skipIfExhausted_open hloop rfl hother (not_le.mp hspent)
          exact ⟨_, exhaustedAnalysisBypassFrom_stop hvisited hopen fuel skipped, le_refl _⟩

/-! ## The router at the gated phase -/

def PassedOver (bundle : PolicyBundle) (env : RouterEnv) (phase : String) (s : PipelineState) : Prop :=
  determineEffectFromPolicy s bundle env = .ok (.exhaustedAnalysisPhaseAdvance phase)

/-- A phase that the router neither ends nor recovers the run in. -/
def Ordinary (policy : PipelinePolicy) (phase : String) : Prop :=
  phase ≠ policy.terminalPhase ∧ phase ≠ policy.recovery.failedRoute

variable {s : PipelineState}

theorem advanceEffect_of_spent (haccepted : policy.Accepted) (hgated : GatedAnalysis policy phase phaseDef gate field cap) (hphase : s.phase = phase) (hspent : (cap : Int) ≤ s.getLoopIteration field) :
    currentAnalysisPhaseAdvanceEffect s phaseDef policy = .ok (some (.exhaustedAnalysisPhaseAdvance phase)) := by
  obtain ⟨loopPolicy, hloop, rfl⟩ := hgated.loopPolicy
  have hnext := PostCommitRouting.resolveNextPhase_success haccepted hgated.declared
  have hskip := skipIfExhausted_spent hloop rfl hgated.capped hnext hspent
  unfold currentAnalysisPhaseAdvanceEffect resolveExhaustedAnalysisBypass
  rw [if_neg (not_not.mpr hgated.role), hphase, exhaustedAnalysisBypassFrom_skip (by simp) hskip]
  obtain ⟨bypass, hbypass, hlength⟩ := bypassFrom_total haccepted hgated.capped policy.phases.keys.length
    (skipAnalysis s phase loopPolicy.iterationStateField policy) phaseDef.transitions.onSuccess ([] ++ [_]) [phase]
  rw [hbypass]
  dsimp only [bind, Except.bind]
  rw [if_neg]
  intro hnone
  rw [List.isEmpty_iff.mp hnone] at hlength
  simp at hlength

theorem advanceEffect_of_open (hgated : GatedAnalysis policy phase phaseDef gate field cap)
    (hphase : s.phase = phase) (hopen : s.getLoopIteration field < cap) :
    currentAnalysisPhaseAdvanceEffect s phaseDef policy = .ok none := by
  obtain ⟨loopPolicy, hloop, rfl⟩ := hgated.loopPolicy
  unfold currentAnalysisPhaseAdvanceEffect resolveExhaustedAnalysisBypass
  rw [if_neg (not_not.mpr hgated.role), hphase,
    exhaustedAnalysisBypassFrom_stop (by simp) (skipIfExhausted_open hloop rfl hgated.capped hopen)]
  rfl

theorem passedOver_iff {bundle : PolicyBundle} (haccepted : bundle.pipeline.Accepted)
    (hgated : GatedAnalysis bundle.pipeline phase phaseDef gate field cap) (hphase : s.phase = phase) (env : RouterEnv) :
    PassedOver bundle env phase s ↔ Ordinary bundle.pipeline phase ∧ (cap : Int) ≤ s.getLoopIteration field := by
  have hdeclared : bundle.pipeline.phases.get? s.phase = some phaseDef := by rw [hphase, hgated.declared]
  constructor
  · intro hpassed
    unfold PassedOver at hpassed
    generalize heffect : Effect.exhaustedAnalysisPhaseAdvance phase = effect at hpassed
    have hchosen := determineEffectFromPolicy_eq_ok hpassed
    cases hchosen with
    | finished terminal => cases heffect
    | recovery unfinished failed => cases heffect
    | unknown undeclared exit =>
      rw [hdeclared] at undeclared
      cases undeclared
    | spent unfinished unfailed declared spent =>
      rw [hdeclared] at declared
      cases declared
      rw [hphase] at unfinished unfailed
      refine ⟨⟨unfinished, unfailed⟩, ?_⟩
      by_contra hopen
      rw [advanceEffect_of_open hgated hphase (not_le.mp hopen)] at spent
      cases spent
    | skipped unfinished unfailed declared unspent skips =>
      unfold skipInvocationEffect at heffect
      dsimp only at heffect
      split at heffect <;> cases heffect
    | commits declared role commit =>
      rw [hdeclared] at declared
      cases declared
      rw [hgated.role] at role
      cases role
    | works declared role unspent work =>
      refine absurd heffect (parallelOrAgentEffect_elim (P := fun effect => Effect.exhaustedAnalysisPhaseAdvance phase ≠ effect)
        ?_ ?_ ?_ work)
      · intro reason descriptive h
        cases h
      · intro agent h
        cases h
      · intro workUnits maxWorkers verify h
        cases h
  · rintro ⟨⟨hunfinished, hunfailed⟩, hspent⟩
    unfold PassedOver determineEffectFromPolicy terminalPhaseEffect
    rw [hphase, if_neg hunfinished, if_neg hunfailed]
    dsimp only
    rw [hgated.declared]
    dsimp only
    rw [advanceEffect_of_spent haccepted hgated hphase hspent]
    rfl

/-! ## A pass through the gate -/

def commitEvent (skipped : Bool) : Event := .pipeline (if skipped then .commitSkipped else .commitSuccess)

def countAtGate (policy : PipelinePolicy) (field : String) (skipped : Bool) (g : PipelineState) : Int :=
  (applyCommitOutcome g g skipped policy).getLoopIteration field

/-- A commit is routed to the gated phase with a pass left, the gate admits it, and the run lands there. -/
structure AdmittedPass (policy : PipelinePolicy) (phase : String) (gate : PhaseInvocationGate) (field : String)
    (cap : Nat) (skipped : Bool) (g s : PipelineState) : Prop where
  routed : resolvePostCommitPhase (applyCommitOutcome g g skipped policy) policy = .ok phase
  room : countAtGate policy field skipped g < cap
  admitted : gateAdmits (closeCommit g (applyCommitOutcome g g skipped policy) policy) gate = true
  reduced : ∃ recovery timing effects, (reduce g (commitEvent skipped) policy recovery timing).result = .ok (s, effects)
  landed : s.phase = phase

theorem failedRecovery_phase {s' : PipelineState} {reason : String} {effects : List Effect}
    (h : enterFailedRecovery s reason policy = .ok (s', effects)) : s'.phase = policy.recovery.failedRoute := by
  unfold enterFailedRecovery at h
  obtain ⟨charged, hcharge, hresult⟩ := (bind_eq_ok_iff _ _ _).mp h
  cases hresult
  exact (chargeExecutionCycle_books hcharge).phase

theorem throughGate_charges {g : PipelineState} {timing : Option RoutingTiming} {effects : List Effect}
    (hgated : GatedAnalysis policy phase phaseDef gate field cap) (hroom : g.getLoopIteration field < cap)
    (hadmits : gateAdmits g gate = true) (hlanded : s.phase = phase)
    (h : advanceThroughInvocationGate g phase policy timing = .ok (s, effects)) :
    ∃ landed, landed.getLoopIteration field = g.getLoopIteration field ∧
      chargeAnalysisCycleForGate landed gate.upstreamExecutionPhase policy = .ok s := by
  have hgate : applyInvocationGate g phase policy = (phase, g, some gate.upstreamExecutionPhase) := by
    unfold applyInvocationGate
    rw [hgated.declared]
    dsimp only
    rw [hgated.gated]
    dsimp only
    rw [hadmits, if_pos rfl]
  unfold advanceThroughInvocationGate at h
  rw [hgate] at h
  dsimp only at h
  rw [bind_eq_ok_iff] at h
  obtain ⟨⟨landed, effects'⟩, hadvance, hrest⟩ := h
  have hcount := advance_count hgated.capped (s := { g with lastExecutionResultStatus := none }) hroom hadvance
  dsimp only at hrest
  split at hrest
  · rw [bind_eq_ok_iff] at hrest
    obtain ⟨charged, hcharge, hresult⟩ := hrest
    cases hresult
    exact ⟨landed, hcount, hcharge⟩
  · cases hrest
    exact absurd hlanded ‹_›

variable (policy) in
theorem closeCommit_loops (g progressState : PipelineState) :
    (closeCommit g progressState policy).loopIterations = progressState.loopIterations := by
  unfold closeCommit consumePostCommitPhaseOverride
  dsimp only
  split <;> rfl

theorem AdmittedPass.charges {skipped : Bool} {g : PipelineState}
    (hgated : GatedAnalysis policy phase phaseDef gate field cap) (hunfailed : phase ≠ policy.recovery.failedRoute)
    (h : AdmittedPass policy phase gate field cap skipped g s) :
    ∃ landed charged, landed.getLoopIteration field = countAtGate policy field skipped g ∧
      chargeAnalysisCycleForGate landed gate.upstreamExecutionPhase policy = .ok charged ∧ s = g.restoreWorkUnits charged := by
  obtain ⟨recovery, timing, effects, hreduce⟩ := h.reduced
  have hrestoring : ∃ label, (reduce g (commitEvent skipped) policy recovery timing).result =
      restoring g (handleCommitOutcome skipped label g policy timing) := by
    cases skipped
    · exact ⟨_, rfl⟩
    · exact ⟨_, rfl⟩
  obtain ⟨label, hrestoring⟩ := hrestoring
  rw [hrestoring] at hreduce
  obtain ⟨⟨s₁, effects₁⟩, hhandled, hresult⟩ := (bind_eq_ok_iff _ _ _).mp hreduce
  cases hresult
  have hlanded : s₁.phase = phase := by
    rw [← (restoreWorkUnits_books g s₁).phase]
    exact h.landed
  unfold handleCommitOutcome catchValueError at hhandled
  split at hhandled
  · exact absurd (hlanded.symm.trans (failedRecovery_phase hhandled)) hunfailed
  · obtain ⟨next, hnext, hgate⟩ := (bind_eq_ok_iff _ _ _).mp hhandled
    rw [h.routed] at hnext
    cases hnext
    have hcount := getLoopIteration_congr (closeCommit_loops policy g (applyCommitOutcome g g skipped policy)).symm
      field
    obtain ⟨landed, hkept, hcharge⟩ := throughGate_charges hgated (by rw [hcount]; exact h.room) h.admitted hlanded hgate
    exact ⟨landed, s₁, hkept.trans hcount, hcharge, rfl⟩

def ChargesOwn (policy : PipelinePolicy) (gate : PhaseInvocationGate) (field : String) : Prop :=
  resolveExecutionCycleLoopCounter gate.upstreamExecutionPhase policy = some field

theorem charge_own {landed charged : PipelineState} (hown : ChargesOwn policy gate field) (hcap : resolveAnalysisCap field policy = .ok cap)
    (h : chargeAnalysisCycleForGate landed gate.upstreamExecutionPhase policy = .ok charged) :
    charged.getLoopIteration field = max 0 (min (landed.getLoopIteration field + 1) cap) ∧
      charged.executionCycleCharged = true := by
  unfold chargeAnalysisCycleForGate chargeExecutionCycle at h
  rw [hown] at h
  dsimp only at h
  rw [hcap] at h
  cases h
  refine ⟨?_, rfl⟩
  simp [PipelineState.getLoopIteration, PipelineState.withLoopIteration, AnalysisLoopCounter.nextCompleted]

theorem charge_other {landed charged : PipelineState} (hother : ¬ ChargesOwn policy gate field)
    (h : chargeAnalysisCycleForGate landed gate.upstreamExecutionPhase policy = .ok charged) :
    charged.getLoopIteration field = landed.getLoopIteration field := by
  unfold chargeAnalysisCycleForGate chargeExecutionCycle at h
  split at h
  · cases h
    rfl
  · rename_i other hresolved
    obtain ⟨otherCap, _, hresult⟩ := (bind_eq_ok_iff _ _ _).mp h
    cases hresult
    have hne : field ≠ other := by
      rintro rfl
      exact hother hresolved
    simp [PipelineState.getLoopIteration, PipelineState.withLoopIteration, hne]

theorem admitted_passedOver_iff {bundle : PolicyBundle} (haccepted : bundle.pipeline.Accepted)
    (hgated : GatedAnalysis bundle.pipeline phase phaseDef gate field cap) {skipped : Bool} {g : PipelineState}
    (h : AdmittedPass bundle.pipeline phase gate field cap skipped g s) (env : RouterEnv) :
    PassedOver bundle env phase s ↔ Ordinary bundle.pipeline phase ∧ ChargesOwn bundle.pipeline gate field ∧
      countAtGate bundle.pipeline field skipped g + 1 = cap := by
  rw [passedOver_iff haccepted hgated h.landed env]
  refine and_congr_right fun hordinary => ?_
  obtain ⟨landed, charged, hcount, hcharge, rfl⟩ := h.charges hgated hordinary.2
  have hrestored : (g.restoreWorkUnits charged).getLoopIteration field = charged.getLoopIteration field := by
    unfold PipelineState.restoreWorkUnits
    split <;> rfl
  have hroom := h.room
  have hpositive := hgated.positive
  rw [hrestored]
  by_cases hown : ChargesOwn bundle.pipeline gate field
  · rw [(charge_own hown hgated.capped hcharge).1, hcount]
    constructor
    · intro hspent
      exact ⟨hown, by omega⟩
    · rintro ⟨_, hlast⟩
      omega
  · rw [charge_other hown hcharge, hcount]
    constructor
    · intro hspent
      omega
    · rintro ⟨hcharges, _⟩
      exact absurd hcharges hown

/-! ## The loop -/

/-- By a decision that does not leave the loop, or by a plain loopback. -/
inductive LoopsBack (policy : PipelinePolicy) (phase : String) (phaseDef : PhaseDefinition) (s t : PipelineState) : Prop
  | decided {decision : String} {route : PhaseDecisionRoute} {recovery : Option RecoveryController}
      {timing : Option RoutingTiming} {effects : List Effect}
      (routed : phaseDef.decisions.get? decision = some route) (loops : route.resetLoop = false)
      (unfailed : route.target ≠ policy.recovery.failedRoute) (declared : policy.hasPhase route.target = true)
      (reduced : (reduce s (.analysisDecision phase decision) policy recovery timing).result = .ok (t, effects))
  | looped {target : String} {recovery : Option RecoveryController} {timing : Option RoutingTiming}
      {effects : List Effect} (routed : resolveNextPhase phase .loopback policy = .ok target)
      (reduced : (reduce s (.pipeline .analysisLoopback) policy recovery timing).result = .ok (t, effects))

/-- The loop over the gated phase, with its invocations so far. -/
inductive AnalysisLoop (bundle : PolicyBundle) (phase : String) (phaseDef : PhaseDefinition)
    (gate : PhaseInvocationGate) (field : String) (cap : Nat) : Nat → PipelineState → Prop
  | enter {skipped : Bool} {g s : PipelineState} (fresh : countAtGate bundle.pipeline field skipped g = 0)
      (pass : AdmittedPass bundle.pipeline phase gate field cap skipped g s) :
      AnalysisLoop bundle phase phaseDef gate field cap 0 s
  | again {k : Nat} {skipped : Bool} {s t g s' : PipelineState} {env : RouterEnv} {agent : String}
      {drain : Option String} (loop : AnalysisLoop bundle phase phaseDef gate field cap k s)
      (invoked : determineEffectFromPolicy s bundle env = .ok (.invokeAgent agent phase drain))
      (back : LoopsBack bundle.pipeline phase phaseDef s t)
      (kept : countAtGate bundle.pipeline field skipped g = t.getLoopIteration field)
      (pass : AdmittedPass bundle.pipeline phase gate field cap skipped g s') :
      AnalysisLoop bundle phase phaseDef gate field cap (k + 1) s'

theorem GatedAnalysis.already_charged (hgated : GatedAnalysis policy phase phaseDef gate field cap) (hcharged : s.executionCycleCharged = true) :
    analysisLoopbackIsAlreadyCharged phase s policy = true := by
  obtain ⟨loopPolicy, hloop, _⟩ := Option.map_eq_some_iff.mp hgated.looped
  unfold analysisLoopbackIsAlreadyCharged
  rw [hgated.declared]
  dsimp only
  rw [hloop, hgated.role, hcharged]
  rfl

theorem uncharged_loopback_loops (s : PipelineState) (field : String) (cap : Nat) (outcome : Option String) :
    (applyAnalysisLoopback s s field cap outcome false).loopIterations = s.loopIterations := by
  cases outcome <;> rfl

theorem recordDecision_loops (s counted : PipelineState) (route : PhaseDecisionRoute) :
    (recordDecision s counted route).loopIterations = counted.loopIterations := by
  have hcharged : (applyBudgetCounterIncrement s counted route.incrementsCounter).loopIterations = counted.loopIterations := by
    unfold applyBudgetCounterIncrement
    split
    · rfl
    · split <;> rfl
  unfold recordDecision
  dsimp only
  split
  · exact hcharged
  · exact hcharged

theorem LoopsBack.count (hgated : GatedAnalysis policy phase phaseDef gate field cap) {t : PipelineState}
    (hphase : s.phase = phase) (hcharged : s.executionCycleCharged = true) (hroom : s.getLoopIteration field < cap)
    (h : LoopsBack policy phase phaseDef s t) : t.getLoopIteration field = s.getLoopIteration field := by
  obtain ⟨loopPolicy, hloop, hfield⟩ := Option.map_eq_some_iff.mp hgated.looped
  have hadvanced : ∀ (progressState advanced : PipelineState) (target : String) (timing : Option RoutingTiming)
      (effects : List Effect), progressState.loopIterations = s.loopIterations →
      Reducer.advancePhase progressState target policy timing = .ok (advanced, effects) →
      (s.restoreWorkUnits advanced).getLoopIteration field = s.getLoopIteration field := by
    intro progressState advanced target timing effects hloops hadvance
    have hcount := getLoopIteration_congr hloops.symm field
    have hkept := advance_count hgated.capped (by rw [hcount]; exact hroom) hadvance
    rw [← hcount, ← hkept]
    unfold PipelineState.restoreWorkUnits
    split <;> rfl
  cases h with
  | decided routed loops unfailed declared reduced =>
    have hhandled : handleAnalysisDecision s phase _ policy _ = .ok (t, _) := reduced
    unfold handleAnalysisDecision at hhandled
    rw [hgated.declared] at hhandled
    dsimp only at hhandled
    rw [routed] at hhandled
    dsimp only at hhandled
    obtain ⟨counted, hcount, hrest⟩ := (bind_eq_ok_iff _ _ _).mp hhandled
    have hloops : counted.loopIterations = s.loopIterations := by
      unfold countDecision at hcount
      rw [hloop] at hcount
      dsimp only at hcount
      rw [loops, if_neg (by simp), hfield, hgated.capped, hgated.already_charged hcharged] at hcount
      cases hcount
      exact uncharged_loopback_loops s field cap _
    rw [if_neg (by simp [unfailed, declared])] at hrest
    obtain ⟨⟨advanced, effects'⟩, hadvance, hresult⟩ := (bind_eq_ok_iff _ _ _).mp hrest
    cases hresult
    exact hadvanced _ _ _ _ _ ((recordDecision_loops s counted _).trans hloops) hadvance
  | looped routed reduced =>
    obtain ⟨⟨advanced, effects'⟩, hhandled, hresult⟩ := (bind_eq_ok_iff _ _ _).mp reduced
    cases hresult
    have hlooped : handleAnalysisLoopback s policy _ = .ok (advanced, _) := hhandled
    unfold handleAnalysisLoopback at hlooped
    rw [hphase, hgated.declared] at hlooped
    dsimp only at hlooped
    rw [hloop] at hlooped
    dsimp only at hlooped
    rw [if_pos hgated.role] at hlooped
    unfold handleCappedPhaseLoopback at hlooped
    rw [hphase, hfield] at hlooped
    dsimp only at hlooped
    rw [hgated.capped, routed, hgated.already_charged hcharged] at hlooped
    exact hadvanced _ _ _ _ _ (uncharged_loopback_loops s field cap _) hlooped

/-- The last pass came with as many passes counted as were run. -/
theorem AnalysisLoop.last_pass {bundle : PolicyBundle} (haccepted : bundle.pipeline.Accepted)
    (hgated : GatedAnalysis bundle.pipeline phase phaseDef gate field cap) {k : Nat}
    (h : AnalysisLoop bundle phase phaseDef gate field cap k s) :
    ∃ skipped g, AdmittedPass bundle.pipeline phase gate field cap skipped g s ∧
      (Ordinary bundle.pipeline phase → ChargesOwn bundle.pipeline gate field →
        countAtGate bundle.pipeline field skipped g = k) := by
  induction h with
  | enter fresh pass => exact ⟨_, _, pass, fun _ _ => fresh⟩
  | again loop invoked back kept pass ih =>
    rename_i k skipped s t g s' env agent drain
    refine ⟨skipped, g, pass, fun hordinary hown => ?_⟩
    obtain ⟨skipped₀, g₀, pass₀, hcounted⟩ := ih
    have hrun : ¬ PassedOver bundle env phase s := by
      unfold PassedOver
      rw [invoked]
      intro heq
      cases heq
    rw [passedOver_iff haccepted hgated pass₀.landed env] at hrun
    have hroom : s.getLoopIteration field < cap := not_le.mp fun hspent => hrun ⟨hordinary, hspent⟩
    obtain ⟨landed, charged, hcount, hcharge, hs⟩ := pass₀.charges hgated hordinary.2
    obtain ⟨hnext, hflag⟩ := charge_own hown hgated.capped hcharge
    have hcharged : s.executionCycleCharged = true := by
      rw [hs, ← hflag]
      unfold PipelineState.restoreWorkUnits
      split <;> rfl
    have hafter : s.getLoopIteration field = max 0 (min (landed.getLoopIteration field + 1) cap) := by
      rw [hs, ← hnext]
      unfold PipelineState.restoreWorkUnits
      split <;> rfl
    have hbefore := hcounted hordinary hown
    have hpositive := hgated.positive
    rw [kept, back.count hgated pass₀.landed hcharged hroom, hafter, hcount, hbefore]
    rw [hafter, hcount, hbefore] at hroom
    push_cast
    omega

/-- An admitted pass is run exactly when it does not bring the counter to its cap, or the gate charges another one. -/
theorem admitted_run_iff (bundle : PolicyBundle) (haccepted : bundle.pipeline.Accepted) {phase : String}
    {phaseDef : PhaseDefinition} {gate : PhaseInvocationGate} {field : String} {cap : Nat}
    (hgated : GatedAnalysis bundle.pipeline phase phaseDef gate field cap) :
    (∀ (skipped : Bool) (g s : PipelineState) (env : RouterEnv), AdmittedPass bundle.pipeline phase gate field cap skipped g s →
        (¬ PassedOver bundle env phase s ↔ ¬ (Ordinary bundle.pipeline phase ∧ ChargesOwn bundle.pipeline gate field ∧
          countAtGate bundle.pipeline field skipped g + 1 = cap))) ∧
      ∀ (k : Nat) (s : PipelineState) (env : RouterEnv), AnalysisLoop bundle phase phaseDef gate field cap k s →
        (PassedOver bundle env phase s ↔
          Ordinary bundle.pipeline phase ∧ ChargesOwn bundle.pipeline gate field ∧ k + 1 = cap) := by
  constructor
  · intro skipped g s env hpass
    exact not_congr (admitted_passedOver_iff haccepted hgated hpass env)
  · intro k s env hloop
    obtain ⟨skipped, g, hpass, hcount⟩ := hloop.last_pass haccepted hgated
    rw [admitted_passedOver_iff haccepted hgated hpass env]
    refine and_congr_right fun hordinary => and_congr_right fun hown => ?_
    rw [hcount hordinary hown]
    omega

end

/-! ## The passes of the bundled policy -/

def developmentGate : PhaseInvocationGate :=
  { upstreamExecutionPhase := "development", minimumElapsedSeconds := 900, alwaysInvokeStatuses := ["partial", "failed"] }

theorem bundled_gatedAnalysis : GatedAnalysis Default.pipeline "development_analysis" Default.developmentAnalysis
    developmentGate "development_analysis_iteration" 5 :=
  ⟨rfl, rfl, rfl, rfl, rfl, by decide⟩

/-- The commit before a pass, after `completed` passes; the gate admits a partial result outright. -/
def commitAfter (completed : Int) : PipelineState :=
  { phase := "development_commit"
    loopIterations := ⟨[("development_analysis_iteration", completed)], by simp⟩
    lastExecutionResultStatus := some "partial" }

def passAfter (completed : Int) (policy : PipelinePolicy) : PipelineState :=
  { Pipeline.advancePhase (commitAfter completed) "development_analysis" policy with
    loopIterations :=
      ⟨[("development_analysis_iteration", completed + 1), ("commit_cleanup_iteration", 0)], by simp⟩
    lastExecutionResultStatus := none
    executionCycleCharged := true }

theorem bundled_firstPass : AdmittedPass Default.pipeline "development_analysis" developmentGate
    "development_analysis_iteration" 5 false (commitAfter 0) (passAfter 0 Default.pipeline) :=
  ⟨rfl, by decide, rfl, ⟨none, none, [], rfl⟩, rfl⟩

theorem bundled_firstPass_run : ¬ PassedOver { pipeline := Default.pipeline } {} "development_analysis" (passAfter 0 Default.pipeline) := by
  refine ((admitted_run_iff { pipeline := Default.pipeline } Default.pipeline_accepted bundled_gatedAnalysis).1
    false (commitAfter 0) (passAfter 0 Default.pipeline) {} bundled_firstPass).mpr ?_
  rintro ⟨_, _, hlast⟩
  exact absurd hlast (by decide)

def onePassPolicy : PipelinePolicy :=
  { Default.pipeline with
    loopCounters := Default.pipeline.loopCounters.set "development_analysis_iteration" { defaultMax := 1 } }

/-- The fifth of five passes is admitted, charged and passed over; so is the only one of a cap of one. -/
theorem admittedPass_passedOver : (AdmittedPass Default.pipeline "development_analysis" developmentGate "development_analysis_iteration" 5 false
        (commitAfter 4) (passAfter 4 Default.pipeline) ∧
      PassedOver { pipeline := Default.pipeline } {} "development_analysis" (passAfter 4 Default.pipeline)) ∧
    onePassPolicy.Accepted ∧ onePassPolicy.GatesValid ∧
      GatedAnalysis onePassPolicy "development_analysis" Default.developmentAnalysis developmentGate
        "development_analysis_iteration" 1 ∧
      AnalysisLoop { pipeline := onePassPolicy } "development_analysis" Default.developmentAnalysis developmentGate
        "development_analysis_iteration" 1 0 (passAfter 0 onePassPolicy) ∧
      PassedOver { pipeline := onePassPolicy } {} "development_analysis" (passAfter 0 onePassPolicy) := by
  have hlast : AdmittedPass Default.pipeline "development_analysis" developmentGate "development_analysis_iteration" 5
      false (commitAfter 4) (passAfter 4 Default.pipeline) := ⟨rfl, by decide, rfl, ⟨none, none, [], rfl⟩, rfl⟩
  have honly : AdmittedPass onePassPolicy "development_analysis" developmentGate "development_analysis_iteration" 1
      false (commitAfter 0) (passAfter 0 onePassPolicy) := ⟨rfl, by decide, rfl, ⟨none, none, [], rfl⟩, rfl⟩
  exact ⟨⟨hlast, rfl⟩, by decide +kernel, by decide +kernel, ⟨rfl, rfl, rfl, rfl, rfl, by decide⟩, .enter rfl honly, rfl⟩

end RalphWorkflow.InvocationGate
