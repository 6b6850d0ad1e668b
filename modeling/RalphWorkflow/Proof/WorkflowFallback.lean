import RalphWorkflow.Policy.Default
import RalphWorkflow.Proof.WaysOut

/-! A phase can declare where the run goes when its agent chain is exhausted. The reducer asks for it where it exhausts the
chain by its own retry counts; a skipped last agent and the controller go to the failure phase instead. -/
namespace RalphWorkflow.WorkflowFallback
open Lib Policy Recovery Movement Accounts
open Controller WaysOut Pipeline Pipeline.Reducer

/-! ## Exhaustion -/

inductive Detector
  | reducer
  | skip
  | controller
  deriving DecidableEq

def unattempted (s : PipelineState) (chain : AgentChainState) (skip : Bool) : Option RecoveryController → Bool
  | none => skip || (retryOrFallOver s chain).isNone
  | some rc => (controlledAttempt s chain (skip || decide (3 ≤ chain.retries)) rc).1.isNone

def reducerExhaustion (s : PipelineState) (skip : Bool) (recovery : Option RecoveryController) : Option Detector :=
  (s.chainForPhase s.phase).bind fun chain =>
    if unattempted s chain skip recovery && (!skip || decide (chain.agents.length ≤ chain.currentIndex + 1)) then
      some (if skip then .skip else .reducer)
    else none

def controllerExhaustion (rc : RecoveryController) (s : PipelineState) (raw : RawFailure) (context : FailureContext) : Option Detector :=
  if course rc s raw context = .exhausts then some .controller else none

def captured (s : PipelineState) : Option RaisedException :=
  s.agentRetryIntent.failedAgentName.bind (capturedFailure s.agentRetryIntent)

/-- Which code finds the chain of the current phase exhausted when the failure event is reduced. -/
def exhaustion (s : PipelineState) (event : Event) (recovery : Option RecoveryController) : Option Detector :=
  match event, recovery with
  | .pipeline .agentFailure, none => reducerExhaustion s s.agentRetryIntent.skipSameAgentRetries none
  | .pipeline .agentFailure, some rc =>
    match captured s with
    | some exc => controllerExhaustion rc s (.exception exc) { phase := s.phase, agent := s.currentAgent }
    | none => reducerExhaustion s s.agentRetryIntent.skipSameAgentRetries (some rc)
  | .phaseFailure failure, none =>
    if failure.recoverable then reducerExhaustion s failure.skipSameAgentRetries none else none
  | .phaseFailure failure, some rc =>
    if failure.phase = s.phase then
      controllerExhaustion rc s (.message (reasonOrNote failure))
        { phase := failure.phase
          agent := s.currentAgent
          retryInSession := failure.retryInSession
          classifiedFailure := classifiedFailureForEvent failure }
    else none
  | .workerFailed unitId exitCode error, some rc =>
    controllerExhaustion rc s
      (.message (if error = "" then s!"Worker {unitId} failed: exit code {exitCode}" else error))
      { phase := s.phase, agent := s.currentAgent }
  | _, _ => none

/-- Past the deadline the run is where finalization lands, else where the fallback does. -/
structure FallbackWins (policy : PipelinePolicy) (fallback : PhaseWorkflowFallback) (timing : Option RoutingTiming)
    (s s' : PipelineState) : Prop where
  expired : (redirectExpiredCycleInPlace s policy timing).isSome = true →
    ∃ ct, policy.cycleTimebox = some ct ∧ Lands policy ct.finalizationTarget s'.phase
  routed : redirectExpiredCycleInPlace s policy timing = none → Lands policy fallback.target s'.phase

/-! ## Where each detector goes -/

section

variable {policy : PipelinePolicy} {timing : Option RoutingTiming} {s s' : PipelineState} {effects : List Effect}
  {fallback : PhaseWorkflowFallback}

/-- Where a phase goes when no deadline redirects it: the reducer takes the fallback, the others fail. -/
def Leaves (policy : PipelinePolicy) (fallback : PhaseWorkflowFallback) (detector : Detector) (phase : String) : Prop :=
  if detector = .reducer then Lands policy fallback.target phase else phase = policy.recovery.failedRoute

variable {t : PipelineState} {recovery : Option RecoveryController} {detector : Detector}

theorem agentChainExhausted_leaves {chain : AgentChainState}
    (hfallback : (policy.phases.get? t.phase).bind PhaseDefinition.workflowFallback = some fallback)
    (h : agentChainExhausted t chain policy timing = .ok (s', effects)) : Leaves policy fallback .reducer s'.phase := by
  unfold agentChainExhausted at h
  rw [hfallback] at h
  exact fallback_lands h

theorem skip_leaves {chain : AgentChainState} (hlast : chain.agents.length ≤ chain.currentIndex + 1)
    (hattempt : ∀ rc, recovery = some rc → (controlledAttempt t chain true rc).1 = none)
    (h : (handleSkipSameAgentRetries t chain policy recovery).result = .ok (s', effects)) :
    Leaves policy fallback .skip s'.phase := by
  unfold handleSkipSameAgentRetries at h
  rw [if_neg (by omega)] at h
  cases recovery with
  | none => exact failedRecovery_phase h
  | some rc =>
    dsimp only at h
    split at h
    · cases h
    · have hnone := hattempt rc rfl
      generalize controlledAttempt t chain true rc = attempt at h hnone
      obtain ⟨attempted, rc'⟩ := attempt
      cases attempted with
      | some attempted => cases hnone
      | none => exact failedRecovery_phase h

theorem reducer_leaves {skip : Bool} (hfallback : (policy.phases.get? t.phase).bind PhaseDefinition.workflowFallback = some fallback)
    (hskip : t.agentRetryIntent.skipSameAgentRetries = skip) (hexhausted : reducerExhaustion t skip recovery = some detector)
    (hroom : redirectExpiredCycleInPlace t policy timing = none)
    (h : (Reducer.handleAgentFailure t policy timing recovery).result = .ok (s', effects)) :
    Leaves policy fallback detector s'.phase := by
  obtain ⟨chain, hchain, hdetected⟩ := Option.bind_eq_some_iff.mp hexhausted
  split at hdetected
  · rename_i hall
    obtain ⟨hunattempted, hlast⟩ := (Bool.and_eq_true _ _).mp hall
    unfold Reducer.handleAgentFailure at h
    rw [hchain] at h
    dsimp only at h
    rw [hroom, hskip] at h
    dsimp only at h
    cases skip with
    | true =>
      cases hdetected
      rw [if_pos rfl] at h
      refine skip_leaves (by simpa using hlast) ?_ h
      intro rc hrc
      rw [hrc] at hunattempted
      exact Option.isNone_iff_eq_none.mp hunattempted
    | false =>
      cases hdetected
      rw [if_neg (by decide)] at h
      cases recovery with
      | none =>
        have hnone : retryOrFallOver t chain = none := by simpa [unattempted] using hunattempted
        dsimp only at h
        rw [hnone] at h
        exact agentChainExhausted_leaves hfallback h
      | some rc =>
        have hnone : (controlledAttempt t chain (decide (3 ≤ chain.retries)) rc).1 = none := by
          simpa [unattempted] using hunattempted
        dsimp only at h
        generalize controlledAttempt t chain (decide (3 ≤ chain.retries)) rc = attempt at h hnone
        obtain ⟨attempted, rc'⟩ := attempt
        cases attempted with
        | some attempted => cases hnone
        | none => exact agentChainExhausted_leaves hfallback h
  · cases hdetected

theorem controller_leaves {rc : RecoveryController} {raw : RawFailure} {context : FailureContext} (hserves : ServesPolicy policy rc)
    (hexhausted : controllerExhaustion rc s raw context = some detector)
    (h : (rc.handle s raw context).result = .ok (t, effects)) : Leaves policy fallback detector t.phase := by
  unfold controllerExhaustion at hexhausted
  split at hexhausted
  · rename_i hcourse
    cases hexhausted
    have hensues := handle_ensues h
    rw [hcourse] at hensues
    obtain ⟨bundle, hbundle, hfailed⟩ := givenUp_phase (ensues_gaveUp hensues rfl)
    rw [hserves bundle hbundle] at hfailed
    exact hfailed
  · cases hexhausted

variable (policy timing) in
theorem redirect_same (h : SameSeat s t) :
    (redirectExpiredCycleInPlace t policy timing).isSome = (redirectExpiredCycleInPlace s policy timing).isSome := by
  unfold redirectExpiredCycleInPlace
  dsimp only
  rw [applyCycleTimebox_redirected t.phase h, h.phase]
  split <;> rfl

structure Routes (policy : PipelinePolicy) (fallback : PhaseWorkflowFallback) (detector : Detector)
    (timing : Option RoutingTiming) (s s' : PipelineState) : Prop where
  expired : (redirectExpiredCycleInPlace s policy timing).isSome = true →
    ∃ ct, policy.cycleTimebox = some ct ∧ Lands policy ct.finalizationTarget s'.phase
  detected : (redirectExpiredCycleInPlace s policy timing).isSome = false → Leaves policy fallback detector s'.phase

theorem Routes.of_expired (hexpired : (redirectExpiredCycleInPlace s policy timing).isSome = true)
    (h : ∃ ct, policy.cycleTimebox = some ct ∧ Lands policy ct.finalizationTarget s'.phase) :
    Routes policy fallback detector timing s s' := by
  refine ⟨fun _ => h, ?_⟩
  intro hroom
  rw [hexpired] at hroom
  cases hroom

theorem Routes.of_room (hroom : (redirectExpiredCycleInPlace s policy timing).isSome = false)
    (h : Leaves policy fallback detector s'.phase) : Routes policy fallback detector timing s s' := by
  refine ⟨?_, fun _ => h⟩
  intro hexpired
  rw [hroom] at hexpired
  cases hexpired

theorem Routes.restored {t' : PipelineState} (h : Routes policy fallback detector timing s t)
    (hphase : t'.phase = t.phase) : Routes policy fallback detector timing s t' := by
  constructor
  · rw [hphase]
    exact h.expired
  · rw [hphase]
    exact h.detected

theorem reducer_routes {skip : Bool}
    (hseat : SameSeat s t) (hfallback : (policy.phases.get? t.phase).bind PhaseDefinition.workflowFallback = some fallback)
    (hskip : t.agentRetryIntent.skipSameAgentRetries = skip) (hexhausted : reducerExhaustion t skip recovery = some detector)
    (h : (Reducer.handleAgentFailure t policy timing recovery).result = .ok (s', effects)) :
    Routes policy fallback detector timing s s' := by
  have hsame := redirect_same policy timing hseat
  cases hexpired : redirectExpiredCycleInPlace t policy timing with
  | some expired =>
    rw [hexpired] at hsame
    refine .of_expired hsame.symm ?_
    obtain ⟨chain, hchain, _⟩ := Option.bind_eq_some_iff.mp hexhausted
    unfold Reducer.handleAgentFailure at h
    rw [hchain] at h
    dsimp only at h
    rw [hexpired] at h
    exact redirect_lands hexpired h
  | none =>
    rw [hexpired] at hsame
    exact .of_room hsame.symm (reducer_leaves hfallback hskip hexhausted hexpired h)

variable (effects) in
theorem controlled_routes {handled : Handled} (hleaves : handled = .ok (s', effects) → Leaves policy fallback detector s'.phase)
    (h : (match redirectExpiredCycleInPlace s policy timing with
      | some expired => expired
      | none => handled) = .ok (s', effects)) : Routes policy fallback detector timing s s' := by
  cases hexpired : redirectExpiredCycleInPlace s policy timing with
  | some expired =>
    rw [hexpired] at h
    exact .of_expired (by rw [hexpired]; rfl) (redirect_lands hexpired h)
  | none =>
    rw [hexpired] at h
    exact .of_room (by rw [hexpired]; rfl) (hleaves h)

theorem throughController_leaves {rc : RecoveryController} {raw : RawFailure} {context : FailureContext} (hserves : ServesPolicy policy rc)
    (hexhausted : controllerExhaustion rc s raw context = some detector)
    (h : (recoverThroughController s raw context policy rc).result = .ok (s', effects)) :
    Leaves policy fallback detector s'.phase := by
  obtain ⟨t, hhandled, hphase, -⟩ := recoverThroughController_eq_ok h
  rw [hphase]
  exact controller_leaves hserves hexhausted hhandled

theorem agentFailure_routes (hserves : ∀ rc, recovery = some rc → ServesPolicy policy rc)
    (hfallback : (policy.phases.get? s.phase).bind PhaseDefinition.workflowFallback = some fallback)
    (hexhausted : exhaustion s (.pipeline .agentFailure) recovery = some detector)
    (h : (reduceAgentFailure s policy recovery timing).result = .ok (s', effects)) :
    Routes policy fallback detector timing s s' := by
  obtain ⟨t, hhandled, rfl⟩ := restoring_eq_ok h
  refine Routes.restored ?_ (restoreWorkUnits_seat s t).1
  cases recovery with
  | none => exact reducer_routes ⟨rfl, rfl, rfl⟩ hfallback rfl hexhausted hhandled
  | some rc =>
    have hplain : captured s = none → (Reducer.handleAgentFailure s policy timing (some rc)).result = .ok (t, effects) →
        Routes policy fallback detector timing s t := by
      intro hnone hok
      unfold exhaustion at hexhausted
      dsimp only at hexhausted
      rw [hnone] at hexhausted
      exact reducer_routes ⟨rfl, rfl, rfl⟩ hfallback rfl hexhausted hok
    dsimp only at hhandled
    unfold reduceCapturedAgentFailure at hhandled
    cases hname : s.agentRetryIntent.failedAgentName with
    | none =>
      rw [hname] at hhandled
      exact hplain (by unfold captured; rw [hname]; rfl) hhandled
    | some agentName =>
      rw [hname] at hhandled
      dsimp only at hhandled
      cases hexpired : redirectExpiredCycleInPlace s policy timing with
      | some expired =>
        rw [hexpired] at hhandled
        exact .of_expired (by rw [hexpired]; rfl) (redirect_lands hexpired hhandled)
      | none =>
        rw [hexpired] at hhandled
        dsimp only at hhandled
        have hcaptured : captured s = capturedFailure s.agentRetryIntent agentName := by
          unfold captured
          rw [hname]
          rfl
        cases hexc : capturedFailure s.agentRetryIntent agentName with
        | none =>
          rw [hexc] at hhandled
          exact hplain (hcaptured.trans hexc) hhandled
        | some exc =>
          rw [hexc] at hhandled
          unfold exhaustion at hexhausted
          dsimp only at hexhausted
          rw [hcaptured, hexc] at hexhausted
          exact .of_room (by rw [hexpired]; rfl) (throughController_leaves (hserves rc rfl) hexhausted hhandled)

theorem reducerExhaustion_same (hphase : t.phase = s.phase) (hchains : t.phaseChains = s.phaseChains)
    (skip : Bool) : reducerExhaustion t skip none = reducerExhaustion s skip none := by
  have hattempt : ∀ chain, (retryOrFallOver t chain).isNone = (retryOrFallOver s chain).isNone := by
    intro chain
    unfold retryOrFallOver
    split
    · rfl
    · split <;> rfl
  unfold reducerExhaustion unattempted PipelineState.chainForPhase
  simp only [hphase, hchains, hattempt]

theorem phaseFailure_routes {failure : PhaseFailureEvent} (hserves : ∀ rc, recovery = some rc → ServesPolicy policy rc)
    (hfallback : (policy.phases.get? s.phase).bind PhaseDefinition.workflowFallback = some fallback)
    (hexhausted : exhaustion s (.phaseFailure failure) recovery = some detector)
    (h : (reducePhaseFailure s failure policy recovery timing).result = .ok (s', effects)) :
    Routes policy fallback detector timing s s' := by
  unfold exhaustion at hexhausted
  cases recovery with
  | none =>
    dsimp only at hexhausted
    split at hexhausted
    · rename_i hrecoverable
      have hhandled : handlePhaseFailure s failure policy timing = .ok (s', effects) := h
      unfold handlePhaseFailure at hhandled
      dsimp only at hhandled
      rw [if_pos hrecoverable] at hhandled
      refine @reducer_routes _ _ _ _ _ _ _ _ _ failure.skipSameAgentRetries ?_ ?_ ?_ ?_ hhandled
      · exact ⟨rfl, rfl, rfl⟩
      · exact hfallback
      · dsimp only
        unfold phaseFailureIntent
        split
        · rename_i hskip
          exact hskip.symm
        · rename_i hskip
          have hfalse : failure.skipSameAgentRetries = false := Bool.eq_false_iff.mpr hskip
          rw [hfalse]
          split
          · split <;> rfl
          · rfl
      · rw [← hexhausted]
        refine reducerExhaustion_same ?_ ?_ _ <;> rfl
    · cases hexhausted
  | some rc =>
    dsimp only at hexhausted
    split at hexhausted
    · refine controlled_routes effects
        (fun hok => throughController_leaves (hserves rc rfl) hexhausted hok) ?_
      unfold reducePhaseFailure at h
      dsimp only at h
      cases hexpired : redirectExpiredCycleInPlace s policy timing with
      | some expired =>
        rw [hexpired] at h
        exact h
      | none =>
        rw [hexpired] at h
        exact h
    · cases hexhausted

theorem workerFailed_routes {rc : RecoveryController} {unitId error : String} {exitCode : Int} (hserves : ServesPolicy policy rc)
    (hexhausted : exhaustion s (.workerFailed unitId exitCode error) (some rc) = some detector)
    (h : (dispatchWorkerFailed s unitId exitCode error policy (some rc) timing).result = .ok (s', effects)) :
    Routes policy fallback detector timing s s' := by
  unfold dispatchWorkerFailed at h
  split at h
  · rename_i expired hexpired
    exact .of_expired (by rw [hexpired]; rfl) (redirect_lands hexpired h)
  · rename_i hroom
    refine .of_room (by rw [hroom]; rfl) ?_
    dsimp only at h
    obtain ⟨⟨t, effects'⟩, hhandled, hrest⟩ := (bind_eq_ok_iff _ _ _).mp h
    dsimp only at hrest
    split at hrest
    · cases hrest
    · rename_i worker _
      cases hrest
      rw [(restoreWorkUnits_seat s
        { t with workerStates := t.workerStates.set unitId (failedWorker worker exitCode error) }).1]
      have hleaves : Leaves policy fallback detector t.phase := controller_leaves hserves hexhausted hhandled
      exact hleaves

end

def replanning : PipelinePolicy :=
  { Default.pipeline with
    phases := Default.pipeline.phases.set "development"
      { Default.development with workflowFallback := some { target := "planning" } } }

def worn : PipelineState :=
  { phase := "development", phaseChains := Dict.ofList [("development", { agents := ["claude"], retries := 10 })] }

def fresh : RecoveryController where
  cap := ⟨200, one_le_cycleCap⟩
  classify := fun _ _ _ _ => { category := .ambiguous, reason := "", countsAgainstBudget := false }
  clock := fun _ => 0
  policyBundle := some { pipeline := replanning }

def artifactFailure (skip : Bool) : PhaseFailureEvent where
  phase := "development"
  reason := "artifact is not valid"
  recoverable := true
  failureCategory := some .artifactValidation
  skipSameAgentRetries := skip

theorem planning_lands {phase : String} (h : Lands replanning "planning" phase) : phase = "planning" := by
  induction h with
  | refl => rfl
  | tail _ hstep ih =>
    rw [ih] at hstep
    rcases hstep with ⟨phaseDef, hget, hloop, _⟩ | ⟨ct, hct, hguarded, _⟩
    · cases hget
      cases hloop
    · cases hct
      exact absurd hguarded (by decide)

end RalphWorkflow.WorkflowFallback
