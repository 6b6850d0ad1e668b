import RalphWorkflow.Pipeline.RunLoop
import RalphWorkflow.Proof.Accounts
import RalphWorkflow.Proof.Movement

/-! A run as a sequence of labelled steps: an event is reduced, an effect of the router is handled inline, a phase that
finds no plan is recovered, a crash is recovered, or something is done that leaves the ledger alone. -/
namespace RalphWorkflow.Runs
open Lib Policy Recovery Movement Accounts
open Pipeline Pipeline.Reducer

inductive Act
  | event (event : Event)
  | inline (effect : Effect)
  | unplanned
  | crash
  | rest

inductive Step (bundle : PolicyBundle) (s : PipelineState) : Act → PipelineState → Prop
  | reduced {event : Event} {recovery : Option RecoveryController} {timing : Option RoutingTiming}
      {s' : PipelineState} {effects : List Effect}
      (serves : ∀ rc, recovery = some rc → ServesPolicy bundle.pipeline rc)
      (result : (reduce s event bundle.pipeline recovery timing).result = .ok (s', effects)) :
      Step bundle s (.event event) s'
  | handled {env : RouterEnv} {effect : Effect} {timing : Option RoutingTiming} {materialization : Materialization}
      {s' : PipelineState} (chosen : determineEffectFromPolicy s bundle env = .ok effect)
      (result : handleInlineEffect effect s bundle.pipeline timing materialization = .ok (some (.state s'))) :
      Step bundle s (.inline effect) s'
  | unplanned (text : String) : Step bundle s .unplanned (recoverMissingPlanHandoff s bundle.pipeline text)
  | crashed {exc : RaisedException} {recovery : Option RecoveryController} {timing : Option RoutingTiming}
      {s' : PipelineState} {effects : List Effect}
      (serves : ∀ rc, recovery = some rc → ServesPolicy bundle.pipeline rc)
      (result : (reduceRuntimeRecovery s bundle.pipeline exc recovery timing).result = .ok (s', effects)) :
      Step bundle s .crash s'
  | rested {s' : PipelineState} (kept : ledger s' = ledger s) : Step bundle s .rest s'

def RunsTo (bundle : PolicyBundle) (allowed : PipelineState → Act → Prop) : PipelineState → PipelineState → Prop :=
  Relation.ReflTransGen fun s s' => ∃ act, allowed s act ∧ Step bundle s act s'

variable {bundle : PolicyBundle} {s s' : PipelineState}

theorem RunsTo.invariant {allowed : PipelineState → Act → Prop} {Inv : PipelineState → Prop}
    (hstep : ∀ s act s', Inv s → allowed s act → Step bundle s act s' → Inv s') (hinv : Inv s)
    (h : RunsTo bundle allowed s s') : Inv s' := by
  induction h with
  | refl => exact hinv
  | tail _ hlast ih =>
    obtain ⟨act, hallowed, hact⟩ := hlast
    exact hstep _ act _ ih hallowed hact

/-- The states of runs from an initial state that have not gone on past the terminal phase. -/
def Reachable (bundle : PolicyBundle) (s : PipelineState) : Prop :=
  ∃ config developerIters counterOverrides,
    RunsTo bundle (fun t _ => t.phase ≠ bundle.pipeline.terminalPhase)
      (createInitialState config bundle developerIters counterOverrides) s

section

variable {policy : PipelinePolicy} {controller : Option RecoveryController} {timing : Option RoutingTiming}

/-! ## What the runner does to the ledger by itself -/

theorem reset_ledger (s : PipelineState) (phase : String) : ledger (resetPhaseChainForRecovery s phase) = ledger s := by
  unfold resetPhaseChainForRecovery
  split <;> rfl

theorem missingPlan_ledger (s : PipelineState) (text : String) : ∃ target, (target = policy.recovery.failedRoute ∨ target = policy.entryPhase) ∧
      ledger (recoverMissingPlanHandoff s policy text) = (ledger s).enter target policy := by
  unfold recoverMissingPlanHandoff
  dsimp only
  split
  · refine ⟨_, .inl rfl, ?_⟩
    exact (concludeCycle_ledger (Pipeline.advancePhase s policy.recovery.failedRoute policy) _).trans rfl
  · refine ⟨_, .inr rfl, ?_⟩
    refine Eq.trans ?_ (@concludeCycle_ledger policy (Pipeline.advancePhase s policy.entryPhase policy)
      policy.entryPhase)
    exact reset_ledger _ policy.entryPhase

variable (policy timing) in
/-- The hop writes the phase it prepared; out of the failure phase a commit phase starts its commit over. -/
theorem hop_ledger (s : PipelineState) (phase : String) (drain : Option String) : if s.phase = policy.recovery.failedRoute then
      ∃ t target, (∀ controller event, Edits policy controller s event (ledger s) (ledger t)) ∧ t.phase = s.phase ∧
        Lands policy phase target ∧
        ledger (preparePromptHop s phase drain policy timing) =
          { ledger t with phase := target, commit := if phaseHasRole policy target .commit then {} else t.commit }
    else ledger (preparePromptHop s phase drain policy timing) = { ledger s with phase := phase } := by
  have hhop : ledger (preparePromptHop s phase drain policy timing) =
      { ledger (preparedTarget s phase policy timing).2 with phase := (preparedTarget s phase policy timing).1 } := by
    unfold preparePromptHop
    dsimp only
    split <;> rfl
  rw [hhop]
  unfold preparedTarget
  split
  · rename_i hfailed
    dsimp only
    generalize timing.getD { totalElapsedSeconds := s.cycleTimeboxConsumedSeconds } = time
    refine ⟨(applyCycleTimebox s phase policy (some time)).state, _, ?_, ?_,
      Lands.of_timebox s phase policy (some time), ?_⟩
    · intro controller event
      exact applyCycleTimebox_edits s phase (some time)
    · exact (Frame.applyCycleTimebox_frame s phase policy (some time)).2.1
    · have hreset := reset_ledger (applyCycleTimebox s phase policy (some time)).state
        (applyCycleTimebox s phase policy (some time)).targetPhase
      split
      · rw [← hreset]
        rfl
      · rw [hreset]
        rfl
  · rfl

theorem exitFailureHop_ledger (s : PipelineState) (reason : String) :
    ledger (exitFailureHop s reason policy) = (ledger s).enter policy.recovery.failedRoute policy := rfl

theorem checkpoint_ledger {s s' : PipelineState} (h : reduceForward s (.pipeline .checkpointSaved) policy = .ok s') : ledger s' = ledger s := by
  obtain ⟨⟨t, effects⟩, hreduce, hresult⟩ := (bind_eq_ok_iff _ _ _).mp h
  cases hresult
  obtain ⟨⟨t₁, effects₁⟩, hhandle, hrestored⟩ := (bind_eq_ok_iff _ _ _).mp hreduce
  cases hhandle
  cases hrestored
  exact restoreWorkUnits_ledger s _

inductive Handles (policy : PipelinePolicy) (timing : Option RoutingTiming) (s : PipelineState) :
    Effect → PipelineState → Prop
  | saved {s' : PipelineState} (kept : ledger s' = ledger s) : Handles policy timing s .saveCheckpoint s'
  | hopped {phase : String} {drain previous : Option String} {skip : Bool} :
      Handles policy timing s (.preparePrompt phase drain previous skip) (preparePromptHop s phase drain policy timing)
  | unplanned {phase text : String} {drain previous : Option String} :
      Handles policy timing s (.preparePrompt phase drain previous false) (recoverMissingPlanHandoff s policy text)
  | failed {reason : String} {descriptive : descriptiveReason reason = true} :
      Handles policy timing s (.exitFailure reason descriptive) (exitFailureHop s reason policy)

theorem handleInlineEffect_handles {s s' : PipelineState} {effect : Effect} {materialization : Materialization}
    (h : handleInlineEffect effect s policy timing materialization = .ok (some (.state s'))) :
    Handles policy timing s effect s' := by
  cases effect with
  | saveCheckpoint =>
    simp only [handleInlineEffect] at h
    cases hsaved : reduceForward s (.pipeline .checkpointSaved) policy with
    | ok saved =>
      rw [hsaved] at h
      cases h
      exact .saved (checkpoint_ledger hsaved)
    | error e =>
      rw [hsaved] at h
      cases h
  | preparePrompt phase drain previous skip =>
    simp only [handleInlineEffect] at h
    cases skip with
    | true =>
      cases h
      exact .hopped
    | false =>
      cases materialization with
      | done =>
        cases h
        exact .hopped
      | missingPlan text =>
        cases h
        exact .unplanned
      | raised exc => cases h
  | exitFailure reason descriptive =>
    cases h
    exact .failed
  | _ => cases h

theorem runtimeRecovery_edits {s : PipelineState} {event : Event} (exc : RaisedException) :
    EditsTo policy controller s event s (reduceRuntimeRecovery s policy exc controller timing).result := by
  unfold reduceRuntimeRecovery
  split
  · exact editsTo_redirect rfl ‹_›
  · cases controller with
    | none =>
      show EditsTo policy none s event s (reducePhaseFailure s _ policy none timing).result
      exact editsTo_phaseFailure _
    | some rc =>
      refine editsTo_restoring ?_
      intro u effects hok
      exact handle_edits rfl hok

end

theorem Step.preserves {P : Ledger → Prop} {act : Act}
    (hedits : ∀ controller event l', Edits bundle.pipeline controller s event (ledger s) l' → P l')
    (henters : ∀ target, P ((ledger s).enter target bundle.pipeline))
    (hhops : ∀ phase commit l, P l → P { l with phase := phase, commit := commit })
    (hstep : Step bundle s act s') : P (ledger s') := by
  have hmissing : ∀ text, P (ledger (recoverMissingPlanHandoff s bundle.pipeline text)) := by
    intro text
    obtain ⟨target, -, hledger⟩ := missingPlan_ledger s text
    rw [hledger]
    exact henters target
  have hstays : P (ledger s) := hedits none (.pipeline .checkpointSaved) _ (.refl _)
  cases hstep with
  | reduced serves result => exact hedits _ _ _ (reduce_edits _ _ result)
  | @handled _ effect timing _ _ _ result =>
    cases handleInlineEffect_handles result with
    | saved kept =>
      rw [kept]
      exact hstays
    | @hopped phase drain _ _ =>
      have hhop := hop_ledger bundle.pipeline timing s phase drain
      split at hhop
      · obtain ⟨t, target, hprepared, -, -, hledger⟩ := hhop
        rw [hledger]
        exact hhops _ _ _ (hedits none (.pipeline .checkpointSaved) _ (hprepared _ _))
      · rw [hhop]
        exact hhops _ (ledger s).commit _ hstays
    | unplanned => exact hmissing _
    | failed => exact henters _
  | unplanned text => exact hmissing text
  | @crashed exc _ _ _ _ _ result => exact hedits _ (.pipeline .checkpointSaved) _ (runtimeRecovery_edits exc _ _ result)
  | rested kept =>
    rw [kept]
    exact hstays

/-! ## Runs that can be evaluated -/

/-- Without a controller and without time passing: reduce an event, or handle the router's effect. -/
inductive Move
  | reduce (event : Event)
  | handle (materialization : Materialization)

def Move.Labels : Move → Act → Prop
  | .reduce event, act => act = .event event
  | .handle _, act => ∃ effect, act = .inline effect

def takeMove (bundle : PolicyBundle) (s : PipelineState) (move : Move) : Option PipelineState :=
  let timing : Option RoutingTiming := some { totalElapsedSeconds := s.cycleTimeboxConsumedSeconds }
  match move with
  | .reduce event =>
    match (Reducer.reduce s event bundle.pipeline none timing).result with
    | .ok (s', _) => some s'
    | .error _ => none
  | .handle materialization =>
    match determineEffectFromPolicy s bundle {} with
    | .ok effect =>
      match handleInlineEffect effect s bundle.pipeline timing materialization with
      | .ok (some (.state s')) => some s'
      | _ => none
    | .error _ => none

def follow (bundle : PolicyBundle) : PipelineState → List Move → Option PipelineState
  | s, [] => some s
  | s, move :: moves =>
    if s.phase = bundle.pipeline.terminalPhase then none
    else (takeMove bundle s move).bind fun s' => follow bundle s' moves

theorem takeMove_step {move : Move} (h : takeMove bundle s move = some s') : ∃ act, move.Labels act ∧ Step bundle s act s' := by
  unfold takeMove at h
  cases move with
  | reduce event =>
    dsimp only at h
    split at h
    · rename_i t effects hreduce
      cases h
      exact ⟨_, rfl, .reduced (by simp) hreduce⟩
    · cases h
  | handle materialization =>
    dsimp only at h
    split at h
    · rename_i effect hchosen
      split at h
      · rename_i t hhandled
        cases h
        exact ⟨_, ⟨effect, rfl⟩, .handled hchosen hhandled⟩
      · cases h
    · cases h

theorem follow_runs {allowed : PipelineState → Act → Prop} {moves : List Move} (h : follow bundle s moves = some s')
    (hallowed : ∀ move ∈ moves, ∀ t act, move.Labels act → t.phase ≠ bundle.pipeline.terminalPhase → allowed t act) :
    RunsTo bundle allowed s s' := by
  induction moves generalizing s with
  | nil =>
    cases h
    exact .refl
  | cons move moves ih =>
    unfold follow at h
    split at h
    · cases h
    · rename_i hphase
      obtain ⟨t, htake, hrest⟩ := Option.bind_eq_some_iff.mp h
      obtain ⟨act, hlabel, hstep⟩ := takeMove_step htake
      refine .head ⟨act, hallowed move List.mem_cons_self s act hlabel hphase, hstep⟩ (ih hrest ?_)
      intro next hnext
      exact hallowed next (List.mem_cons_of_mem move hnext)

end RalphWorkflow.Runs
