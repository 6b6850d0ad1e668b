import RalphWorkflow.Proof.Runs
import RalphWorkflow.Proof.Termination

/-! Under the bundled policy a run whose last cycle was judged failed goes to the failure terminal. It reaches the success terminal only past a
completed outcome recorded in between, an explicit completion, or a success route out of the closing commit. -/
namespace RalphWorkflow.FailedVerdict
open Lib Policy Recovery Movement Accounts List Termination
open Runs Pipeline Pipeline.Reducer

/-! ## Routes to the success terminal -/

variable {phase : String} {controller : Option RecoveryController} {event : Event} {l l' : Ledger}

theorem declared {phaseDef : PhaseDefinition} (check : String → PhaseDefinition → Bool)
    (hcheck : (Default.pipeline.phases.entries.all fun e => check e.1 e.2) = true)
    (hget : Default.pipeline.phases.get? phase = some phaseDef) : check phase phaseDef = true :=
  all_eq_true.mp hcheck _ (entries_of_get? hget)

theorem success_complete (h : resolveNextPhase phase .success Default.pipeline = .ok "complete") :
    phase = "development_final_commit" ∨ phase = "complete" := by
  obtain ⟨phaseDef, hget, htarget⟩ := resolveNextPhase_success_eq_ok h
  have hcheck := declared (fun name phaseDef => phaseDef.transitions.onSuccess != "complete" ||
    name == "development_final_commit" || name == "complete") (by decide +kernel) hget
  simpa [htarget] using hcheck

theorem setback_complete {signal : Pipeline.Signal} (hsignal : signal ≠ .success)
    (h : resolveNextPhase phase signal Default.pipeline = .ok "complete") : phase = "complete" := by
  obtain ⟨phaseDef, hget, htarget⟩ := resolveNextPhase_eq_ok h
  have hcheck := declared (fun name phaseDef => (phaseDef.transitions.onFailure != some "complete" &&
    phaseDef.transitions.onLoopback != some "complete") || name == "complete") (by decide +kernel) hget
  cases signal with
  | success => exact absurd rfl hsignal
  | failure =>
    dsimp only [Signal.target] at htarget
    simpa [htarget] using hcheck
  | loopback =>
    dsimp only [Signal.target] at htarget
    simpa [htarget] using hcheck

theorem lands_complete (h : Accounts.Lands Default.pipeline phase "complete") : phase = "complete" := by
  rcases Relation.ReflTransGen.cases_tail h with heq | ⟨last, _, hpass | ⟨ct, hct, _, htarget⟩⟩
  · exact heq.symm
  · obtain ⟨phaseDef, hget, hloop, htarget⟩ := hpass
    have hcheck := declared (fun _ phaseDef => !phaseDef.loopPolicy.isSome ||
      phaseDef.transitions.onSuccess != "complete") (by decide +kernel) hget
    simp [hloop, htarget] at hcheck
  · cases hct
    exact absurd htarget (by decide)

structure Unfinished (l : Ledger) : Prop where
  phase : l.phase ≠ "complete"
  previous : l.previous ≠ some "complete"
  entry : l.entry ≠ "complete"
  override : l.override = none
  spent : l.caps.getD "iteration" 0 ≤ l.progress.getD "iteration" 0

/-- The closing commit has a verdict before it is committed, and is left by its commit only. -/
structure KeepsFailure (s : PipelineState) (act : Act) : Prop where
  unrecorded : s.pendingCycleOutcome ≠ some .completed
  unfinished : act ≠ .event (.pipeline .complete)
  unrouted : s.phase = "development_final_commit" → ∀ event, act = .event event →
    followsSuccess s Default.pipeline event = false
  judged : s.phase = "development_final_commit" → ∀ event, act = .event event → isCommitOutcome event = true →
    s.pendingCycleOutcome ≠ none

theorem spent_edit {s : PipelineState} (h : l.caps.getD "iteration" 0 ≤ l.progress.getD "iteration" 0)
    (hedit : Edit Default.pipeline controller s event l l') : l'.caps.getD "iteration" 0 ≤ l'.progress.getD "iteration" 0 := by
  cases hedit with
  | @progresses counter =>
    dsimp only
    rw [Dict.getD_set]
    split
    · rename_i hcounter
      rw [← hcounter]
      omega
    · exact h
  | _ => exact h

theorem spent_edits {s : PipelineState} (h : l.caps.getD "iteration" 0 ≤ l.progress.getD "iteration" 0)
    (hedits : Edits Default.pipeline controller s event l l') :
    l'.caps.getD "iteration" 0 ≤ l'.progress.getD "iteration" 0 := by
  induction hedits with
  | refl => exact h
  | tail _ hedit ih => exact spent_edit ih hedit

theorem override_edit {s : PipelineState} (h : l.override = none) (hedit : Edit Default.pipeline controller s event l l') : l'.override = none := by
  cases hedit with
  | @overrides phaseDef phase status executed hget =>
    have hcheck := declared (fun _ phaseDef => phaseDef.resultStatusPostCommit.entries.isEmpty) (by decide +kernel) hget
    have hempty : phaseDef.resultStatusPostCommit.entries = [] := isEmpty_iff.mp hcheck
    show phaseDef.resultStatusPostCommit.entries.lookup status = none
    rw [hempty]
    rfl
  | consumes => rfl
  | _ => exact h

theorem override_edits {s : PipelineState}
    (h : l.override = none) (hedits : Edits Default.pipeline controller s event l l') : l'.override = none := by
  induction hedits with
  | refl => exact h
  | tail _ hedit ih => exact override_edit ih hedit

theorem declaredRoute_none {s : PipelineState} (hphase : s.phase ≠ "development_final_commit") :
    declaredPostCommitRoute s Default.pipeline = none := by
  have hnone : ∀ label outcome, matchingRoute Default.pipeline s.phase label outcome = none := by
    intro label outcome
    refine List.find?_eq_none.mpr ?_
    intro route hroute
    have hwhen : route.when.phase = "development_final_commit" := by
      have hall : (Default.pipeline.postCommitRoutes.all fun route =>
          route.when.phase == "development_final_commit") = true := by decide +kernel
      exact beq_iff_eq.mp (all_eq_true.mp hall route hroute)
    have hother : (route.when.phase == s.phase) = false := by
      rw [hwhen]
      exact beq_eq_false_iff_ne.mpr (Ne.symm hphase)
    rw [hother]
    simp
  unfold declaredPostCommitRoute
  split
  · split
    · rename_i label _
      refine List.findSome?_eq_none_iff.mpr ?_
      intro outcome _
      exact hnone label outcome
    · rfl
  · rfl

theorem remaining_of_spent {s : PipelineState} (h : (ledger s).caps.getD "iteration" 0 ≤ (ledger s).progress.getD "iteration" 0) :
    ¬ 0 < s.getBudgetRemaining "iteration" := by
  have hspent : s.budgetCaps.getD "iteration" 0 ≤ s.outerProgress.getD "iteration" 0 := h
  unfold PipelineState.getBudgetRemaining
  omega

theorem committed_complete {s : PipelineState} {skipped : Bool} (hunfinished : Unfinished (ledger s))
    (hcommits : isCommitOutcome event = true) (hkeeps : KeepsFailure s (.event event)) :
    resolvePostCommitPhase (applyCommitOutcome s s skipped Default.pipeline) Default.pipeline ≠ .ok "complete" := by
  intro hroute
  have hedits := @applyCommitOutcome_edits Default.pipeline none s event
    skipped
  by_cases hphase : s.phase = "development_final_commit"
  · have hspent := remaining_of_spent (spent_edits hunfinished.spent hedits)
    rw [applyCommitOutcome_finalCommit skipped hphase] at hroute hspent
    have hresolve := resolve_finalCommit (s := finalCommitCounted s) hphase hunfinished.override
    rw [hresolve] at hroute
    have hjudged := hkeeps.judged hphase event rfl hcommits
    have hfailed : s.pendingCycleOutcome = some .failed := by
      cases hpending : s.pendingCycleOutcome with
      | none => exact absurd hpending hjudged
      | some outcome =>
        cases outcome with
        | completed => exact absurd hpending hkeeps.unrecorded
        | failed => rfl
    unfold finalCommitTarget at hroute
    rw [if_neg hspent, if_pos (show (finalCommitCounted s).pendingCycleOutcome = _ from hfailed)] at hroute
    exact absurd (Except.ok.inj hroute) (by decide)
  · have hbooks := @applyCommitOutcome_books Default.pipeline s skipped
    have hoverride : (applyCommitOutcome s s skipped Default.pipeline).postCommitPhaseOverride = none :=
      override_edits hunfinished.override hedits
    have hnone := declaredRoute_none (s := applyCommitOutcome s s skipped Default.pipeline)
      (by rw [hbooks.phase]; exact hphase)
    unfold resolvePostCommitPhase at hroute
    rw [hoverride, hnone, hbooks.phase] at hroute
    rcases success_complete hroute with h | h
    · exact hphase h
    · exact hunfinished.phase h

theorem requests_complete {s : PipelineState} (hunfinished : Unfinished (ledger s))
    (hkeeps : KeepsFailure s (.event event)) : ¬ Requests Default.pipeline s event "complete" := by
  intro hrequests
  generalize htarget : "complete" = target at hrequests
  cases hrequests with
  | failure => exact absurd htarget (by decide)
  | success follows next =>
    rw [← htarget] at next
    rcases success_complete next with h | h
    · rw [hkeeps.unrouted h event rfl] at follows
      cases follows
    · exact hunfinished.phase h
  | setback unsuccessful next =>
    rw [← htarget] at next
    exact hunfinished.phase (setback_complete unsuccessful next)
  | @decision route matched =>
    unfold decisionRoute at matched
    split at matched
    · obtain ⟨phaseDef, hget, hroute⟩ := Option.bind_eq_some_iff.mp matched
      have hcheck := declared (fun _ phaseDef => phaseDef.decisions.entries.all fun e => e.2.target != "complete")
        (by decide +kernel) hget
      have hother := all_eq_true.mp hcheck _ ((Dict.get?_eq_some_iff _ _ _).mp hroute)
      simp [← htarget] at hother
    · cases matched
  | @bypass phaseDef outcome _ hget route =>
    have hcheck := declared (fun _ phaseDef => phaseDef.bypassRoutes.entries.isEmpty) (by decide +kernel) hget
    have hmem := (Dict.get?_eq_some_iff _ _ _).mp route
    rw [isEmpty_iff.mp hcheck] at hmem
    cases hmem
  | @fallback phase fallback hdeclared =>
    obtain ⟨phaseDef, hget, hfallback⟩ := Option.bind_eq_some_iff.mp hdeclared
    have hcheck := declared (fun _ phaseDef => phaseDef.workflowFallback.isNone) (by decide +kernel) hget
    rw [hfallback] at hcheck
    cases hcheck
  | committed commits next =>
    rw [← htarget] at next
    exact committed_complete hunfinished commits hkeeps next
  | @gated skipped next phaseDef commits _ hget gate =>
    have hcheck := declared (fun _ phaseDef => !phaseDef.invocationGate.isSome ||
      phaseDef.transitions.onSuccess != "complete") (by decide +kernel) hget
    simp [gate, ← htarget] at hcheck
  | @deadline ct timebox =>
    cases timebox
    exact absurd htarget (by decide)
  | again => exact hunfinished.phase htarget.symm
  | finish completes =>
    refine hkeeps.unfinished ?_
    rw [completes]

theorem unfinished_enter (h : Unfinished l) {target : String} (htarget : target ≠ "complete") : Unfinished (l.enter target Default.pipeline) where
  phase := htarget
  previous := fun hprevious => h.phase (Option.some.inj hprevious)
  entry := h.entry
  override := h.override
  spent := h.spent

theorem unfinished_edit {s : PipelineState}
    (hserves : ∀ rc, controller = some rc → ServesPolicy Default.pipeline rc) (hunfinished : Unfinished (ledger s))
    (hkeeps : KeepsFailure s (.event event)) (h : Unfinished l)
    (hedit : Edit Default.pipeline controller s event l l') : Unfinished l' := by
  have hspent := spent_edit h.spent hedit
  have hoverride := override_edit h.override hedit
  cases hedit with
  | @enters requested landed requests lands =>
    refine unfinished_enter h ?_
    intro hcomplete
    rw [hcomplete] at lands
    have hrequested := lands_complete lands
    rw [hrequested] at requests
    exact requests_complete hunfinished hkeeps requests
  | strays present foreign => exact absurd (hserves _ present) foreign
  | _ => exact ⟨h.phase, h.previous, h.entry, hoverride, hspent⟩

theorem unfinished_edits {s : PipelineState}
    (hserves : ∀ rc, controller = some rc → ServesPolicy Default.pipeline rc) (hunfinished : Unfinished (ledger s))
    (hkeeps : KeepsFailure s (.event event)) (h : Unfinished l)
    (hedits : Edits Default.pipeline controller s event l l') : Unfinished l' := by
  induction hedits with
  | refl => exact h
  | tail _ hedit ih => exact unfinished_edit hserves hunfinished hkeeps ih hedit

/-! ## Steps -/

section

variable {agents : AgentsPolicy} {s s' : PipelineState}

theorem prepared_phase {env : RouterEnv} {phase : String} {drain previous : Option String} {skip : Bool} (hunfinished : Unfinished (ledger s))
    (hchosen : determineEffectFromPolicy s { pipeline := Default.pipeline, agents := agents } env =
      .ok (.preparePrompt phase drain previous skip)) :
    s.phase = "failed_terminal" ∧ phase ≠ "complete" := by
  rcases preparePrompt_chosen hchosen with ⟨hfailed, heffect⟩ | ⟨-, phaseDef, hget, hskips, -⟩
  · obtain ⟨target, htarget, hfrom⟩ := recoveryPrepareEffect_eq s Default.pipeline
    obtain ⟨hphase, -⟩ := Effect.preparePrompt.inj (heffect.trans htarget)
    refine ⟨hfailed, ?_⟩
    intro hcomplete
    rw [← hphase, hcomplete] at hfrom
    rcases hfrom with hentry | hprevious
    · exact hunfinished.entry hentry.symm
    · exact hunfinished.previous hprevious
  · have hcheck := declared (fun _ phaseDef => !phaseDef.skipInvocation) (by decide +kernel) hget
    rw [hskips] at hcheck
    cases hcheck

theorem hop_unfinished {timing : Option RoutingTiming} {phase : String} (hunfinished : Unfinished (ledger s))
    (hunrecorded : s.pendingCycleOutcome ≠ some .completed) (hfailed : s.phase = "failed_terminal")
    (hphase : phase ≠ "complete") (drain : Option String) :
    Unfinished (ledger (preparePromptHop s phase drain Default.pipeline timing)) := by
  have hhop := hop_ledger Default.pipeline timing s phase drain
  rw [if_pos (show s.phase = Default.pipeline.recovery.failedRoute from hfailed)] at hhop
  obtain ⟨t, target, hedits, -, hlands, hledger⟩ := hhop
  -- the timer's edits are those of any event, so of one that routes nowhere
  have helsewhere : s.phase ≠ "development_final_commit" := by
    rw [hfailed]
    decide
  have hkeeps : KeepsFailure s (.event (.pipeline .checkpointSaved)) := {
    unrecorded := hunrecorded
    unfinished := by
      intro h
      cases h
    unrouted := fun h => absurd h helsewhere
    judged := fun h => absurd h helsewhere }
  have hprepared : Unfinished (ledger t) :=
    unfinished_edits (by simp) hunfinished hkeeps hunfinished (hedits none _)
  rw [hledger]
  refine ⟨?_, hprepared.previous, hprepared.entry, hprepared.override, hprepared.spent⟩
  intro hcomplete
  rw [show target = "complete" from hcomplete] at hlands
  exact hphase (lands_complete hlands)

theorem missingPlan_unfinished (hunfinished : Unfinished (ledger s)) (text : String) :
    Unfinished (ledger (recoverMissingPlanHandoff s Default.pipeline text)) := by
  obtain ⟨target, htarget, hledger⟩ := missingPlan_ledger s text
  rw [hledger]
  refine unfinished_enter hunfinished ?_
  rcases htarget with rfl | rfl <;> decide

theorem inline_unfinished {env : RouterEnv} {effect : Effect} {timing : Option RoutingTiming}
    {materialization : Materialization} (hunfinished : Unfinished (ledger s))
    (hunrecorded : s.pendingCycleOutcome ≠ some .completed)
    (hchosen : determineEffectFromPolicy s { pipeline := Default.pipeline, agents := agents } env = .ok effect)
    (hresult : handleInlineEffect effect s Default.pipeline timing materialization = .ok (some (.state s'))) :
    Unfinished (ledger s') := by
  cases handleInlineEffect_handles hresult with
  | saved kept =>
    rw [kept]
    exact hunfinished
  | hopped =>
    obtain ⟨hfailed, hphase⟩ := prepared_phase hunfinished hchosen
    exact hop_unfinished hunfinished hunrecorded hfailed hphase _
  | unplanned => exact missingPlan_unfinished hunfinished _
  | failed =>
    rw [exitFailureHop_ledger]
    exact unfinished_enter hunfinished (by decide)

theorem step_unfinished {act : Act} (hunfinished : Unfinished (ledger s)) (hkeeps : KeepsFailure s act)
    (hstep : Step { pipeline := Default.pipeline, agents := agents } s act s') : Unfinished (ledger s') := by
  cases hstep with
  | @reduced event recovery timing _ effects serves result =>
    exact unfinished_edits serves hunfinished hkeeps hunfinished (reduce_edits _ _ result)
  | handled chosen result => exact inline_unfinished hunfinished hkeeps.unrecorded chosen result
  | unplanned text => exact missingPlan_unfinished hunfinished text
  | @crashed exc recovery timing _ effects serves result =>
    -- a crash is recovered as a failure of the phase
    have hfails : KeepsFailure s (.event (.phaseFailure { phase := s.phase, reason := "", recoverable := true })) := {
      unrecorded := hkeeps.unrecorded
      unfinished := by
        intro h
        cases h
      unrouted := by
        intro _ event h
        cases h
        rfl
      judged := by
        intro _ event h hcommits
        cases h
        cases hcommits }
    exact unfinished_edits serves hunfinished hfails hunfinished (runtimeRecovery_edits exc _ _ result)
  | rested kept =>
    rw [kept]
    exact hunfinished

end

/-! ## The closing commit -/

structure Rooted (l : Ledger) : Prop where
  entry : l.entry = "planning"
  override : l.override = none

theorem entry_edits {s : PipelineState} (hedits : Edits Default.pipeline controller s event l l') : l'.entry = l.entry := by
  induction hedits with
  | refl => rfl
  | tail _ hedit ih =>
    rw [← ih]
    cases hedit <;> rfl

theorem reachable_rooted {agents : AgentsPolicy} {s : PipelineState}
    (h : Reachable { pipeline := Default.pipeline, agents := agents } s) : Rooted (ledger s) := by
  obtain ⟨config, developerIters, counterOverrides, hruns⟩ := h
  refine @RunsTo.invariant _ _ _ _ (fun s => Rooted (ledger s)) ?_ ⟨rfl, rfl⟩ hruns
  intro t act t' hrooted _ hstep
  refine hstep.preserves ?_ ?_ ?_
  · intro controller event l' hedits
    exact ⟨(entry_edits hedits).trans hrooted.entry, override_edits hrooted.override hedits⟩
  · intro target
    exact ⟨hrooted.entry, hrooted.override⟩
  · intro phase commit l hl
    exact ⟨hl.entry, hl.override⟩

theorem closing_phase (h : commitClosesACycle phase Default.pipeline = true) : phase = "development_final_commit" := by
  cases hlife : Default.pipeline.lifecyclePhases.get? phase with
  | some lifecycle =>
    have hcheck : (Default.pipeline.lifecyclePhases.entries.all fun e => e.1 == "development_final_commit") = true := by
      decide +kernel
    have hmem := (Dict.get?_eq_some_iff _ _ _).mp hlife
    exact beq_iff_eq.mp (all_eq_true.mp hcheck _ hmem)
  | none =>
    cases hget : Default.pipeline.phases.get? phase with
    | some phaseDef =>
      have hcheck := declared (fun name _ => !commitClosesACycle name Default.pipeline ||
        name == "development_final_commit") (by decide +kernel) hget
      simpa [h] using hcheck
    | none =>
      unfold commitClosesACycle budgetCounterForPhase at h
      rw [hlife, hget] at h
      cases h

theorem closing_fails {s s' : PipelineState} {skipped : Bool} {label : String} {timing : Option RoutingTiming}
    {effects : List Effect} (hrooted : Rooted (ledger s)) (hphase : s.phase = "development_final_commit")
    (hfailed : s.pendingCycleOutcome = some .failed)
    (hspent : (applyCommitOutcome s s skipped Default.pipeline).getBudgetRemaining "iteration" = 0)
    (h : handleCommitOutcome skipped label s Default.pipeline timing = .ok (s', effects)) :
    (ledger s').phase = "failed_terminal" ∧ Unfinished (ledger s') := by
  have hentry : (ledger s').entry = "planning" :=
    (entry_edits (@editsTo_commitOutcome _ none _ _ (.pipeline .commitSuccess) rfl skipped label _ _
      h)).trans hrooted.entry
  have happly := applyCommitOutcome_finalCommit skipped hphase
  have hresolve := resolve_finalCommit (s := finalCommitCounted s) hphase hrooted.override
  rw [happly] at hspent
  have hleft : ¬ 0 < (finalCommitCounted s).getBudgetRemaining "iteration" := by
    rw [hspent]
    decide
  unfold finalCommitTarget at hresolve
  rw [if_neg hleft, if_pos (show (finalCommitCounted s).pendingCycleOutcome = _ from hfailed)] at hresolve
  have hclose : closeCommit s (finalCommitCounted s) Default.pipeline =
      { finalCommitCounted s with postCommitPhaseOverride := none, pendingCycleOutcome := none } := by
    unfold closeCommit commitClosesACycle
    rw [hphase]
    rfl
  unfold handleCommitOutcome at h
  rw [happly] at h
  dsimp only [bind, Except.bind] at h
  rw [hresolve, hclose] at h
  dsimp only at h
  rw [advanceThroughInvocationGate_plain timing rfl] at h
  obtain ⟨landed, hadvance, hlands⟩ := advance_lands
    { finalCommitCounted s with
      postCommitPhaseOverride := none, pendingCycleOutcome := none, lastExecutionResultStatus := none }
    (t := "failed_terminal") (by decide) timing
  rw [hadvance] at h
  cases h
  obtain ⟨prepared, target, hprepared, hentered⟩ := advancePhase_eq_ok hadvance
  have hfails : s'.phase = "failed_terminal" := by
    rcases hlands.landsOn with hland | hpass
    · exact hland
    · simp [passes] at hpass
  have hprevious : s'.previousPhase = some "development_final_commit" := by
    rw [hentered]
    exact congrArg some ((Frame.preparePhaseAdvance_phase hprepared).trans hphase)
  refine ⟨hfails, ?_, ?_, ?_, hlands.override, ?_⟩
  · show s'.phase ≠ "complete"
    rw [hfails]
    decide
  · show s'.previousPhase ≠ some "complete"
    rw [hprevious]
    decide
  · rw [hentry]
    decide
  · show s'.budgetCaps.getD "iteration" 0 ≤ s'.outerProgress.getD "iteration" 0
    rw [hlands.budgetCaps, hlands.outerProgress]
    unfold PipelineState.getBudgetRemaining at hspent
    show (finalCommitCounted s).budgetCaps.getD "iteration" 0 ≤
      (finalCommitCounted s).outerProgress.getD "iteration" 0
    omega

theorem restoring_ledger {P : Ledger → Prop} {s s' : PipelineState} {handled : Handled} {effects : List Effect}
    (hhandled : ∀ t effects, handled = .ok (t, effects) → P (ledger t))
    (h : restoring s handled = .ok (s', effects)) : P (ledger s') := by
  obtain ⟨⟨t, effects'⟩, hok, hrestored⟩ := (bind_eq_ok_iff _ _ _).mp h
  cases hrestored
  rw [restoreWorkUnits_ledger]
  exact hhandled t _ hok

def bundled : PolicyBundle := { pipeline := Default.pipeline, agents := {} }

def failedCycle : List Move :=
  [.reduce (.pipeline .agentSuccess), .reduce (.analysisDecision "planning_analysis" "completed"),
    .reduce (.executionResult "development" "partial"), .reduce (.pipeline .agentSuccess),
    .reduce (.pipeline .commitSuccess), .reduce (.analysisDecision "development_analysis" "failed"),
    .reduce (.pipeline .agentSuccess)]

/-- A second cycle, sent back to development, whose analysis the invocation gate passes over. -/
def ungradedCycle : List Move :=
  [.handle .done, .reduce (.analysisDecision "development_analysis" "request_changes"),
    .reduce (.executionResult "development" "completed"), .reduce (.pipeline .agentSuccess),
    .reduce (.pipeline .commitSuccess), .reduce (.pipeline .agentSuccess), .reduce (.pipeline .commitSuccess)]

def afterFailure : List (List Move) :=
  [[.reduce (.pipeline .complete)], [.handle .done, .reduce (.pipeline .phaseAdvance)], ungradedCycle]

def Unjudged (_ : PipelineState) (act : Act) : Prop :=
  ∀ event route, act = .event event → decisionRoute Default.pipeline event = some route →
    route.cycleOutcome ≠ some .completed

def untimed : Option RoutingTiming := some { totalElapsedSeconds := 0 }

def closesFailure (s : PipelineState) : Bool :=
  commitClosesACycle s.phase Default.pipeline && decide (s.pendingCycleOutcome = some .failed) &&
    decide ((applyCommitOutcome s s false Default.pipeline).getBudgetRemaining "iteration" = 0)

theorem closesFailure_iff {s : PipelineState} : closesFailure s = true ↔
    commitClosesACycle s.phase Default.pipeline = true ∧ s.pendingCycleOutcome = some .failed ∧
      (applyCommitOutcome s s false Default.pipeline).getBudgetRemaining "iteration" = 0 := by
  unfold closesFailure
  simp [and_assoc]

theorem follow_end (bundle : PolicyBundle) {s : PipelineState} (moves : List Move) {p : PipelineState → Bool}
    (h : (follow bundle s moves).any p = true) : ∃ s', follow bundle s moves = some s' ∧ p s' = true :=
  (Option.any_eq_true _ _).mp h

theorem reachable_of_follow {s : PipelineState} {moves : List Move}
    (h : follow bundled (createInitialState {} bundled 1 ∅) moves = some s) : Reachable bundled s :=
  ⟨{}, 1, ∅, follow_runs h fun _ _ _ _ _ hphase => hphase⟩

def Move.judges : Move → Bool
  | .reduce event =>
    (decisionRoute Default.pipeline event).any fun route => decide (route.cycleOutcome = some .completed)
  | .handle _ => false

theorem unjudged_of_judges {move : Move} (h : Move.judges move = false) {s : PipelineState} {act : Act}
    (hlabel : move.Labels act) : Unjudged s act := by
  intro event route hact hroute houtcome
  cases move with
  | reduce reduced =>
    rw [show act = .event reduced from hlabel] at hact
    cases hact
    simp [Move.judges, hroute, houtcome] at h
  | handle materialization =>
    obtain ⟨effect, heffect⟩ := hlabel
    rw [hact] at heffect
    cases heffect

def losesFailure (s₀ : PipelineState) : Bool :=
  closesFailure s₀ &&
    match (reduce s₀ (.pipeline .commitSuccess) Default.pipeline none untimed).result with
    | .ok (s₁, _) => afterFailure.all fun moves => (follow bundled s₁ moves).any fun s => s.phase == "complete"
    | .error _ => false

end RalphWorkflow.FailedVerdict
