import RalphWorkflow.Policy.Default
import RalphWorkflow.Proof.Runs

/-! A commit phase issues its commit once its agent is marked as invoked, and the mark is taken away when the phase is
entered. The hop of a phase that is not invoked writes the next phase by hand and leaves the mark of an earlier commit. -/
namespace RalphWorkflow.CommitEntry
open Lib Policy Recovery Movement Accounts
open Runs Pipeline Pipeline.Reducer

/-! ## Runs that remember -/

def Act.isAgentSuccess : Act → Bool
  | .event (.pipeline .agentSuccess) => true
  | _ => false

/-- A step enters a phase when it changes the phase, or when residual work starts a commit over. -/
def enters (s : PipelineState) (act : Act) (s' : PipelineState) : Prop :=
  s'.phase ≠ s.phase ∨ act = .event (.pipeline .commitResidual)

/-- The runs of allowed steps, with whether an agent succeeded in the current phase since it was entered. -/
inductive Answers (bundle : PolicyBundle) (allowed : PipelineState → Act → Prop) : PipelineState → Prop → Prop
  | start (config : ConfigAgents) (developerIters : Int) (counterOverrides : Dict String Int) :
      Answers bundle allowed (createInitialState config bundle developerIters counterOverrides) False
  | step {s s' : PipelineState} {answered : Prop} {act : Act} (before : Answers bundle allowed s answered)
      (permitted : allowed s act) (step : Step bundle s act s') :
      Answers bundle allowed s' (¬ enters s act s' ∧ (answered ∨ Act.isAgentSuccess act = true))

def SkipsToCommit (policy : PipelinePolicy) (phase : String) : Prop :=
  ∃ phaseDef, policy.phases.get? phase = some phaseDef ∧ phaseDef.skipInvocation = true ∧
    phase ≠ policy.recovery.failedRoute ∧ phaseDef.transitions.onSuccess ≠ phase ∧
    phaseHasRole policy phaseDef.transitions.onSuccess .commit = true

/-- No hop to a commit phase is taken with the mark of an earlier commit. -/
def HopsUnmarked (policy : PipelinePolicy) (s : PipelineState) (act : Act) : Prop :=
  (∃ effect, act = .inline effect) → SkipsToCommit policy s.phase → s.commit.agentInvoked = false

def EntersFresh (policy : PipelinePolicy) (s s' : PipelineState) : Prop :=
  s'.phase ≠ s.phase → phaseHasRole policy s'.phase .commit = true → s'.commit.agentInvoked = false

/-! ## Steps -/

section

variable {policy : PipelinePolicy} {controller : Option RecoveryController} {s : PipelineState} {event : Event}

def Marks (policy : PipelinePolicy) (s : PipelineState) (success : Prop) (l : Ledger) : Prop :=
  phaseHasRole policy l.phase .commit = true → l.commit.agentInvoked = true →
    l.phase = s.phase ∧ (s.commit.agentInvoked = true ∨ success)

theorem marks_self {success : Prop} : Marks policy s success (ledger s) := fun _ hinvoked => ⟨rfl, .inl hinvoked⟩

theorem marks_enter {success : Prop} {l : Ledger} (target : String) : Marks policy s success (l.enter target policy) := by
  intro hrole hinvoked
  have hcommit : (l.enter target policy).commit = {} := if_pos hrole
  rw [hcommit] at hinvoked
  cases hinvoked

theorem marks_edit {l l' : Ledger} (hserves : ∀ rc, controller = some rc → ServesPolicy policy rc)
    (h : Marks policy s (event = .pipeline .agentSuccess) l) (hedit : Edit policy controller s event l l') :
    Marks policy s (event = .pipeline .agentSuccess) l' := by
  cases hedit with
  | invokes succeeds here role => exact fun _ _ => ⟨here, .inr succeeds⟩
  | enters requests lands => exact marks_enter _
  | strays present foreign => exact absurd (hserves _ present) foreign
  | _ => exact h

theorem marks_edits {l l' : Ledger} (hserves : ∀ rc, controller = some rc → ServesPolicy policy rc)
    (h : Marks policy s (event = .pipeline .agentSuccess) l) (hedits : Edits policy controller s event l l') :
    Marks policy s (event = .pipeline .agentSuccess) l' := by
  induction hedits with
  | refl => exact h
  | tail _ hedit ih => exact marks_edit hserves ih hedit

theorem commitResidual_unmarks {timing : Option RoutingTiming} {s' : PipelineState} {effects : List Effect}
    (h : (reduce s (.pipeline .commitResidual) policy controller timing).result = .ok (s', effects))
    (hrole : phaseHasRole policy s'.phase .commit = true) : s'.commit.agentInvoked = false := by
  obtain ⟨⟨t, effects'⟩, hhandled, hrestored⟩ := (bind_eq_ok_iff _ _ _).mp h
  obtain ⟨prepared, landed, -, hentered⟩ := advancePhase_eq_ok hhandled
  cases hrestored
  have hledger := restoreWorkUnits_ledger s t
  have hphase : (s.restoreWorkUnits t).phase = t.phase := congrArg Ledger.phase hledger
  have hcommit : (s.restoreWorkUnits t).commit = t.commit := congrArg Ledger.commit hledger
  rw [hphase, show t.phase = landed by rw [hentered]; rfl] at hrole
  have hfresh : (ledger (Pipeline.advancePhase prepared landed policy)).commit = {} := if_pos hrole
  rw [hcommit, hentered]
  exact congrArg CommitState.agentInvoked hfresh

end

section

variable {bundle : PolicyBundle} {s s' : PipelineState} {act : Act}

theorem hop_marks {env : RouterEnv} {timing : Option RoutingTiming} {phase : String} {drain previous : Option String} {skip : Bool} {success : Prop}
    (hchosen : determineEffectFromPolicy s bundle env = .ok (.preparePrompt phase drain previous skip))
    (hunmarked : SkipsToCommit bundle.pipeline s.phase → s.commit.agentInvoked = false) :
    Marks bundle.pipeline s success (ledger (preparePromptHop s phase drain bundle.pipeline timing)) := by
  have hhop := hop_ledger bundle.pipeline timing s phase drain
  rcases preparePrompt_chosen hchosen with ⟨hfailed, -⟩ | ⟨hfailed, phaseDef, hdeclared, hskips, htarget⟩
  · rw [if_pos hfailed] at hhop
    obtain ⟨t, target, -, -, -, hledger⟩ := hhop
    rw [hledger]
    intro hrole hinvoked
    dsimp only at hrole hinvoked
    rw [if_pos hrole] at hinvoked
    cases hinvoked
  · rw [if_neg hfailed] at hhop
    rw [hhop]
    intro hrole hinvoked
    by_cases hphase : phase = s.phase
    · exact ⟨hphase, .inl hinvoked⟩
    · have hunset := hunmarked ⟨phaseDef, hdeclared, hskips, hfailed, by rwa [htarget], by rwa [htarget]⟩
      rw [show (ledger s).commit.agentInvoked = s.commit.agentInvoked from rfl, hunset] at hinvoked
      cases hinvoked

theorem step_marks (hstep : Step bundle s act s') (hunmarked : HopsUnmarked bundle.pipeline s act) :
    Marks bundle.pipeline s (Act.isAgentSuccess act = true) (ledger s') := by
  have hmissing : ∀ {success : Prop} text, Marks bundle.pipeline s success (ledger (recoverMissingPlanHandoff s bundle.pipeline text)) := by
    intro success text
    obtain ⟨target, -, hledger⟩ := missingPlan_ledger s text
    rw [hledger]
    exact marks_enter target
  cases hstep with
  | reduced serves result =>
    have hmarks := marks_edits serves marks_self (reduce_edits _ _ result)
    intro hrole hinvoked
    obtain ⟨hphase, hcause⟩ := hmarks hrole hinvoked
    refine ⟨hphase, hcause.imp_right ?_⟩
    intro hsuccess
    rw [hsuccess]
    rfl
  | @handled env effect timing materialization _ chosen result =>
    cases handleInlineEffect_handles result with
    | saved kept =>
      rw [kept]
      exact marks_self
    | hopped => exact hop_marks chosen (hunmarked ⟨_, rfl⟩)
    | unplanned => exact hmissing _
    | failed =>
      rw [exitFailureHop_ledger]
      exact marks_enter _
  | unplanned text => exact hmissing text
  | @crashed exc _ _ _ _ serves result =>
    have hmarks := @marks_edits _ _ _ (.pipeline .checkpointSaved) _ _ serves marks_self
      (runtimeRecovery_edits exc _ _ result)
    intro hrole hinvoked
    obtain ⟨hphase, hcause⟩ := hmarks hrole hinvoked
    refine ⟨hphase, .inl (hcause.resolve_right ?_)⟩
    intro h
    cases h
  | rested kept =>
    rw [kept]
    exact marks_self

theorem hop_keeps_mark (hstep : Step bundle s act s') (hmarked : ¬ HopsUnmarked bundle.pipeline s act) : ¬ EntersFresh bundle.pipeline s s' := by
  unfold HopsUnmarked at hmarked
  push Not at hmarked
  obtain ⟨⟨effect, rfl⟩, ⟨phaseDef, hdeclared, hskips, hfailed, hother, hrole⟩, hinvoked⟩ := hmarked
  intro hfresh
  cases hstep with
  | @handled env _ timing materialization _ chosen result =>
    have hphase : s.phase ≠ bundle.pipeline.terminalPhase := by
      intro hterminal
      unfold determineEffectFromPolicy terminalPhaseEffect at chosen
      rw [if_pos hterminal] at chosen
      cases chosen
      cases result
    rcases skipInvocation_chosen hphase hfailed hdeclared hskips chosen with rfl | rfl
    · cases result
    · unfold skipInvocationEffect at result
      dsimp only at result
      split at result
      · cases result
      · cases result
        have hhop := hop_ledger bundle.pipeline timing s phaseDef.transitions.onSuccess none
        rw [if_neg hfailed] at hhop
        have hseat : (preparePromptHop s phaseDef.transitions.onSuccess none bundle.pipeline timing).phase =
            phaseDef.transitions.onSuccess := congrArg Ledger.phase hhop
        have hcommit : (preparePromptHop s phaseDef.transitions.onSuccess none bundle.pipeline timing).commit =
            s.commit := congrArg Ledger.commit hhop
        have hunset := hfresh (by rw [hseat]; exact hother) (by rw [hseat]; exact hrole)
        rw [hcommit] at hunset
        exact hinvoked hunset

theorem entersFresh_iff (hstep : Step bundle s act s') : EntersFresh bundle.pipeline s s' ↔ HopsUnmarked bundle.pipeline s act := by
  constructor
  · intro hfresh
    by_contra hmarked
    exact hop_keeps_mark hstep hmarked hfresh
  · intro hunmarked hphase hrole
    by_contra hinvoked
    have hmark : (ledger s').commit.agentInvoked = true := Bool.eq_true_of_not_eq_false hinvoked
    exact hphase (step_marks hstep hunmarked hrole hmark).1

/-! ## Runs -/

theorem answers_marked {answered : Prop} (hrun : Answers bundle (HopsUnmarked bundle.pipeline) s answered)
    (hrole : phaseHasRole bundle.pipeline s.phase .commit = true) (hinvoked : s.commit.agentInvoked = true) :
    answered := by
  induction hrun with
  | start config developerIters counterOverrides => cases hinvoked
  | @step t t' answered act before permitted step ih =>
    obtain ⟨hphase, hcause⟩ := step_marks step permitted hrole hinvoked
    have hsame : t'.phase = t.phase := hphase
    refine ⟨?_, ?_⟩
    · rintro (hchanged | hresidual)
      · exact hchanged hsame
      · rw [hresidual] at step
        cases step with
        | reduced serves result =>
          rw [commitResidual_unmarks result hrole] at hinvoked
          cases hinvoked
    · rcases hcause with hbefore | hsuccess
      · rw [hsame] at hrole
        exact .inl (ih hrole hbefore)
      · exact .inr hsuccess

end

theorem phaseHasRole_of_declared {policy : PipelinePolicy} {phase : String} {role : PhaseRole}
    (h : ∃ phaseDef, policy.phases.get? phase = some phaseDef ∧ phaseDef.role = some role) :
    phaseHasRole policy phase role = true := by
  obtain ⟨phaseDef, hdeclared, hrole⟩ := h
  unfold phaseHasRole
  rw [hdeclared]
  simp [hrole]

/-- Commit phases are entered fresh exactly by unmarked hops; a commit is issued only after an agent success. -/
theorem commit_follows_agent (bundle : PolicyBundle) (s : PipelineState) (answered : Prop)
    (hrun : Answers bundle (HopsUnmarked bundle.pipeline) s answered) :
    (∀ act s', Step bundle s act s' →
      (EntersFresh bundle.pipeline s s' ↔ HopsUnmarked bundle.pipeline s act)) ∧
    ∀ env, determineEffectFromPolicy s bundle env = .ok .commit → answered := by
  refine ⟨fun act s' hstep => entersFresh_iff hstep, ?_⟩
  intro env hcommit
  obtain ⟨hdeclared, hinvoked⟩ := commit_chosen hcommit
  exact answers_marked hrun (phaseHasRole_of_declared hdeclared) hinvoked

/-! ## A commit marked by its agent, and one marked by the commit before -/

theorem answers_of_runs {bundle : PolicyBundle} {allowed : PipelineState → Act → Prop} {config : ConfigAgents}
    {developerIters : Int} {counterOverrides : Dict String Int} {s : PipelineState}
    (h : RunsTo bundle allowed (createInitialState config bundle developerIters counterOverrides) s) :
    ∃ answered, Answers bundle allowed s answered := by
  induction h with
  | refl => exact ⟨False, .start config developerIters counterOverrides⟩
  | tail _ hlast ih =>
    obtain ⟨answered, hanswers⟩ := ih
    obtain ⟨act, hallowed, hstep⟩ := hlast
    exact ⟨_, .step hanswers hallowed hstep⟩

def bundled : PolicyBundle := { pipeline := Default.pipeline }

def choosesCommit : Except PyError Effect → Bool
  | .ok .commit => true
  | _ => false

theorem eq_commit {chosen : Except PyError Effect} (h : choosesCommit chosen = true) : chosen = .ok .commit := by
  unfold choosesCommit at h
  split at h
  · rfl
  · cases h

def firstCommit : List Move :=
  [.reduce (.pipeline .agentSuccess), .reduce (.analysisDecision "planning_analysis" "completed"),
    .reduce (.executionResult "development" "completed"), .reduce (.pipeline .agentSuccess),
    .reduce (.pipeline .agentSuccess)]

theorem firstCommit_follows_agent : ∃ s answered, Answers bundled (HopsUnmarked bundled.pipeline) s answered ∧
    determineEffectFromPolicy s bundled {} = .ok .commit ∧ answered := by
  have hcheck : ((follow bundled (createInitialState {} bundled 5 ∅) firstCommit).any fun s =>
      choosesCommit (determineEffectFromPolicy s bundled {})) = true := by decide +kernel
  obtain ⟨s, hfollow, hchosen⟩ := (Option.any_eq_true _ _).mp hcheck
  have hcommit : determineEffectFromPolicy s bundled {} = .ok .commit := eq_commit hchosen
  have hevents : ∀ move ∈ firstCommit, ∃ event, move = .reduce event := by
    intro move hmove
    simp only [firstCommit, List.mem_cons, List.not_mem_nil, or_false] at hmove
    rcases hmove with rfl | rfl | rfl | rfl | rfl <;> exact ⟨_, rfl⟩
  have hruns : RunsTo bundled (HopsUnmarked bundled.pipeline) (createInitialState {} bundled 5 ∅) s := by
    refine follow_runs hfollow ?_
    intro move hmove t act hlabel _ hinline
    obtain ⟨event, rfl⟩ := hevents move hmove
    obtain ⟨effect, heffect⟩ := hinline
    rw [show act = .event event from hlabel] at heffect
    cases heffect
  obtain ⟨answered, hanswers⟩ := answers_of_runs hruns
  exact ⟨s, answered, hanswers, hcommit, (commit_follows_agent bundled s answered hanswers).2 {} hcommit⟩

def uncleaned : PolicyBundle where
  pipeline := { Default.pipeline with
    phases := Default.pipeline.phases.set "development_final_commit_cleanup"
      { Default.developmentFinalCommitCleanup with skipInvocation := true } }

def secondCommit : List Move := firstCommit ++ [.reduce (.pipeline .commitSuccess)]

/-- The final commit is entered with the mark of the first one: it is issued though no agent has run. -/
theorem secondCommit_reuses_mark : uncleaned.pipeline.Accepted ∧
    ∃ s act s' answered, Answers uncleaned (fun _ _ => True) s' answered ∧ Step uncleaned s act s' ∧
      ¬ EntersFresh uncleaned.pipeline s s' ∧ determineEffectFromPolicy s' uncleaned {} = .ok .commit ∧ ¬ answered := by
  refine ⟨by decide +kernel, ?_⟩
  have hcheck : ((follow uncleaned (createInitialState {} uncleaned 5 ∅) secondCommit).any fun s =>
      (takeMove uncleaned s (.handle .done)).any fun s' =>
        decide (s'.phase ≠ s.phase) && phaseHasRole uncleaned.pipeline s'.phase .commit && s'.commit.agentInvoked &&
          choosesCommit (determineEffectFromPolicy s' uncleaned {})) = true := by decide +kernel
  obtain ⟨s, hfollow, hnext⟩ := (Option.any_eq_true _ _).mp hcheck
  obtain ⟨s', hmove, hfacts⟩ := (Option.any_eq_true _ _).mp hnext
  obtain ⟨hentered, hchosen⟩ := (Bool.and_eq_true _ _).mp hfacts
  simp only [Bool.and_eq_true, decide_eq_true_eq] at hentered
  obtain ⟨⟨hphase, hrole⟩, hinvoked⟩ := hentered
  have hcommit : determineEffectFromPolicy s' uncleaned {} = .ok .commit := eq_commit hchosen
  obtain ⟨act, -, hstep⟩ := takeMove_step hmove
  have hruns : RunsTo uncleaned (fun _ _ => True) (createInitialState {} uncleaned 5 ∅) s :=
    follow_runs hfollow fun _ _ _ _ _ _ => trivial
  obtain ⟨answered, hanswers⟩ := answers_of_runs hruns
  refine ⟨s, act, s', _, .step hanswers trivial hstep, hstep, ?_, hcommit, ?_⟩
  · intro hfresh
    rw [hfresh hphase hrole] at hinvoked
    cases hinvoked
  · intro hanswered
    exact hanswered.1 (.inl hphase)

end RalphWorkflow.CommitEntry
