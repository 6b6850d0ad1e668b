import RalphWorkflow.Proof.Movement.Controller

/-! The ledger of a state is where it is, how it got there, and its accounts. A reduced event edits it in few ways, and each edit says what permits
it. -/
namespace RalphWorkflow.Accounts
open Lib Policy Recovery Movement
open Pipeline Pipeline.Reducer

structure Ledger where
  phase : String
  previous : Option String
  entry : String
  loops : Dict String Int
  pending : Option CycleOutcome
  commit : CommitState
  progress : Dict String Int
  caps : Dict String Int
  override : Option String

def ledger (s : PipelineState) : Ledger where
  phase := s.phase
  previous := s.previousPhase
  entry := s.policyEntryPhase
  loops := s.loopIterations
  pending := s.pendingCycleOutcome
  commit := s.commit
  progress := s.outerProgress
  caps := s.budgetCaps
  override := s.postCommitPhaseOverride

def Ledger.enter (l : Ledger) (target : String) (policy : PipelinePolicy) : Ledger :=
  { l with
    phase := target
    previous := some l.phase
    commit := if phaseHasRole policy target .commit then {} else l.commit }

/-! ## What an event asks for -/

def isCommitOutcome : Event → Bool
  | .pipeline .commitSuccess | .pipeline .commitSkipped => true
  | _ => false

/-- The event follows the success transition; a successful agent of a commit phase does not. -/
def followsSuccess (s : PipelineState) (policy : PipelinePolicy) : Event → Bool
  | .pipeline .agentSuccess => !phaseHasRole policy s.phase .commit || s.commit.agentInvoked
  | .pipeline .analysisSuccess | .pipeline .reviewClean | .pipeline .fixSuccess | .pipeline .phaseAdvance
  | .pipeline .allWorkersComplete | .executionResult .. => true
  | _ => false

def decisionRoute (policy : PipelinePolicy) : Event → Option PhaseDecisionRoute
  | .analysisDecision phase decision =>
    (policy.phases.get? phase).bind fun phaseDef => phaseDef.decisions.get? decision
  | _ => none

/-- The phases that reducing the event in `s` can ask the transition seam for. -/
inductive Requests (policy : PipelinePolicy) (s : PipelineState) (event : Event) : String → Prop
  | failure : Requests policy s event policy.recovery.failedRoute
  | success {target : String} (follows : followsSuccess s policy event = true)
      (next : resolveNextPhase s.phase .success policy = .ok target) : Requests policy s event target
  | setback {signal : Signal} {target : String} (unsuccessful : signal ≠ .success)
      (next : resolveNextPhase s.phase signal policy = .ok target) : Requests policy s event target
  | decision {route : PhaseDecisionRoute} (matched : decisionRoute policy event = some route) :
      Requests policy s event route.target
  | bypass {phaseDef : PhaseDefinition} {outcome target : String} (declared : policy.phases.get? s.phase = some phaseDef)
      (route : phaseDef.bypassRoutes.get? outcome = some target) : Requests policy s event target
  | fallback {phase : String} {fallback : PhaseWorkflowFallback}
      (declared : (policy.phases.get? phase).bind PhaseDefinition.workflowFallback = some fallback) :
      Requests policy s event fallback.target
  | committed {skipped : Bool} {target : String} (commits : isCommitOutcome event = true)
      (next : resolvePostCommitPhase (applyCommitOutcome s s skipped policy) policy = .ok target) :
      Requests policy s event target
  | gated {skipped : Bool} {target : String} {phaseDef : PhaseDefinition} (commits : isCommitOutcome event = true)
      (next : resolvePostCommitPhase (applyCommitOutcome s s skipped policy) policy = .ok target)
      (declared : policy.phases.get? target = some phaseDef) (gate : phaseDef.invocationGate.isSome = true) :
      Requests policy s event phaseDef.transitions.onSuccess
  | deadline {ct : CycleTimeboxPolicy} (timebox : policy.cycleTimebox = some ct) :
      Requests policy s event ct.finalizationTarget
  | again : Requests policy s event s.phase
  | finish (completes : event = .pipeline .complete) : Requests policy s event policy.terminalPhase

/-- From a looping phase the seam can go to its success target, and from the guarded phase to finalization. -/
def SeamStep (policy : PipelinePolicy) (phase next : String) : Prop :=
  PassStep policy phase next ∨
    ∃ ct, policy.cycleTimebox = some ct ∧ phase = ct.guardedEntry ∧ next = ct.finalizationTarget

def Lands (policy : PipelinePolicy) : String → String → Prop := Relation.ReflTransGen (SeamStep policy)

theorem Lands.of_passed {policy : PipelinePolicy} {phase next : String} (h : PassedOver policy phase next) : Lands policy phase next := by
  induction h with
  | refl => exact .refl
  | tail _ hpass ih => exact ih.tail (.inl hpass)

theorem Lands.of_timebox (s : PipelineState) (target : String) (policy : PipelinePolicy)
    (timing : Option RoutingTiming) : Lands policy target (applyCycleTimebox s target policy timing).targetPhase := by
  rcases Frame.applyCycleTimebox_target s target policy timing with h | ⟨ct, hct, hguarded, h⟩
  · rw [h]
    exact .refl
  · rw [h]
    exact .single (.inr ⟨ct, hct, hguarded, rfl⟩)

/-! ## Edits -/

def Bounded (policy : PipelinePolicy) (field : String) (value : Int) : Prop :=
  ∀ cap, resolveAnalysisCap field policy = .ok cap → 0 ≤ value ∧ value ≤ cap

/-- One edit that reducing the event in `s` can make. A controller built for another policy fails by that one. -/
inductive Edit (policy : PipelinePolicy) (controller : Option RecoveryController) (s : PipelineState) (event : Event) :
    Ledger → Ledger → Prop
  | counts {l : Ledger} {field : String} {value : Int} (bounded : Bounded policy field value) :
      Edit policy controller s event l { l with loops := l.loops.set field value }
  | stamps {l : Ledger} {outcome : CycleOutcome} (unset : l.pending = none) :
      Edit policy controller s event l { l with pending := some outcome }
  | records {l : Ledger} {route : PhaseDecisionRoute} {outcome : CycleOutcome}
      (matched : decisionRoute policy event = some route) (declares : route.cycleOutcome = some outcome) :
      Edit policy controller s event l { l with pending := some outcome }
  | closes {l : Ledger} (commits : isCommitOutcome event = true) (closing : commitClosesACycle s.phase policy = true) :
      Edit policy controller s event l { l with pending := none }
  | overrides {l : Ledger} {phaseDef : PhaseDefinition} {phase status : String}
      (executed : event = .executionResult phase status) (declared : policy.phases.get? s.phase = some phaseDef) :
      Edit policy controller s event l { l with override := phaseDef.resultStatusPostCommit.get? status }
  | consumes {l : Ledger} (commits : isCommitOutcome event = true) : Edit policy controller s event l { l with override := none }
  | invokes {l : Ledger} (succeeds : event = .pipeline .agentSuccess) (here : l.phase = s.phase)
      (role : phaseHasRole policy s.phase .commit = true) :
      Edit policy controller s event l { l with commit := { l.commit with agentInvoked := true } }
  | progresses {l : Ledger} {counter : String} :
      Edit policy controller s event l { l with progress := l.progress.set counter (l.progress.getD counter 0 + 1) }
  | enters {l : Ledger} {requested landed : String} (requests : Requests policy s event requested)
      (lands : Lands policy requested landed) : Edit policy controller s event l (l.enter landed policy)
  | strays {l : Ledger} {target : String} {other : PipelinePolicy} {rc : RecoveryController}
      (present : controller = some rc) (foreign : ¬ ServesPolicy policy rc) :
      Edit policy controller s event l (l.enter target other)

def Edits (policy : PipelinePolicy) (controller : Option RecoveryController) (s : PipelineState) (event : Event) : Ledger → Ledger → Prop :=
  Relation.ReflTransGen (Edit policy controller s event)

section

variable {policy : PipelinePolicy} {controller : Option RecoveryController} {s : PipelineState} {event : Event}

theorem Edits.refl (l : Ledger) : Edits policy controller s event l l := Relation.ReflTransGen.refl

theorem Edits.of_eq {l l' : Ledger} (h : l' = l) : Edits policy controller s event l l' := by
  rw [h]
  exact Edits.refl l

theorem Edits.trans {l₁ l₂ l₃ : Ledger} (h : Edits policy controller s event l₁ l₂) (h' : Edits policy controller s event l₂ l₃) :
    Edits policy controller s event l₁ l₃ := Relation.ReflTransGen.trans h h'

theorem Edits.single {l l' : Ledger} (h : Edit policy controller s event l l') : Edits policy controller s event l l' :=
  Relation.ReflTransGen.single h

def EditsTo (policy : PipelinePolicy) (controller : Option RecoveryController) (s : PipelineState) (event : Event)
    (t : PipelineState) (handled : Handled) : Prop :=
  ∀ t' effects, handled = .ok (t', effects) → Edits policy controller s event (ledger t) (ledger t')

theorem editsTo_ok {t t' : PipelineState} (h : Edits policy controller s event (ledger t) (ledger t')) (effects : List Effect) :
    EditsTo policy controller s event t (.ok (t', effects)) := by
  intro u effects' hok
  cases hok
  exact h

section

variable (t : PipelineState)

theorem editsTo_error (e : PyError) : EditsTo policy controller s event t (.error e) := by
  intro u effects hok
  cases hok

theorem EditsTo.after {t t₁ : PipelineState} {handled : Handled} (h : Edits policy controller s event (ledger t) (ledger t₁))
    (h' : EditsTo policy controller s event t₁ handled) : EditsTo policy controller s event t handled := by
  intro u effects hok
  exact h.trans (h' u effects hok)

theorem EditsTo.bind {t : PipelineState} {handled : Handled} {f : PipelineState × List Effect → Handled}
    (h : EditsTo policy controller s event t handled)
    (hf : ∀ r u effects, f r = .ok (u, effects) → Edits policy controller s event (ledger r.1) (ledger u)) :
    EditsTo policy controller s event t (handled >>= f) := by
  intro u effects hok
  obtain ⟨⟨t₁, effects₁⟩, hhandled, hrest⟩ := (bind_eq_ok_iff _ _ _).mp hok
  exact (h t₁ effects₁ hhandled).trans (hf _ u effects hrest)

theorem EditsTo.catchValueError {t : PipelineState} {handled : Handled} {handler : String → Handled}
    (h : EditsTo policy controller s event t handled) (h' : ∀ text, EditsTo policy controller s event t (handler text)) :
    EditsTo policy controller s event t (Lib.catchValueError handled handler) := by
  intro u effects hok
  unfold Lib.catchValueError at hok
  split at hok
  · exact h' _ u effects hok
  · exact h u effects hok

/-! ## The transition seam -/

theorem resets (field : String) : Edits policy controller s event (ledger t) (ledger (t.withLoopIteration field 0)) := by
  refine .single (.counts ?_)
  intro cap _
  omega

theorem stampForwardOutcome_edits (phase : String) :
    Edits policy controller s event (ledger t) (ledger (stampForwardOutcome t phase policy)) := by
  unfold stampForwardOutcome
  split
  · exact .single (.stamps ‹_›)
  · exact .refl _

theorem applyCycleTimebox_edits (target : String) (timing : Option RoutingTiming) :
    Edits policy controller s event (ledger t) (ledger (applyCycleTimebox t target policy timing).state) := by
  rcases applyCycleTimebox_cases t target policy timing with h | ⟨ct, time, _, _, h⟩
  · rw [h]
    exact .refl _
  · rcases h with ⟨_, _, h⟩ | ⟨_, _, _, h⟩ | ⟨_, _, _, h⟩
    · rw [h]
      exact .of_eq rfl
    · rw [h]
      exact .of_eq rfl
    · rw [h]
      cases hpending : t.pendingCycleOutcome with
      | none =>
        have hedit : Edit policy controller s event (ledger t) { ledger t with pending := some ct.finalizationCycleOutcome } :=
          .stamps hpending
        refine Edits.trans (.single hedit) (.of_eq ?_)
        simp only [ledger, concludedByRedirect, hpending, Option.getD_none]
      | some outcome =>
        refine .of_eq ?_
        simp only [ledger, concludedByRedirect, hpending, Option.getD_some]

theorem bypassFrom_edits {fuel : Nat} {t : PipelineState} {target : String} {skipped : List ExhaustedAnalysisSkip}
    {visited : List String} {bypass : ExhaustedAnalysisBypassResult}
    (h : exhaustedAnalysisBypassFrom policy fuel t target skipped visited = .ok bypass) :
    Edits policy controller s event (ledger t) (ledger bypass.state) := by
  refine exhaustedAnalysisBypassFrom_invariant (fun state _ _ => Edits policy controller s event (ledger t) (ledger state)) ?_ (.refl _) h
  intro state phase _ skip next hedits hskip
  obtain ⟨loopPolicy, _, _, _, _, _, rfl⟩ := skipIfExhausted_eq_some hskip
  refine hedits.trans ((resets state loopPolicy.iterationStateField).trans ?_)
  exact stampForwardOutcome_edits
    { state.withLoopIteration loopPolicy.iterationStateField 0 with reviewOutcome := none } phase

theorem withBypassedCycleTiming_edits (bypass : ExhaustedAnalysisBypassResult) (timing : Option RoutingTiming) (justStarted : Bool) :
    Edits policy controller s event (ledger bypass.state) (ledger (withBypassedCycleTiming bypass policy timing justStarted).1) ∧
      Lands policy bypass.targetPhase (withBypassedCycleTiming bypass policy timing justStarted).2 := by
  unfold withBypassedCycleTiming
  split
  · exact ⟨.refl _, .refl⟩
  · dsimp only
    refine ⟨(applyCycleTimebox_edits bypass.state bypass.targetPhase timing).trans (.of_eq ?_),
      Lands.of_timebox bypass.state bypass.targetPhase policy timing⟩
    unfold startCycleForBypassedStartSource
    split
    · rfl
    · split <;> rfl

theorem concludeCycle_ledger (next : String) : ledger (concludeCycleOnRouteOutOfCycle t next policy) = ledger t := by
  unfold concludeCycleOnRouteOutOfCycle
  split
  · rfl
  · split <;> rfl

end

theorem preparePhaseAdvance_edits {t prepared : PipelineState} {target landed : String} {timing : Option RoutingTiming}
    (h : preparePhaseAdvance t target policy timing = .ok (prepared, landed)) :
    Edits policy controller s event (ledger t) (ledger prepared) ∧ Lands policy target landed := by
  obtain ⟨bypass, hbypass, hprepared⟩ := preparePhaseAdvance_eq_ok h
  have htimebox := @applyCycleTimebox_edits policy controller s event t target timing
  have hpassed := Lands.of_passed (resolvesBypass_passes hbypass).2.1
  have hbypassed : Edits policy controller s event (ledger (applyCycleTimebox t target policy timing).state) (ledger bypass.state) := by
    rcases hbypass with hown | ⟨_, hplain⟩
    · exact bypassFrom_edits (ownBypass_eq_some_iff.mp hown).2.2.1
    · exact bypassFrom_edits hplain
  obtain ⟨htimed, hlands⟩ := withBypassedCycleTiming_edits (s := s) bypass timing
    (applyCycleTimebox t target policy timing).timingStarted
  obtain ⟨hstate, hphase⟩ := Prod.mk.inj hprepared
  constructor
  · rw [← hstate, concludeCycle_ledger]
    exact htimebox.trans (hbypassed.trans htimed)
  · rw [← hphase]
    exact (Lands.of_timebox t target policy timing).trans (hpassed.trans hlands)

theorem editsTo_advance {target : String} (hrequests : Requests policy s event target) (t : PipelineState)
    (timing : Option RoutingTiming) : EditsTo policy controller s event t (Reducer.advancePhase t target policy timing) := by
  intro u effects hok
  obtain ⟨prepared, landed, hprepare, rfl⟩ := advancePhase_eq_ok hok
  obtain ⟨hedits, hlands⟩ := preparePhaseAdvance_edits hprepare
  exact hedits.trans (.single (.enters hrequests hlands))

end

end RalphWorkflow.Accounts
