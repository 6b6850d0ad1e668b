import RalphWorkflow.Proof.Accounts.Edits

/-! Every handler edits the ledger in the ways of `Edit`, so a result about counters, verdicts, commits or budgets is read
off the edits. -/
namespace RalphWorkflow.Accounts
open Lib Policy Recovery Movement
open Pipeline Pipeline.Reducer

section

variable {policy : PipelinePolicy} {controller : Option RecoveryController} {timing : Option RoutingTiming}
  {s : PipelineState} {event : Event}

/-! ## Charges -/

theorem nextCompleted_bounded {field : String} {cap : Nat} (hcap : resolveAnalysisCap field policy = .ok cap)
    (completed : Int) : Bounded policy field (AnalysisLoopCounter.mk completed cap).nextCompleted := by
  intro cap' hcap'
  rw [hcap] at hcap'
  cases hcap'
  unfold AnalysisLoopCounter.nextCompleted
  dsimp only
  omega

variable {t t' : PipelineState} {phase : String} {rc : RecoveryController}

theorem chargeExecutionCycle_edits {counted : PipelineState}
    (h : chargeExecutionCycle counted t phase policy = .ok t') : Edits policy controller s event (ledger t) (ledger t') := by
  unfold chargeExecutionCycle at h
  split at h
  · cases h
    exact .refl _
  · obtain ⟨cap, hcap, hresult⟩ := (bind_eq_ok_iff _ _ _).mp h
    cases hresult
    exact .single (.counts (nextCompleted_bounded hcap _))

theorem loopback_edits {field : String} {cap : Nat}
    (hcap : resolveAnalysisCap field policy = .ok cap) (outcome : Option String) (increment : Bool) :
    Edits policy controller s event (ledger t) (ledger (applyAnalysisLoopback t t field cap outcome increment)) := by
  have hcounted : Edits policy controller s event (ledger t) (ledger (if increment then
      t.withLoopIteration field (AnalysisLoopCounter.mk (t.getLoopIteration field) cap).nextCompleted else t)) := by
    split
    · exact .single (.counts (nextCompleted_bounded hcap _))
    · exact .refl _
  unfold applyAnalysisLoopback
  dsimp only
  split <;> exact hcounted

theorem budgetIncrement_edits (hprogress : t'.outerProgress = t.outerProgress) (counter : Option String) :
    Edits policy controller s event (ledger t') (ledger (applyBudgetCounterIncrement t t' counter)) := by
  unfold applyBudgetCounterIncrement
  cases counter with
  | none => exact .refl _
  | some counter =>
    dsimp only
    split
    · exact .refl _
    · refine .trans (.single (@Edit.progresses _ _ _ _ _ counter)) (.of_eq ?_)
      unfold PipelineState.withOuterProgress PipelineState.getOuterProgress ledger
      rw [← hprogress]

theorem restoreWorkUnits_ledger (t t' : PipelineState) : ledger (t.restoreWorkUnits t') = ledger t' := by
  unfold PipelineState.restoreWorkUnits
  split <;> rfl

/-! ## Routing -/

theorem editsTo_failedRecovery (t : PipelineState) (reason : String) :
    EditsTo policy controller s event t (enterFailedRecovery t reason policy) := by
  intro u effects hok
  obtain ⟨charged, hcharge, hresult⟩ := (bind_eq_ok_iff _ _ _).mp hok
  cases hresult
  have hentered : Edits policy controller s event (ledger t) ((ledger t).enter policy.recovery.failedRoute policy) :=
    .single (.enters .failure .refl)
  exact hentered.trans (chargeExecutionCycle_edits hcharge)

theorem editsTo_resolveOrTerminal (hphase : t.phase = s.phase) {signal : Signal}
    (hfollows : signal = .success → followsSuccess s policy event = true) (label : String) :
    EditsTo policy controller s event t (resolveOrTerminal t signal policy label timing) := by
  unfold resolveOrTerminal
  split
  · exact editsTo_failedRecovery t _
  · exact editsTo_error t _
  · rename_i next hnext
    rw [hphase] at hnext
    refine editsTo_advance ?_ t timing
    by_cases hsignal : signal = .success
    · rw [hsignal] at hnext
      exact .success (hfollows hsignal) hnext
    · exact .setback hsignal hnext

theorem editsTo_takeWorkflowFallback {fallback : PhaseWorkflowFallback}
    (hdeclared : (policy.phases.get? phase).bind PhaseDefinition.workflowFallback = some fallback) (t : PipelineState)
    (lastError : Option String) : EditsTo policy controller s event t (takeWorkflowFallback t fallback lastError policy timing) := by
  intro u effects hok
  obtain ⟨⟨prepared, landed⟩, hprepare, hrest⟩ := (bind_eq_ok_iff _ _ _).mp hok
  obtain ⟨charged, hcharge, hresult⟩ := (bind_eq_ok_iff _ _ _).mp hrest
  cases hresult
  obtain ⟨hedits, hlands⟩ := preparePhaseAdvance_edits (s := s) hprepare
  refine hedits.trans (.trans (.single (.enters (.fallback hdeclared) hlands)) ?_)
  exact chargeExecutionCycle_edits hcharge

theorem editsTo_redirect (hphase : t.phase = s.phase) {expired : Handled}
    (h : redirectExpiredCycleInPlace t policy timing = some expired) : EditsTo policy controller s event t expired := by
  unfold redirectExpiredCycleInPlace at h
  dsimp only at h
  split at h
  · cases h
    refine EditsTo.after (applyCycleTimebox_edits t t.phase timing) (editsTo_advance ?_ _ timing)
    rcases Frame.applyCycleTimebox_target t t.phase policy timing with htarget | ⟨ct, hct, _, htarget⟩
    · rw [htarget, hphase]
      exact .again
    · rw [htarget]
      exact .deadline hct
  · cases h

/-! ## Failures -/

theorem editsTo_agentChainExhausted (t : PipelineState) (chain : AgentChainState) :
    EditsTo policy controller s event t (agentChainExhausted t chain policy timing) := by
  unfold agentChainExhausted
  split
  · exact editsTo_takeWorkflowFallback ‹_› t _
  · exact editsTo_failedRecovery t _

theorem retryOrFallOver_ledger {chain : AgentChainState} (h : retryOrFallOver t chain = some t') : ledger t' = ledger t := by
  unfold retryOrFallOver at h
  split at h
  · cases h
    rfl
  · split at h
    · cases h
      rfl
    · cases h

theorem selectionAttempt_ledger {chain : AgentChainState} {selection : Option Nat}
    {rc' : RecoveryController} (h : selectionAttempt t chain selection rc = (some t', rc')) : ledger t' = ledger t := by
  unfold selectionAttempt at h
  split at h
  · cases h
    unfold retryOrFallOverTo
    split <;> rfl
  · unfold allAgentsUnavailableWaitState at h
    dsimp only at h
    split at h
    · cases h
      rfl
    · cases h

theorem controlledAttempt_ledger {chain : AgentChainState} {spent : Bool}
    {rc' : RecoveryController} (h : controlledAttempt t chain spent rc = (some t', rc')) : ledger t' = ledger t :=
  selectionAttempt_ledger h

theorem editsTo_skipSameAgentRetries (t : PipelineState) (chain : AgentChainState) (recovery : Option RecoveryController) :
    EditsTo policy controller s event t (handleSkipSameAgentRetries t chain policy recovery).result := by
  have hforward : EditsTo policy controller s event t (if chain.currentIndex + 1 < chain.agents.length then
        .ok ({ t.withPhaseChain t.phase chain.withAdvance with
               metrics := t.metrics.withFallbackIncrement
               lastAgentSessionId := none
               agentRetryIntent := clearedAgentRetryIntent }, [])
      else
        enterFailedRecovery t
          (failureReason t
            (s!"Agent chain exhausted in phase='{t.phase}' after " ++
              "context-exhausted agent requested fallback")) policy) := by
    split
    · exact editsTo_ok (.of_eq rfl) _
    · exact editsTo_failedRecovery t _
  unfold handleSkipSameAgentRetries
  dsimp only
  split
  · exact hforward
  · split
    · exact editsTo_error t _
    · split
      · exact editsTo_ok (.of_eq (controlledAttempt_ledger ‹_›)) _
      · exact hforward

theorem editsTo_agentFailure (hphase : t.phase = s.phase) (recovery : Option RecoveryController) :
    EditsTo policy controller s event t (handleAgentFailure t policy timing recovery).result := by
  unfold handleAgentFailure
  split
  · exact editsTo_failedRecovery t _
  · rename_i chain _
    split
    · exact editsTo_redirect hphase ‹_›
    · split
      · exact editsTo_skipSameAgentRetries t chain recovery
      · split
        · split
          · exact editsTo_ok (.of_eq (retryOrFallOver_ledger ‹_›)) _
          · exact editsTo_agentChainExhausted t chain
        · split
          · exact editsTo_ok (.of_eq (controlledAttempt_ledger ‹_›)) _
          · exact editsTo_agentChainExhausted t chain

theorem editsTo_agentRetry : EditsTo policy controller s event s (handleAgentRetry s policy timing) := by
  unfold handleAgentRetry
  split
  · exact editsTo_redirect rfl ‹_›
  · split
    · exact editsTo_error s _
    · exact editsTo_ok (.of_eq rfl) _

theorem editsTo_handlePhaseFailure (failure : PhaseFailureEvent) :
    EditsTo policy controller s event s (handlePhaseFailure s failure policy timing) := by
  unfold handlePhaseFailure
  dsimp only
  split
  · refine EditsTo.after (.of_eq ?_) (editsTo_agentFailure ?_ none)
    · rfl
    · rfl
  · split
    · exact editsTo_takeWorkflowFallback ‹_› s _
    · exact editsTo_failedRecovery s _

theorem ledger_of_forget (h : forgetRecovery t' = forgetRecovery t) : ledger t' = ledger t := by
  have hledger := congrArg ledger h
  exact hledger

theorem serves_some (rc : RecoveryController) (policy : PipelinePolicy) : ∃ own, ServesPolicy own rc := by
  cases hbundle : rc.policyBundle with
  | none => exact ⟨policy, fun bundle h => by rw [hbundle] at h; cases h⟩
  | some own => exact ⟨own.pipeline, fun bundle h => by rw [hbundle] at h; cases h; rfl⟩

theorem handle_edits (hrc : controller = some rc) {raw : RawFailure}
    {context : FailureContext} {effects : List Effect} (h : (rc.handle t raw context).result = .ok (t', effects)) :
    Edits policy controller s event (ledger t) (ledger t') := by
  by_cases hserves : ServesPolicy policy rc
  · rcases handle_regains hserves t' effects h with hsame | hfailed
    · exact .of_eq (ledger_of_forget hsame)
    · rw [ledger_of_forget hfailed]
      exact .single (.enters .failure .refl)
  · obtain ⟨own, hown⟩ := serves_some rc policy
    rcases handle_regains hown t' effects h with hsame | hfailed
    · exact .of_eq (ledger_of_forget hsame)
    · rw [ledger_of_forget hfailed]
      exact .single (.strays hrc hserves)

theorem editsTo_throughController (hrc : controller = some rc) (raw : RawFailure)
    (context : FailureContext) : EditsTo policy controller s event s (recoverThroughController s raw context policy rc).result := by
  intro u effects hok
  obtain ⟨⟨t₁, effects₁⟩, hhandle, hrest⟩ := (bind_eq_ok_iff _ _ _).mp hok
  obtain ⟨charged, hcharge, hresult⟩ := (bind_eq_ok_iff _ _ _).mp hrest
  cases hresult
  rw [restoreWorkUnits_ledger]
  refine (handle_edits hrc hhandle).trans ?_
  unfold chargeIfLeft at hcharge
  split at hcharge
  · cases hcharge
    exact .refl _
  · exact chargeExecutionCycle_edits hcharge

theorem editsTo_phaseFailure (failure : PhaseFailureEvent) :
    EditsTo policy controller s event s (reducePhaseFailure s failure policy controller timing).result := by
  unfold reducePhaseFailure
  cases controller with
  | none => exact editsTo_handlePhaseFailure failure
  | some rc =>
    dsimp only
    split
    · exact editsTo_redirect rfl ‹_›
    · exact editsTo_throughController rfl _ _

theorem editsTo_restoring {handled : Handled} (h : EditsTo policy controller s event t handled) :
    EditsTo policy controller s event t (restoring s handled) := by
  refine h.bind ?_
  intro r u effects hok
  cases hok
  exact .of_eq (restoreWorkUnits_ledger s r.1)

theorem editsTo_reduceAgentFailure : EditsTo policy controller s event s (reduceAgentFailure s policy controller timing).result := by
  unfold reduceAgentFailure
  refine editsTo_restoring ?_
  cases controller with
  | none => exact editsTo_agentFailure rfl none
  | some rc =>
    dsimp only
    have hplain := @editsTo_agentFailure policy (some rc) timing s event _ rfl (some rc)
    unfold reduceCapturedAgentFailure
    split
    · exact hplain
    · split
      · exact editsTo_redirect rfl ‹_›
      · cases capturedFailure s.agentRetryIntent _ with
        | none => exact hplain
        | some exc => exact editsTo_throughController rfl _ _

/-! ## Results, reviews and decisions -/

theorem editsTo_analysisSuccess (hphase : t.phase = s.phase) (hfollows : followsSuccess s policy event = true) :
    EditsTo policy controller s event t (handleAnalysisSuccess t policy timing) := by
  refine EditsTo.catchValueError ?_ fun text => editsTo_failedRecovery t _
  intro u effects hok
  obtain ⟨next, hnext, hrest⟩ := (bind_eq_ok_iff _ _ _).mp hok
  rw [hphase] at hnext
  obtain ⟨⟨t₁, effects₁⟩, hadvance, hresult⟩ := (bind_eq_ok_iff _ _ _).mp hrest
  cases hresult
  have hadvanced := @EditsTo.after _ controller _ _ _ _ _ (stampForwardOutcome_edits t t.phase)
    (editsTo_advance (.success hfollows hnext) _ timing) t₁ effects hadvance
  have hstamped : (stampForwardOutcome t t.phase policy).outerProgress = t.outerProgress :=
    (Frame.stampForwardOutcome_frame t t.phase policy).1.outerProgress
  have hprogress : t₁.outerProgress = t.outerProgress := by
    obtain ⟨prepared, landed, hprepare, rfl⟩ := advancePhase_eq_ok hadvance
    exact (Frame.preparePhaseAdvance_frame hprepare).outerProgress.trans hstamped
  have hreset : Edits policy controller s event (ledger t₁) (ledger (applyAnalysisSuccess (stampForwardOutcome t t.phase policy) t₁ policy)) := by
    unfold applyAnalysisSuccess
    dsimp only
    split
    · exact resets { t₁ with reviewOutcome := none } _
    · exact .of_eq rfl
  refine hadvanced.trans (hreset.trans (budgetIncrement_edits ?_ _))
  unfold applyAnalysisSuccess
  dsimp only
  split <;> exact hprogress

theorem editsTo_agentSuccess (hevent : event = .pipeline .agentSuccess) :
    EditsTo policy controller s event s (handleAgentSuccess s policy timing) := by
  have hrole : ∀ {phaseDef : PhaseDefinition}, policy.phases.get? s.phase = some phaseDef →
      phaseHasRole policy s.phase .commit = (phaseDef.role == some .commit) := by
    intro phaseDef hphase
    unfold phaseHasRole
    rw [hphase]
  unfold handleAgentSuccess
  generalize hstate : (if 0 < s.lastRetryDelayMs then { s with lastRetryDelayMs := 0 } else s) = t
  have hledger : ledger t = ledger s := by
    rw [← hstate]
    split <;> rfl
  have hphase : t.phase = s.phase := congrArg Ledger.phase hledger
  have hcommit : t.commit = s.commit := congrArg Ledger.commit hledger
  refine EditsTo.after (.of_eq hledger) ?_
  dsimp only
  split
  · exact editsTo_failedRecovery t _
  · rename_i phaseDef hdeclared
    rw [hphase] at hdeclared
    split
    · rename_i hcommits
      have hinvokes : Edit policy controller s event (ledger t) { ledger t with commit := { (ledger t).commit with agentInvoked := true } } := by
        refine .invokes hevent hphase ?_
        rw [hrole hdeclared, hcommits.1]
        rfl
      exact editsTo_ok (.single hinvokes) _
    · rename_i hcommits
      have hfollows : followsSuccess s policy event = true := by
        rw [hevent]
        unfold followsSuccess
        rw [hrole hdeclared]
        by_cases hinvoked : s.commit.agentInvoked = true
        · rw [hinvoked, Bool.or_true]
        · have hother : phaseDef.role ≠ some .commit := by
            intro hrole'
            exact hcommits ⟨hrole', by rw [hcommit]; exact Bool.eq_false_iff.mpr hinvoked⟩
          rw [beq_eq_false_iff_ne.mpr hother]
          rfl
      split
      · exact editsTo_analysisSuccess hphase hfollows
      · exact editsTo_resolveOrTerminal hphase (fun _ => hfollows) _

theorem editsTo_executionResult {status : String} (hevent : event = .executionResult phase status) :
    EditsTo policy controller s event s (handleExecutionResult s phase status policy timing) := by
  unfold handleExecutionResult
  split
  · exact editsTo_failedRecovery s _
  · rename_i hphase
    have hsame : phase = s.phase := not_ne_iff.mp hphase
    split
    · exact editsTo_failedRecovery s _
    · rename_i phaseDef hdeclared
      rw [hsame] at hdeclared
      split
      · have hoverrides : Edit policy controller s event (ledger s)
            { ledger s with override := phaseDef.resultStatusPostCommit.get? status } := .overrides hevent hdeclared
        intro u effects hok
        refine Edits.trans (.single hoverrides) (editsTo_resolveOrTerminal ?_ ?_ _ u effects hok)
        · rfl
        · intro _
          rw [hevent]
          rfl
      · exact editsTo_failedRecovery s _

theorem editsTo_cappedPhaseLoopback (loopPolicy : PhaseLoopPolicy) (outcome : Option String) :
    EditsTo policy controller s event s (handleCappedPhaseLoopback s policy loopPolicy outcome timing) := by
  intro u effects hok
  obtain ⟨cap, hcap, hrest⟩ := (bind_eq_ok_iff _ _ _).mp hok
  have hcounted := @loopback_edits _ controller s event s _ _ hcap outcome
    (!analysisLoopbackIsAlreadyCharged s.phase s policy)
  refine hcounted.trans ?_
  dsimp only at hrest
  split at hrest
  · exact editsTo_failedRecovery _ _ u effects hrest
  · cases hrest
  · rename_i target htarget
    refine editsTo_advance (.setback ?_ htarget) _ timing u effects hrest
    decide

theorem editsTo_loopback (label : String) : EditsTo policy controller s event s (resolveOrTerminal s .loopback policy label timing) := by
  refine editsTo_resolveOrTerminal rfl ?_ label
  intro hsignal
  cases hsignal

theorem editsTo_analysisLoopback : EditsTo policy controller s event s (handleAnalysisLoopback s policy timing) := by
  unfold handleAnalysisLoopback
  split
  · exact editsTo_failedRecovery s _
  · split
    · split
      · exact editsTo_cappedPhaseLoopback _ _
      · exact editsTo_loopback _
    · exact editsTo_loopback _

theorem editsTo_phaseLoopback : EditsTo policy controller s event s (handlePhaseLoopback s policy timing) := by
  unfold handlePhaseLoopback
  split
  · exact editsTo_failedRecovery s _
  · split
    · exact editsTo_cappedPhaseLoopback _ _
    · exact editsTo_loopback _

theorem countDecision_edits {counted : PipelineState} {phaseDef : PhaseDefinition}
    {route : PhaseDecisionRoute} (h : countDecision s phase phaseDef route policy = .ok counted) :
    Edits policy controller s event (ledger s) (ledger counted) ∧ counted.outerProgress = s.outerProgress := by
  unfold countDecision at h
  split at h
  · cases h
    exact ⟨.refl _, rfl⟩
  · split at h
    · cases h
      exact ⟨resets s _, rfl⟩
    · obtain ⟨cap, hcap, hresult⟩ := (bind_eq_ok_iff _ _ _).mp h
      cases hresult
      refine ⟨loopback_edits hcap _ _, ?_⟩
      unfold applyAnalysisLoopback
      dsimp only
      split <;> split <;> rfl

theorem recordDecision_edits {counted : PipelineState} {route : PhaseDecisionRoute}
    (hmatched : decisionRoute policy event = some route) (hprogress : counted.outerProgress = s.outerProgress) :
    Edits policy controller s event (ledger counted) (ledger (recordDecision s counted route)) := by
  have hcharged := @budgetIncrement_edits policy controller s event _ _ hprogress route.incrementsCounter
  unfold recordDecision
  dsimp only
  split
  · exact hcharged.trans (.single (.records hmatched ‹_›))
  · exact hcharged

theorem editsTo_analysisDecision {decision : String} (hevent : event = .analysisDecision phase decision) :
    EditsTo policy controller s event s (handleAnalysisDecision s phase decision policy timing) := by
  unfold handleAnalysisDecision
  split
  · exact editsTo_failedRecovery s _
  · rename_i phaseDef hdeclared
    split
    · exact editsTo_failedRecovery s _
    · rename_i route hroute
      have hmatched : decisionRoute policy event = some route := by
        rw [hevent]
        unfold decisionRoute
        dsimp only
        rw [hdeclared]
        exact hroute
      intro u effects hok
      obtain ⟨counted, hcount, hrest⟩ := (bind_eq_ok_iff _ _ _).mp hok
      obtain ⟨hcounted, hprogress⟩ := countDecision_edits hcount
      refine hcounted.trans ((recordDecision_edits hmatched hprogress).trans ?_)
      dsimp only at hrest
      split at hrest
      · exact editsTo_failedRecovery _ _ u effects hrest
      · obtain ⟨⟨t₁, effects₁⟩, hadvance, hresult⟩ := (bind_eq_ok_iff _ _ _).mp hrest
        cases hresult
        rw [restoreWorkUnits_ledger]
        exact editsTo_advance (.decision hmatched) _ timing t₁ _ hadvance

theorem editsTo_clearReview {handled : Handled} (h : EditsTo policy controller s event s handled) (outcome : Option String) :
    EditsTo policy controller s event s (clearReview handled outcome) := by
  refine h.bind ?_
  intro r u effects hok
  cases hok
  exact .of_eq rfl

theorem editsTo_reviewClean (hfollows : followsSuccess s policy event = true) :
    EditsTo policy controller s event s (handleReviewClean s policy timing) := by
  unfold handleReviewClean
  dsimp only
  split
  · rename_i next hbypass
    obtain ⟨phaseDef, hdeclared, hroute⟩ := Option.bind_eq_some_iff.mp hbypass
    obtain ⟨outcome, _, hnext⟩ := Option.bind_eq_some_iff.mp hroute
    exact editsTo_clearReview (editsTo_advance (.bypass hdeclared hnext) s timing) none
  · exact editsTo_clearReview (editsTo_resolveOrTerminal rfl (fun _ => hfollows) _) none

theorem editsTo_reviewIssuesFound : EditsTo policy controller s event s (handleReviewIssuesFound s policy timing) := by
  unfold handleReviewIssuesFound
  split
  · exact editsTo_failedRecovery s _
  · split
    · exact editsTo_failedRecovery s _
    · exact editsTo_clearReview (editsTo_loopback _) _

theorem editsTo_fixFailure : EditsTo policy controller s event s (handleFixFailure s policy timing) := by
  refine EditsTo.catchValueError ?_ fun text => editsTo_failedRecovery s _
  intro u effects hok
  obtain ⟨next, hnext, hrest⟩ := (bind_eq_ok_iff _ _ _).mp hok
  split at hrest
  · exact editsTo_failedRecovery s _ u effects hrest
  · refine editsTo_advance (.setback ?_ hnext) s timing u effects hrest
    decide

/-! ## Commits -/

theorem resetLoops_edits (t : PipelineState) (fields : List String) : Edits policy controller s event (ledger t) (ledger (resetLoops t fields)) ∧
      (resetLoops t fields).outerProgress = t.outerProgress := by
  unfold resetLoops
  induction fields generalizing t with
  | nil => exact ⟨.refl _, rfl⟩
  | cons field fields ih =>
    obtain ⟨hedits, hprogress⟩ := ih (t.withLoopIteration field 0)
    exact ⟨(resets t field).trans hedits, hprogress⟩

theorem counted_edits (hprogress : t.outerProgress = s.outerProgress) (counter : String) :
    Edits policy controller s event (ledger t) (ledger (t.withOuterProgress counter (s.getOuterProgress counter + 1))) := by
  refine .trans (.single (@Edit.progresses _ _ _ _ _ counter)) (.of_eq ?_)
  unfold PipelineState.withOuterProgress PipelineState.getOuterProgress ledger
  rw [← hprogress]

theorem applyCommitOutcome_edits (skipped : Bool) :
    Edits policy controller s event (ledger s) (ledger (applyCommitOutcome s s skipped policy)) := by
  unfold applyCommitOutcome
  split
  · rename_i lifecycle _
    obtain ⟨hreset, hprogress⟩ := resetLoops_edits (s := s) s lifecycle.loopResets
    unfold applyLifecycleCompletionPolicy
    dsimp only
    split
    · exact hreset
    · split
      · exact hreset
      · exact hreset.trans (counted_edits hprogress _)
  · split
    · rename_i commitPolicy _
      obtain ⟨hreset, hprogress⟩ :=
        resetLoops_edits (s := s) s commitPolicy.loopResets
      unfold applyCommitOutcomePolicyDriven
      dsimp only
      split
      · exact hreset
      · split
        · exact hreset.trans (counted_edits hprogress _)
        · exact hreset
    · exact .refl _

theorem closeCommit_edits (hcommits : isCommitOutcome event = true) (t : PipelineState) :
    Edits policy controller s event (ledger t) (ledger (closeCommit s t policy)) := by
  have hconsumed : Edits policy controller s event (ledger t) (ledger (consumePostCommitPhaseOverride t)) :=
    .single (.consumes hcommits)
  unfold closeCommit
  dsimp only
  split
  · exact hconsumed.trans (.single (.closes hcommits ‹_›))
  · exact hconsumed

theorem applyInvocationGate_edits (hcommits : isCommitOutcome event = true) {skipped : Bool} {next : String}
    (hnext : resolvePostCommitPhase (applyCommitOutcome s s skipped policy) policy = .ok next) (t : PipelineState) :
    Requests policy s event (applyInvocationGate t next policy).1 ∧
      Edits policy controller s event (ledger t) (ledger (applyInvocationGate t next policy).2.1) := by
  unfold applyInvocationGate
  split
  · exact ⟨.committed hcommits hnext, .refl _⟩
  · rename_i phaseDef hdeclared
    split
    · exact ⟨.committed hcommits hnext, .refl _⟩
    · rename_i gate hgate
      split
      · exact ⟨.committed hcommits hnext, .refl _⟩
      · refine ⟨.gated hcommits hnext hdeclared ?_, stampForwardOutcome_edits t next⟩
        rw [hgate]
        rfl

theorem editsTo_throughGate (hcommits : isCommitOutcome event = true) {skipped : Bool} {next : String}
    (hnext : resolvePostCommitPhase (applyCommitOutcome s s skipped policy) policy = .ok next) (t : PipelineState) :
    EditsTo policy controller s event t (advanceThroughInvocationGate t next policy timing) := by
  obtain ⟨hrequests, hgated⟩ := applyInvocationGate_edits hcommits hnext t
  unfold advanceThroughInvocationGate
  generalize applyInvocationGate t next policy = gated at hrequests hgated
  obtain ⟨gatedPhase, gatedState, admitted⟩ := gated
  refine EditsTo.after hgated ?_
  refine EditsTo.bind (editsTo_advance hrequests { gatedState with lastExecutionResultStatus := none } timing) ?_
  intro r u effects hok
  dsimp only at hok
  split at hok
  · split at hok
    · obtain ⟨charged, hcharge, hresult⟩ := (bind_eq_ok_iff _ _ _).mp hok
      cases hresult
      exact chargeExecutionCycle_edits hcharge
    · cases hok
      exact .refl _
  · cases hok
    exact .refl _

theorem editsTo_commitOutcome (hcommits : isCommitOutcome event = true) (skipped : Bool) (label : String) :
    EditsTo policy controller s event s (handleCommitOutcome skipped label s policy timing) := by
  refine EditsTo.catchValueError ?_ fun text => editsTo_failedRecovery s _
  intro u effects hok
  obtain ⟨next, hnext, hrest⟩ := (bind_eq_ok_iff _ _ _).mp hok
  refine (applyCommitOutcome_edits skipped).trans ((closeCommit_edits hcommits _).trans ?_)
  exact editsTo_throughGate hcommits hnext _ u effects hrest

/-! ## Workers -/

theorem updateWorker_ledger (unitId : String) (update : WorkerState → WorkerState) : ledger (updateWorker s unitId update) = ledger s := by
  unfold updateWorker
  split <;> rfl

theorem editsTo_updateWorker (unitId : String) (update : WorkerState → WorkerState) :
    EditsTo policy controller s event s (.ok (s.restoreWorkUnits (updateWorker s unitId update), [])) := by
  refine editsTo_ok (.of_eq ?_) _
  rw [restoreWorkUnits_ledger, updateWorker_ledger]

theorem editsTo_workerFailed (unitId : String) (exitCode : Int) (error : String) : EditsTo policy controller s event s
      (dispatchWorkerFailed s unitId exitCode error policy controller timing).result := by
  unfold dispatchWorkerFailed
  split
  · exact editsTo_redirect rfl ‹_›
  · cases controller with
    | none => exact editsTo_updateWorker unitId _
    | some rc =>
      intro u effects hok
      obtain ⟨⟨t₁, effects₁⟩, hhandle, hrest⟩ := (bind_eq_ok_iff _ _ _).mp hok
      dsimp only at hrest
      split at hrest
      · cases hrest
      · cases hrest
        rw [restoreWorkUnits_ledger]
        refine Edits.trans (handle_edits rfl hhandle) (.of_eq ?_)
        rfl

theorem editsTo_allWorkersComplete (hfollows : followsSuccess s policy event = true) :
    EditsTo policy controller s event s (handleAllWorkersComplete s policy timing) := by
  unfold handleAllWorkersComplete
  dsimp only
  split
  · exact editsTo_ok (.refl _) _
  · split
    · exact editsTo_failedRecovery s _
    · split
      · exact editsTo_ok (.refl _) _
      · refine EditsTo.catchValueError ?_ fun text => editsTo_failedRecovery s _
        intro u effects hok
        obtain ⟨next, hnext, hrest⟩ := (bind_eq_ok_iff _ _ _).mp hok
        exact editsTo_advance (.success hfollows hnext) s timing u effects hrest

theorem editsTo_postFanoutVerification (success : Bool) (exitCode : Option Int) (error : Option String) :
    EditsTo policy controller s event s (reducePostFanoutVerification s success exitCode error policy) := by
  unfold reducePostFanoutVerification
  split
  · exact editsTo_ok (.refl _) _
  · refine (editsTo_failedRecovery s _).bind ?_
    intro r u effects hok
    cases hok
    exact .of_eq (restoreWorkUnits_ledger s r.1)

/-! ## The reducer -/

theorem editsTo_pipelineEvent (pipelineEvent : PipelineEvent) (hevent : event = .pipeline pipelineEvent) :
    EditsTo policy controller s event s (handlePipelineEvent s pipelineEvent policy timing) := by
  have hfollows : ∀ e, pipelineEvent = e → followsSuccess s policy (.pipeline e) = true → followsSuccess s policy event = true := by
    intro e he hsuccess
    rw [hevent, he]
    exact hsuccess
  unfold handlePipelineEvent
  cases pipelineEvent with
  | agentSuccess => exact editsTo_agentSuccess hevent
  | agentFailure => exact editsTo_agentFailure rfl none
  | agentRetry => exact editsTo_agentRetry
  | analysisSuccess => exact editsTo_analysisSuccess rfl (hfollows _ rfl rfl)
  | analysisLoopback => exact editsTo_analysisLoopback
  | phaseLoopback => exact editsTo_phaseLoopback
  | reviewClean => exact editsTo_reviewClean (hfollows _ rfl rfl)
  | reviewIssuesFound => exact editsTo_reviewIssuesFound
  | fixSuccess => exact editsTo_resolveOrTerminal rfl (fun _ => hfollows _ rfl rfl) _
  | fixFailure => exact editsTo_fixFailure
  | commitSuccess => exact editsTo_commitOutcome (by rw [hevent]; rfl) _ _
  | commitSkipped => exact editsTo_commitOutcome (by rw [hevent]; rfl) _ _
  | commitResidual => exact editsTo_advance .again s timing
  | commitFailure => exact editsTo_failedRecovery s _
  | complete => exact editsTo_ok (.single (.enters (.finish hevent) .refl)) _
  | failed => exact editsTo_failedRecovery s _
  | phaseAdvance => exact editsTo_resolveOrTerminal rfl (fun _ => hfollows _ rfl rfl) _
  | allWorkersComplete => exact editsTo_allWorkersComplete (hfollows _ rfl rfl)
  | fanOutStarted =>
    refine editsTo_ok (.of_eq ?_) _
    unfold handleFanOutStarted
    split <;> rfl
  | _ => exact editsTo_ok (.of_eq rfl) _

theorem reduce_edits : EditsTo policy controller s event s (reduce s event policy controller timing).result := by
  cases hevent : event with
  | postFanoutVerification success exitCode error => exact editsTo_postFanoutVerification success exitCode error
  | phaseFailure failure => exact editsTo_phaseFailure failure
  | analysisDecision phase decision => exact editsTo_analysisDecision rfl
  | executionResult phase status => exact editsTo_executionResult rfl
  | workerStarted unitId => exact editsTo_updateWorker unitId _
  | workerCompleted unitId exitCode => exact editsTo_updateWorker unitId _
  | workerFailed unitId exitCode error => exact editsTo_workerFailed unitId exitCode error
  | pipeline pipelineEvent =>
    cases pipelineEvent with
    | agentFailure => exact editsTo_reduceAgentFailure
    | _ => exact editsTo_restoring (editsTo_pipelineEvent _ rfl)

end

end RalphWorkflow.Accounts
