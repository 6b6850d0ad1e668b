import RalphWorkflow.Proof.Controller.Course

/-! What handling a failure hands over to progression: a state with the failure noted, and a controller whose books are
those it was called with, up to the charge for the failure and the two same-shape counts. -/
namespace RalphWorkflow.Controller
open Lib Policy Recovery Movement Pipeline RecoveryController

def SameButShape (rc rc' : RecoveryController) : Prop :=
  ∃ broken shape, rc' = { rc with brokenAgentSameShapeState := broken, sameShapeState := shape }

section

variable (rc : RecoveryController)

theorem SameButShape.refl : SameButShape rc rc := ⟨_, _, rfl⟩

theorem SameButShape.trans {rc₁ rc₂ rc₃ : RecoveryController} (h : SameButShape rc₁ rc₂) (h' : SameButShape rc₂ rc₃) : SameButShape rc₁ rc₃ := by
  obtain ⟨_, _, rfl⟩ := h
  obtain ⟨_, _, rfl⟩ := h'
  exact ⟨_, _, rfl⟩

theorem brokenBound_shape (phase : String) (agent : Option String) (failure : ClassifiedFailure) (chain : Option AgentChainState) :
    SameButShape rc (rc.checkBrokenAgentSameShapeBound phase agent failure chain).2 := by
  unfold checkBrokenAgentSameShapeBound
  split
  · split
    · split
      · exact SameButShape.refl rc
      · dsimp only
        split
        · exact SameButShape.refl rc
        · exact ⟨_, _, rfl⟩
    · exact SameButShape.refl rc
  · exact SameButShape.refl rc

theorem watchdogBound_shape (phase : String) (failure : ClassifiedFailure)
    (s : PipelineState) : SameButShape rc (rc.checkSameShapeBound phase failure s).2 := by
  unfold checkSameShapeBound
  split
  · exact SameButShape.refl rc
  · split
    · exact SameButShape.refl rc
    · dsimp only
      split
      · exact SameButShape.refl rc
      · exact ⟨_, _, rfl⟩

theorem sameShapeBound_shape (original : PipelineState) (failure : ClassifiedFailure)
    (context : FailureContext) (chain : Option AgentChainState) : SameButShape rc (rc.sameShapeBound original failure context chain).2 := by
  have hbroken := brokenBound_shape rc context.phase context.agent failure chain
  unfold sameShapeBound
  generalize rc.checkBrokenAgentSameShapeBound context.phase context.agent failure chain = checked at hbroken ⊢
  obtain ⟨text, rc₁⟩ := checked
  cases text with
  | some text => exact hbroken
  | none =>
    dsimp only
    split
    · exact hbroken.trans (watchdogBound_shape _ _ _ _)
    · exact hbroken

end

section

variable {rc rc₁ : RecoveryController} {s : PipelineState} {raw : RawFailure} {context : FailureContext}
  {maxRetries : Nat} {useBudget : Bool}

def charged (rc : RecoveryController) (failure : ClassifiedFailure) (context : FailureContext) : RecoveryController :=
  if isTechnical failure.category then rc else rc.chargeAgent failure context

theorem progression_charged (h : progression rc s raw context = some (rc₁, maxRetries, useBudget)) :
    SameButShape (charged rc (classified rc s raw context) context) rc₁ := by
  unfold progression at h
  dsimp only at h
  unfold charged
  split at h
  · rename_i htechnical
    cases h
    rw [if_pos htechnical]
    exact SameButShape.refl rc
  · rename_i htechnical
    rw [if_neg htechnical]
    split at h
    · cases h
    · have hshape := sameShapeBound_shape (rc.chargeAgent (classified rc s raw context) context) s
        (classified rc s raw context) context (s.chainForPhase context.phase)
      generalize (rc.chargeAgent (classified rc s raw context) context).sameShapeBound s (classified rc s raw context)
        context (s.chainForPhase context.phase) = bound at h hshape
      obtain ⟨text, rc₂⟩ := bound
      cases text with
      | some text => cases h
      | none =>
        cases h
        exact hshape

/-- A failure that goes on has its outcome; the cap is enforced unless it is technical. -/
theorem handle_progresses (h : progression rc s raw context = some (rc₁, maxRetries, useBudget)) :
    ∃ noted, SameBooks s noted ∧ rc.handle s raw context =
      if isTechnical (classified rc s raw context).category then
        rc₁.handleRetryProgression noted (classified rc s raw context) context.phase context.agent
          context.retryInSession maxRetries useBudget
      else
        enforceCap
          (rc₁.handleRetryProgression noted (classified rc s raw context) context.phase context.agent
            context.retryInSession maxRetries useBudget) (classified rc s raw context) := by
  unfold progression at h
  dsimp only at h
  have hhandle : rc.handle s raw context = rc.handle s raw context := rfl
  conv_rhs at hhandle => unfold handle
  dsimp only at hhandle
  rw [← classified] at hhandle
  split at h
  · rename_i htechnical
    cases h
    rw [if_pos htechnical] at hhandle
    refine ⟨_, ?_, by rw [if_pos htechnical]; exact hhandle⟩
    exact ⟨rfl, rfl, rfl, rfl⟩
  · rename_i htechnical
    rw [if_neg htechnical] at hhandle
    split at h
    · cases h
    · rename_i hconfig
      rw [if_neg hconfig] at hhandle
      unfold handleAgentFailure at hhandle
      dsimp only at hhandle
      generalize (rc.chargeAgent (classified rc s raw context) context).sameShapeBound s (classified rc s raw context)
        context (s.chainForPhase context.phase) = bound at h hhandle
      obtain ⟨text, rc₂⟩ := bound
      cases text with
      | some text => cases h
      | none =>
        cases h
        refine ⟨_, notes_books s (classified rc s raw context) context _, by rw [if_neg htechnical]; exact hhandle⟩

theorem enforceCap_controller (outcome : RecoveryController.Outcome) (failure : ClassifiedFailure) :
    (enforceCap outcome failure).controller = outcome.controller := by
  unfold enforceCap
  split
  · rfl
  · split <;> rfl

theorem chargeAgent_clock (rc : RecoveryController) (failure : ClassifiedFailure) (context : FailureContext) :
    (rc.chargeAgent failure context).clock = rc.clock := by
  unfold chargeAgent
  split
  · rfl
  · split
    · rfl
    · unfold debitAgent
      dsimp only
      split <;> rfl

theorem charged_clock (rc : RecoveryController) (failure : ClassifiedFailure) (context : FailureContext) :
    (charged rc failure context).clock = rc.clock := by
  unfold charged
  split
  · rfl
  · exact chargeAgent_clock rc failure context

theorem charged_setup (rc : RecoveryController) (failure : ClassifiedFailure) (context : FailureContext) :
    SameSetup rc (charged rc failure context) := by
  unfold charged
  split
  · rfl
  · exact chargeAgent_setup rc failure context

theorem progression_clock (h : progression rc s raw context = some (rc₁, maxRetries, useBudget)) : rc₁.clock = rc.clock := by
  obtain ⟨broken, shape, rfl⟩ := progression_charged h
  exact charged_clock rc _ context

theorem progression_setup (h : progression rc s raw context = some (rc₁, maxRetries, useBudget)) : SameSetup rc rc₁ := by
  obtain ⟨broken, shape, rfl⟩ := progression_charged h
  exact charged_setup rc _ context

end

/-! ## The clock goes on -/

section

variable {rc rc' : RecoveryController} {s : PipelineState} {context : FailureContext} {failure : ClassifiedFailure}
  {chain : AgentChainState} {maxRetries : Nat} {useBudget : Bool}

structure Later (rc rc' : RecoveryController) : Prop where
  cap : rc'.cap = rc.cap
  tracker : rc'.tracker = rc.tracker
  clock : rc'.clock = rc.clock
  reads : rc.reads ≤ rc'.reads

theorem Later.refl (rc : RecoveryController) : Later rc rc := ⟨rfl, rfl, rfl, le_refl _⟩

theorem Later.trans {rc₁ rc₂ : RecoveryController} (h : Later rc rc₁) (h' : Later rc₁ rc₂) : Later rc rc₂ :=
  ⟨h'.cap.trans h.cap, h'.tracker.trans h.tracker, h'.clock.trans h.clock, le_trans h.reads h'.reads⟩

theorem Reads.later (h : Reads rc rc') : Later rc rc' := by
  obtain ⟨n, rfl⟩ := h
  exact ⟨rfl, rfl, rfl, Nat.le_add_right _ _⟩

section

variable (rc : RecoveryController)

theorem noteIfSpent_later (phase : String) (agent : Option String) (spent : Bool) : Later rc (rc.noteIfSpent phase agent spent) := by
  unfold noteIfSpent
  split
  · split <;> exact ⟨rfl, rfl, rfl, le_refl _⟩
  · exact ⟨rfl, rfl, rfl, le_refl _⟩

theorem preferredAgentIndex_reads_lt (phase : String) (agents : List String)
    (current : Option Nat) (spent : Bool) : rc.reads < (rc.preferredAgentIndex phase agents current spent).2.reads := by
  have hlater := (preferredAgentFrom_reads rc.readClock.2 phase (rc.clock rc.reads) current spent agents 0).later
  exact Nat.lt_of_lt_of_le (Nat.lt_succ_self _) hlater.reads

theorem selectAgent_later (phase : String) (chain : AgentChainState) (agent : Option String) (maxRetries : Nat) (useBudget : Bool) :
    Later rc (rc.selectAgent phase chain agent maxRetries useBudget).2 ∧
      rc.reads < (rc.selectAgent phase chain agent maxRetries useBudget).2.reads := by
  have hnoted := noteIfSpent_later rc phase agent (rc.allowanceSpent phase chain agent maxRetries useBudget)
  have hread := (preferredAgentIndex_reads
    (rc.noteIfSpent phase agent (rc.allowanceSpent phase chain agent maxRetries useBudget)) phase chain.agents
    (some chain.currentIndex) (rc.allowanceSpent phase chain agent maxRetries useBudget)).later
  have hlt := preferredAgentIndex_reads_lt
    (rc.noteIfSpent phase agent (rc.allowanceSpent phase chain agent maxRetries useBudget)) phase chain.agents
    (some chain.currentIndex) (rc.allowanceSpent phase chain agent maxRetries useBudget)
  exact ⟨hnoted.trans hread, Nat.lt_of_le_of_lt hnoted.reads hlt⟩

theorem exhaustChain_later (s : PipelineState) (failure : ClassifiedFailure) : Later rc (rc.exhaustChain s failure).controller := by
  unfold exhaustChain enterPhaseFailed
  cases rc.policyBundle with
  | none => exact Later.refl rc
  | some bundle =>
    dsimp only
    split <;> exact ⟨rfl, rfl, rfl, le_refl _⟩

end

theorem retryProgression_later_selection (hchain : s.chainForPhase context.phase = some chain) : Later (rc.selectAgent context.phase chain
        (handleRetryProgression.firstAgent context.agent chain) maxRetries useBudget).2
      (rc.handleRetryProgression s failure context.phase context.agent context.retryInSession maxRetries
        useBudget).controller := by
  unfold handleRetryProgression
  rw [hchain]
  dsimp only
  generalize rc.selectAgent context.phase chain
    (handleRetryProgression.firstAgent context.agent chain) maxRetries useBudget = selected
  obtain ⟨selection, rc₂⟩ := selected
  cases selection with
  | some index =>
    dsimp only
    split
    · exact Later.refl rc₂
    · split <;> exact Later.refl rc₂
  | none =>
    dsimp only
    have hany := (anyAgentAvailable_reads rc₂ context.phase chain.agents).later
    split
    · exact hany.trans (exhaustChain_later _ s failure)
    · exact hany.trans (earliestAvailableWaitMs_reads _ context.phase chain.agents).later

theorem retryProgression_later (hchain : s.chainForPhase context.phase = some chain) :
    Later rc (rc.handleRetryProgression s failure context.phase context.agent context.retryInSession maxRetries
      useBudget).controller :=
  (selectAgent_later rc context.phase chain _ maxRetries useBudget).1.trans (retryProgression_later_selection hchain)

section

variable (rc : RecoveryController)

theorem retryProgression_clock (s : PipelineState) (failure : ClassifiedFailure)
    (context : FailureContext) (maxRetries : Nat) (useBudget : Bool) :
    (rc.handleRetryProgression s failure context.phase context.agent context.retryInSession maxRetries
      useBudget).controller.clock = rc.clock := by
  cases hchain : s.chainForPhase context.phase with
  | none =>
    unfold handleRetryProgression
    rw [hchain]
  | some chain => exact (retryProgression_later hchain).clock

theorem failPhase_clock (s : PipelineState) (reason : String) (category : FailureCategory) :
    (rc.failPhase s reason category).controller.clock = rc.clock := by
  unfold failPhase enterPhaseFailed
  cases rc.policyBundle with
  | none => rfl
  | some bundle => rfl

theorem handle_clock (s : PipelineState) (raw : RawFailure) (context : FailureContext) :
    (rc.handle s raw context).controller.clock = rc.clock := by
  unfold handle
  dsimp only
  split
  · exact retryProgression_clock rc _ _ context _ _
  · split
    · exact failPhase_clock rc _ _ _
    · unfold handleAgentFailure
      dsimp only
      generalize context.classifiedFailure.getD
        (rc.classify raw context.phase context.agent s.lastConnectivityState) = failure
      have hshape := sameShapeBound_shape (rc.chargeAgent failure context) s failure context
        (s.chainForPhase context.phase)
      have hcharged := chargeAgent_clock rc failure context
      generalize (rc.chargeAgent failure context).sameShapeBound s failure context (s.chainForPhase context.phase) =
        bound at hshape ⊢
      obtain ⟨text, rc₁⟩ := bound
      have hclock : rc₁.clock = rc.clock := by
        obtain ⟨broken, shape, hrc₁⟩ := hshape
        dsimp only at hrc₁
        rw [hrc₁]
        exact hcharged
      cases text with
      | some text => exact (failPhase_clock rc₁ _ _ _).trans hclock
      | none =>
        dsimp only
        rw [enforceCap_controller]
        exact (retryProgression_clock rc₁ _ _ context _ _).trans hclock

theorem chargeAgent_reads (failure : ClassifiedFailure) (context : FailureContext) : rc.reads ≤ (rc.chargeAgent failure context).reads := by
  unfold chargeAgent
  split
  · exact le_refl _
  · split
    · exact Nat.le_succ _
    · unfold debitAgent
      dsimp only
      split <;> exact le_refl _

end

theorem progression_reads {raw : RawFailure} {rc₁ : RecoveryController}
    (h : progression rc s raw context = some (rc₁, maxRetries, useBudget)) : rc.reads ≤ rc₁.reads := by
  obtain ⟨broken, shape, rfl⟩ := progression_charged h
  unfold charged
  split
  · exact le_refl _
  · exact chargeAgent_reads rc _ context

/-! ## The selected agent -/

theorem PreferredBut.of_reads {phase : String} {nowMs : Int} {agents : List String} {barred : Option Nat} {index : Nat}
    (hreads : Reads rc rc') (h : PreferredBut rc phase nowMs agents barred index) :
    PreferredBut rc' phase nowMs agents barred index := by
  unfold PreferredBut at *
  rw [hreads.ready_eq]
  exact h

theorem noteIfSpent_reading (rc : RecoveryController) (phase : String) (agent : Option String) (spent : Bool) :
    (rc.noteIfSpent phase agent spent).clock (rc.noteIfSpent phase agent spent).reads = rc.clock rc.reads := by
  unfold noteIfSpent
  split
  · split <;> rfl
  · rfl

/-- Progression selects the first ready agent, past a current one without allowance when another is blamed. -/
theorem selectAgent_preferredBut {phase : String} {agent : Option String} {index : Nat} (hclock : Monotone rc.clock)
    (h : (rc.selectAgent phase chain agent maxRetries useBudget).1 = some index) :
    ∃ barred, PreferredBut (rc.selectAgent phase chain agent maxRetries useBudget).2 phase (rc.clock rc.reads) chain.agents barred index ∧
      (barred = none ∨ barred = some chain.currentIndex ∧ agent ≠ chain.currentAgent) := by
  unfold selectAgent at h ⊢
  dsimp only at h ⊢
  generalize rc.allowanceSpent phase chain agent maxRetries useBudget = spent at h ⊢
  have hselected := selected_preferredBut
    (by rw [(noteIfSpent_later rc phase agent spent).clock]; exact hclock) h
  rw [noteIfSpent_reading] at hselected
  have hreads := preferredAgentIndex_reads (rc.noteIfSpent phase agent spent) phase chain.agents
    (some chain.currentIndex) spent
  cases spent with
  | false => exact ⟨none, .of_reads hreads hselected, .inl rfl⟩
  | true =>
    by_cases hcurrent : agent = chain.currentAgent
    · refine ⟨none, .of_reads hreads (hselected.unbarred ?_), .inl rfl⟩
      intro name hname
      rw [hcurrent, show chain.currentAgent = some name from hname]
      exact ready_of_spent (noteRetryExhaustion_mem rc phase name)
    · exact ⟨some chain.currentIndex, .of_reads hreads hselected, .inr ⟨rfl, hcurrent⟩⟩

theorem handle_selected {raw : RawFailure} {rc₁ : RecoveryController} {index : Nat}
    (h : progression rc s raw context = some (rc₁, maxRetries, useBudget))
    (hchain : s.chainForPhase context.phase = some chain)
    (hselected : (rc₁.selectAgent context.phase chain
      (handleRetryProgression.firstAgent context.agent chain) maxRetries useBudget).1 = some index) :
    (rc.handle s raw context).controller = (rc₁.selectAgent context.phase chain
      (handleRetryProgression.firstAgent context.agent chain) maxRetries useBudget).2 := by
  obtain ⟨noted, hbooks, hhandle⟩ := handle_progresses h
  have htracked : noted.chainForPhase context.phase = some chain := by
    unfold PipelineState.chainForPhase
    rw [hbooks.2.1]
    exact hchain
  have hprogression : (rc₁.handleRetryProgression noted (classified rc s raw context) context.phase context.agent
      context.retryInSession maxRetries useBudget).controller = (rc₁.selectAgent context.phase chain
      (handleRetryProgression.firstAgent context.agent chain) maxRetries useBudget).2 := by
    unfold handleRetryProgression
    rw [htracked]
    dsimp only
    generalize rc₁.selectAgent context.phase chain
      (handleRetryProgression.firstAgent context.agent chain) maxRetries useBudget = selection
      at hselected ⊢
    obtain ⟨picked, rc₂⟩ := selection
    dsimp only at hselected
    rw [hselected]
    dsimp only
    split
    · rfl
    · split <;> rfl
  rw [hhandle, ← hprogression]
  split
  · rfl
  · exact enforceCap_controller _ _

def nextIndex (chain : AgentChainState) : Course → Option Nat
  | .retries => some chain.currentIndex
  | .fallsOver index => some index
  | _ => none

theorem course_selected {raw : RawFailure} {c : Course} (h : course rc s raw context = c)
    (hattempts : c = .retries ∨ ∃ index, c = .fallsOver index) :
    ∃ rc₁ maxRetries useBudget chain, progression rc s raw context = some (rc₁, maxRetries, useBudget) ∧
      s.chainForPhase context.phase = some chain ∧ (rc₁.selectAgent context.phase chain
        (handleRetryProgression.firstAgent context.agent chain) maxRetries useBudget).1 =
        nextIndex chain c := by
  unfold course at h
  cases hprogression : progression rc s raw context with
  | none =>
    rw [hprogression] at h
    rcases hattempts with hc | ⟨index, hc⟩ <;> rw [← h] at hc <;> cases hc
  | some start =>
    obtain ⟨rc₁, maxRetries, useBudget⟩ := start
    rw [hprogression] at h
    unfold trackedCourse at h
    dsimp only at h
    cases hchain : s.chainForPhase context.phase with
    | none =>
      rw [hchain] at h
      rcases hattempts with hc | ⟨index, hc⟩ <;> rw [← h] at hc <;> cases hc
    | some chain =>
      rw [hchain] at h
      refine ⟨rc₁, maxRetries, useBudget, chain, rfl, rfl, ?_⟩
      unfold selectionCourse at h
      dsimp only at h
      generalize rc₁.selectAgent context.phase chain
        (handleRetryProgression.firstAgent context.agent chain) maxRetries useBudget = selection
        at h ⊢
      obtain ⟨picked, rc₂⟩ := selection
      cases picked with
      | some index =>
        dsimp only at h
        split at h
        · rename_i hcurrent
          rw [← h, hcurrent]
          rfl
        · rw [← h]
          rfl
      | none =>
        dsimp only at h
        split at h <;> rcases hattempts with hc | ⟨index, hc⟩ <;> rw [← h] at hc <;> cases hc

end

end RalphWorkflow.Controller
