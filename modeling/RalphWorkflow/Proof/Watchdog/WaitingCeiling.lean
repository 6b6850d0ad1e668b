import RalphWorkflow.Proof.Watchdog.Rules

/-! The cumulative ceiling fires without asking the gate, and so do not the rules that come before it: a rule that engages first
has the last word, whatever the gate makes of it. -/
namespace RalphWorkflow.Agents.IdleWatchdog

variable (w : IdleWatchdog) (t : Tick)

/-- What earlier runs came to, and the run that is going on. -/
def waitingTotal : ℚ := w.cumulativeWaitingOnChildSeconds + w.currentWaitingRun t.now

/-- A rule that the final verdict looks at before the ceiling engages. -/
def finalRuleAhead : Bool :=
  (w.drainStartedAt.isNone && w.postToolStallDue t) || w.subCeilingReached t (w.waitingTotal t)

def gatedRuleAhead : Bool :=
  w.repetitionTripped t || (w.strictlyStuckDue t || (w.noProgressQuietDue t || w.finalRuleAhead t))

/-- The agent waits on a child wherever it is asked, and has waited up to the ceiling. -/
structure PastCeiling : Prop where
  standard : w.config.profile = .standard
  idle : ∃ timeout, w.config.idleTimeoutSeconds = some timeout ∧ timeout ≤ t.now - w.lastActivity
  waiting : ∀ site, t.classifyQuiet site = .waitingOnChild
  ceiling : w.effectiveWaitingCeiling t.corroboration ≤ w.waitingTotal t

variable {w t}

theorem poll_cases (w : IdleWatchdog) (t : Tick) :
    w.pollSubagentOutput t = w ∨ w.pollSubagentOutput t = w.recordSubagentOutput t.newSubagentLines t.now := by
  unfold pollSubagentOutput
  split
  · exact .inr rfl
  · exact .inl rfl

theorem PastCeiling.polled (h : w.PastCeiling t) : (w.pollSubagentOutput t).PastCeiling t := by
  rcases poll_cases w t with heq | heq
  · rw [heq]
    exact h
  · rw [heq]
    exact ⟨h.standard, h.idle, h.waiting, h.ceiling⟩

/-! ## Each rule, at the ceiling -/

theorem fire_iff_of_ahead {verdict : WatchdogVerdict} {rest : Bool} (h : verdict = .fire ↔ w.GateOpen t) :
    verdict = .fire ↔ w.GateOpen t ∨ (true || rest) = false := by
  rw [h, Bool.true_or, or_iff_left (by decide)]

theorem evaluateNoOutputAtStart_of_waiting (h : t.classifyQuiet .noOutputAtStart = .waitingOnChild) : w.evaluateNoOutputAtStart t = (none, w) := by
  have hdue : w.noOutputAtStartDue t = false := by
    unfold noOutputAtStartDue
    cases w.config.noOutputAtStartSeconds with
    | none => rfl
    | some limit => cases w.lastMeaningfulOutputAt <;> simp [h]
  rw [evaluateNoOutputAtStart_eq, hdue]
  rfl

theorem handleWaitingBranch_fire_iff (h : w.PastCeiling t) :
    (w.handleWaitingBranch t).1 = .fire ↔ w.GateOpen t ∨ w.subCeilingReached t (w.waitingTotal t) = false := by
  have hwaiting := h.waiting .waitingBranch
  unfold handleWaitingBranch
  dsimp only
  rw [if_neg (not_not.mpr hwaiting)]
  have htotal : w.cumulativeWaitingOnChildSeconds +
      { w with waitingOnChildStartedAt := some (w.waitingOnChildStartedAt.getD t.now) }.currentWaitingRun t.now =
        w.waitingTotal t := rfl
  rw [htotal]
  cases hsub : w.subCeilingReached t (w.waitingTotal t) with
  | true =>
    have hstep : { w with waitingOnChildStartedAt := some (w.waitingOnChildStartedAt.getD t.now) }.subCeilingReached t
        (w.waitingTotal t) = true := hsub
    rw [if_pos hstep, fireThroughGate_fire_iff (by decide)]
    simp only [Bool.true_eq_false, or_false]
    rfl
  | false =>
    have hstep : ¬{ w with waitingOnChildStartedAt := some (w.waitingOnChildStartedAt.getD t.now) }.subCeilingReached t
        (w.waitingTotal t) = true := by
      intro htrue
      exact Bool.false_ne_true (hsub.symm.trans htrue)
    have hceiling : { w with waitingOnChildStartedAt := some (w.waitingOnChildStartedAt.getD t.now) }.effectiveWaitingCeiling
        t.corroboration ≤ w.waitingTotal t := h.ceiling
    have hprofile : ¬w.config.profile = .activityOnly := by
      rw [h.standard]
      decide
    rw [if_neg hstep, if_pos hceiling, if_neg hprofile]
    simp

theorem evaluateFinalVerdict_fire_iff (h : w.PastCeiling t) : (w.evaluateFinalVerdict t).1 = .fire ↔ w.GateOpen t ∨ w.finalRuleAhead t = false := by
  unfold evaluateFinalVerdict finalRuleAhead
  cases hdrain : w.drainStartedAt with
  | some startedAt =>
    have hpast : { w with drainStartedAt := none }.PastCeiling t := ⟨h.standard, h.idle, h.waiting, h.ceiling⟩
    dsimp only
    unfold handleDrainWindow
    rw [if_pos (h.waiting .drainWindow), handleWaitingBranch_fire_iff hpast, Option.isNone_some, Bool.false_and, Bool.false_or]
    rfl
  | none =>
    dsimp only
    rw [postToolResultStalled_eq]
    cases hstall : w.postToolStallDue t with
    | true => exact fire_iff_of_ahead (fireThroughGate_fire_iff (by decide))
    | false =>
      rw [if_neg Bool.false_ne_true]
      dsimp only
      rw [if_pos (h.waiting .finalVerdict), handleWaitingBranch_fire_iff h, Option.isNone_none, Bool.true_and, Bool.false_or]

/-! ## The whole evaluation -/

theorem evaluateQuiet_fire_iff {timeout : ℚ} (htimeout : timeout ≤ t.now - w.lastActivity) (h : w.PastCeiling t) :
    (w.evaluateQuiet t (t.now - w.lastActivity) timeout).1 = .fire ↔
      w.GateOpen t ∨ (w.noProgressQuietDue t || w.finalRuleAhead t) = false := by
  unfold evaluateQuiet
  rw [if_pos (h.waiting .evaluate), evaluateNoProgressQuiet_eq]
  cases hquiet : w.noProgressQuietDue t with
  | true =>
    have hgate := fireNoProgressQuiet_fst (w := w) (t := t)
    rw [if_pos rfl]
    generalize w.fireNoProgressQuiet t = fired at hgate ⊢
    obtain ⟨verdict, after⟩ := fired
    dsimp only at hgate
    subst hgate
    exact fire_iff_of_ahead (fireThroughGate_fire_iff (by decide))
  | false =>
    rw [if_neg Bool.false_ne_true]
    dsimp only
    rw [if_neg (not_lt.mpr htimeout), evaluateFinalVerdict_fire_iff h, Bool.false_or]

theorem evaluateIdle_fire_iff (h : w.PastCeiling t) : (w.evaluateIdle t (t.now - w.lastActivity)).1 = .fire ↔
      w.GateOpen t ∨ (w.strictlyStuckDue t || (w.noProgressQuietDue t || w.finalRuleAhead t)) = false := by
  obtain ⟨timeout, htimeout, hidle⟩ := h.idle
  unfold evaluateIdle
  rw [htimeout]
  dsimp only
  rw [evaluateStrictlyStuck_eq]
  cases hstuck : w.strictlyStuckDue t with
  | true => exact fire_iff_of_ahead (fireThroughGate_fire_iff (by decide))
  | false =>
    have hpast : { w with strictlyStuckRunStartedAt := w.strictlyStuckRun t }.PastCeiling t :=
      ⟨h.standard, h.idle, h.waiting, h.ceiling⟩
    rw [Bool.false_or]
    exact evaluateQuiet_fire_iff hidle hpast

theorem evaluateStandard_fire_iff (h : w.PastCeiling t) : (w.evaluateStandard t).1 = .fire ↔
      w.sessionCeilingReached t = true ∨ w.GateOpen t ∨ w.gatedRuleAhead t = false := by
  unfold evaluateStandard gatedRuleAhead
  cases hreached : w.sessionCeilingReached t with
  | true => simp [fireThroughGate_session]
  | false =>
    obtain ⟨reason, tracker, hreason, hrepetition⟩ := repetitionReason_eq (w := w) (t := t)
    have htracked : { w with repetitionTracker := tracker }.PastCeiling t := ⟨h.standard, h.idle, h.waiting, h.ceiling⟩
    rw [if_neg Bool.false_ne_true, hrepetition, or_iff_right Bool.false_ne_true]
    cases htripped : w.repetitionTripped t with
    | true => exact fire_iff_of_ahead (fireThroughGate_fire_iff hreason)
    | false =>
      rw [if_neg Bool.false_ne_true, Bool.false_or]
      dsimp only
      rw [evaluateNoOutputAtStart_of_waiting (htracked.waiting _)]
      exact evaluateIdle_fire_iff htracked

/-- Past its ceiling the watchdog fires, unless a rule ahead of it engages and its gate is shut. -/
theorem waiting_ceiling_fires_iff (h : w.PastCeiling t) : (w.evaluate t).1 = .fire ↔
      w.sessionCeilingReached t = true ∨ (w.pollSubagentOutput t).GateOpen t ∨
        (w.pollSubagentOutput t).gatedRuleAhead t = false := by
  have hpast : (w.pollSubagentOutput t).PastCeiling t := h.polled
  have hsession : (w.pollSubagentOutput t).sessionCeilingReached t = w.sessionCeilingReached t := by
    rcases poll_cases w t with heq | heq
    · rw [heq]
    · rw [heq]
      rfl
  unfold evaluate
  dsimp only
  rw [hpast.standard, ← hsession]
  exact evaluateStandard_fire_iff hpast

/-! ## A child that lives and says nothing -/

def waitingTick (instant : ℚ) (live : Nat) (aliveBy : AliveBy) : Tick where
  clock := fun _ => instant
  classifyQuiet := fun _ => .waitingOnChild
  corroboration := { scopedChildActive := some true, aliveBy := some aliveBy }
  liveSubagentCount := fun _ => live

def waitingSince301 : IdleWatchdog :=
  (create { idleTimeoutSeconds := some 300 } true 0).after
    [.recordInvocationStart 0, .recordActivity 1 1, .evaluate (waitingTick 301 1 .freshProgress)]

theorem pastCeiling_at_1000 (live : Nat) : waitingSince301.PastCeiling (waitingTick 1000 live .osDescendantOnlyStaleProgress) := by
  have hidle : (300 : ℚ) ≤ 1000 - waitingSince301.lastActivity := by decide +kernel
  have hceiling : (300 : ℚ) ≤ waitingSince301.cumulativeWaitingOnChildSeconds + waitingSince301.currentWaitingRun 1000 := by
    decide +kernel
  have heffective : waitingSince301.effectiveWaitingCeiling
      { scopedChildActive := some true, aliveBy := some .osDescendantOnlyStaleProgress } ≤ 300 := by decide +kernel
  exact ⟨by decide +kernel, ⟨300, by decide +kernel, hidle⟩, fun _ => rfl, heffective.trans hceiling⟩

/-- With no live subagent the gate is open, and the ceiling fires. -/
theorem waiting_ceiling_fires_alone : (waitingSince301.evaluate (waitingTick 1000 0 .osDescendantOnlyStaleProgress)).1 = .fire :=
  (waiting_ceiling_fires_iff (pastCeiling_at_1000 0)).mpr (.inr (.inl (by decide +kernel)))

/-- A live subagent that never reported shuts the gate, and the ceiling behind it is never looked at. -/
theorem waiting_ceiling_deferred : waitingSince301.PastCeiling (waitingTick 1000 1 .osDescendantOnlyStaleProgress) ∧
      (waitingSince301.evaluate (waitingTick 1000 1 .osDescendantOnlyStaleProgress)).1 = .continue :=
  ⟨pastCeiling_at_1000 1, by decide +kernel⟩

end RalphWorkflow.Agents.IdleWatchdog
