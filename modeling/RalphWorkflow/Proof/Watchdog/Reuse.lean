import RalphWorkflow.Proof.Watchdog.Rules
import RalphWorkflow.Proof.Watchdog.Repetitions

/-! The start of an invocation resets what is kept of the one before it, but for the repetition tracker and the run of strictly stuck
evaluations. Two watchdogs that differ in these alone are followed call by call. -/
namespace RalphWorkflow.Agents

namespace IdleWatchdog

/-! ## What the rules do not look at -/

/-- The watchdog with another's repetitions and run of strictly stuck evaluations. -/
def leave (w : IdleWatchdog) (tracker : RepetitionTracker) (since : Option ℚ) : IdleWatchdog :=
  { w with repetitionTracker := tracker, strictlyStuckRunStartedAt := since }

/-- The outcome, with another's repetitions and run of strictly stuck evaluations. -/
def left {α : Type} (result : α × IdleWatchdog) (tracker : RepetitionTracker) (since : Option ℚ) : α × IdleWatchdog :=
  (result.1, result.2.leave tracker since)

variable (w : IdleWatchdog) (t : Tick) (tracker : RepetitionTracker) (since : Option ℚ)

theorem leave_self : w.leave w.repetitionTracker w.strictlyStuckRunStartedAt = w := rfl

theorem fireThroughGate_leave (reason : WatchdogFireReason) :
    (w.leave tracker since).fireThroughGate t reason = left (w.fireThroughGate t reason) tracker since := by
  have hkind : (w.leave tracker since).classifyStuckNow t = w.classifyStuckNow t := rfl
  unfold fireThroughGate gateFire
  rw [hkind]
  by_cases hsession : reason = .sessionCeilingExceeded
  · rw [if_pos hsession, if_pos hsession]
    rfl
  · rw [if_neg hsession, if_neg hsession]
    cases w.classifyStuckNow t <;> rfl

theorem accumulateWaitingRun_leave (now : ℚ) :
    (w.leave tracker since).accumulateWaitingRun now = (w.accumulateWaitingRun now).leave tracker since := by
  have hrun : (w.leave tracker since).waitingOnChildStartedAt = w.waitingOnChildStartedAt := rfl
  unfold accumulateWaitingRun
  rw [hrun]
  cases w.waitingOnChildStartedAt <;> rfl

theorem evaluateNoOutputAtStart_leave : (w.leave tracker since).evaluateNoOutputAtStart t = left (w.evaluateNoOutputAtStart t) tracker since := by
  have hdue : (w.leave tracker since).noOutputAtStartDue t = w.noOutputAtStartDue t := rfl
  rw [evaluateNoOutputAtStart_eq, evaluateNoOutputAtStart_eq, hdue]
  split_ifs
  · rw [fireThroughGate_leave]
    rfl
  · rfl

theorem fireNoProgressQuiet_leave : (w.leave tracker since).fireNoProgressQuiet t = left (w.fireNoProgressQuiet t) tracker since := by
  unfold fireNoProgressQuiet
  rw [fireThroughGate_leave]
  unfold left
  generalize w.fireThroughGate t .noProgressQuiet = fired
  obtain ⟨verdict, after⟩ := fired
  cases verdict <;> rfl

theorem evaluateNoProgressQuiet_leave : (w.leave tracker since).evaluateNoProgressQuiet t (t.now - w.lastActivity) =
      left (w.evaluateNoProgressQuiet t (t.now - w.lastActivity)) tracker since := by
  have hdue : (w.leave tracker since).noProgressQuietDue t = w.noProgressQuietDue t := rfl
  have hactivity : t.now - w.lastActivity = t.now - (w.leave tracker since).lastActivity := rfl
  rw [evaluateNoProgressQuiet_eq, hactivity, evaluateNoProgressQuiet_eq, hdue]
  split_ifs
  · rw [fireNoProgressQuiet_leave]
  · rfl

theorem postToolResultStalled_leave : (w.leave tracker since).postToolResultStalled t = left (w.postToolResultStalled t) tracker since := by
  have hdue : (w.leave tracker since).postToolStallDue t = w.postToolStallDue t := rfl
  rw [postToolResultStalled_eq, postToolResultStalled_eq, hdue]
  split_ifs
  · rw [fireThroughGate_leave]
    rfl
  · rfl

theorem handleActiveBranch_leave : (w.leave tracker since).handleActiveBranch t = left (w.handleActiveBranch t) tracker since := by
  unfold handleActiveBranch
  dsimp only
  rw [accumulateWaitingRun_leave, fireThroughGate_leave]
  have hwindow : ((w.accumulateWaitingRun t.now).leave tracker since).config = (w.accumulateWaitingRun t.now).config := rfl
  rw [hwindow]
  split_ifs
  · rfl
  · rfl

theorem handleWaitingBranch_leave : (w.leave tracker since).handleWaitingBranch t = left (w.handleWaitingBranch t) tracker since := by
  have hentered : { w.leave tracker since with
      waitingOnChildStartedAt := some ((w.leave tracker since).waitingOnChildStartedAt.getD t.now) } =
        { w with waitingOnChildStartedAt := some (w.waitingOnChildStartedAt.getD t.now) }.leave tracker since := rfl
  unfold handleWaitingBranch
  rw [hentered]
  generalize { w with waitingOnChildStartedAt := some (w.waitingOnChildStartedAt.getD t.now) } = entered
  have htotal : (entered.leave tracker since).cumulativeWaitingOnChildSeconds + (entered.leave tracker since).currentWaitingRun t.now =
        entered.cumulativeWaitingOnChildSeconds + entered.currentWaitingRun t.now := rfl
  have hsub : ∀ total, (entered.leave tracker since).subCeilingReached t total = entered.subCeilingReached t total := by
    intro total
    rfl
  have hceiling : (entered.leave tracker since).effectiveWaitingCeiling t.corroboration = entered.effectiveWaitingCeiling t.corroboration := rfl
  have hactive : ∀ w : IdleWatchdog, (w.leave tracker since).channelEvidenceActive t .leftWaiting = w.channelEvidenceActive t .leftWaiting := by
    intro w
    rfl
  have hprofile : (entered.leave tracker since).config = entered.config := rfl
  dsimp only
  rw [htotal, hsub, hceiling, accumulateWaitingRun_leave, hactive, handleActiveBranch_leave, fireThroughGate_leave, hprofile]
  split_ifs <;> rfl

theorem handleDrainWindow_leave (startedAt : ℚ) :
    (w.leave tracker since).handleDrainWindow t startedAt = left (w.handleDrainWindow t startedAt) tracker since := by
  have hcleared : { w.leave tracker since with drainStartedAt := none } = { w with drainStartedAt := none }.leave tracker since := rfl
  have hwindow : (w.leave tracker since).config = w.config := rfl
  unfold handleDrainWindow
  rw [hcleared, handleWaitingBranch_leave, fireThroughGate_leave, hwindow]
  split_ifs
  · rfl
  · rfl
  · rfl

theorem evaluateFinalVerdict_leave : (w.leave tracker since).evaluateFinalVerdict t = left (w.evaluateFinalVerdict t) tracker since := by
  have hdrain : (w.leave tracker since).drainStartedAt = w.drainStartedAt := rfl
  unfold evaluateFinalVerdict
  rw [hdrain]
  cases w.drainStartedAt with
  | some startedAt => exact handleDrainWindow_leave w t tracker since startedAt
  | none =>
    dsimp only
    rw [postToolResultStalled_leave]
    unfold left
    generalize w.postToolResultStalled t = stalled
    obtain ⟨verdict, after⟩ := stalled
    cases verdict with
    | some verdict => rfl
    | none =>
      have hactive : (after.leave tracker since).channelEvidenceActive t .finalVerdict =
        after.channelEvidenceActive t .finalVerdict := rfl
      dsimp only
      rw [handleWaitingBranch_leave, handleActiveBranch_leave, hactive]
      split_ifs
      · rfl
      · rfl
      · rfl

theorem evaluateQuiet_leave (timeout : ℚ) : (w.leave tracker since).evaluateQuiet t (t.now - w.lastActivity) timeout =
      left (w.evaluateQuiet t (t.now - w.lastActivity) timeout) tracker since := by
  have hquiet : (if t.classifyQuiet .evaluate = .waitingOnChild then
        (w.leave tracker since).evaluateNoProgressQuiet t (t.now - w.lastActivity) else (none, w.leave tracker since)) =
      left (if t.classifyQuiet .evaluate = .waitingOnChild then w.evaluateNoProgressQuiet t (t.now - w.lastActivity)
        else (none, w)) tracker since := by
    rw [evaluateNoProgressQuiet_leave]
    split_ifs
    · rfl
    · rfl
  unfold evaluateQuiet
  rw [hquiet]
  generalize (if t.classifyQuiet .evaluate = .waitingOnChild then w.evaluateNoProgressQuiet t (t.now - w.lastActivity)
    else (none, w)) = quiet
  obtain ⟨verdict, after⟩ := quiet
  unfold left
  cases verdict with
  | some verdict => rfl
  | none =>
    dsimp only
    rw [accumulateWaitingRun_leave, evaluateFinalVerdict_leave]
    split_ifs
    · rfl
    · rfl

theorem evaluateActivityOnly_leave : (w.leave tracker since).evaluateActivityOnly t = left (w.evaluateActivityOnly t) tracker since := by
  have hsummary : (w.leave tracker since).lastEvidenceSummary t.now (t.liveSubagentCount .activityOnly) =
      w.lastEvidenceSummary t.now (t.liveSubagentCount .activityOnly) := rfl
  have hconfig : (w.leave tracker since).config = w.config := rfl
  have hstarted : (w.leave tracker since).invocationStartedAt = w.invocationStartedAt := rfl
  have hsession : (w.leave tracker since).sessionStartedAt = w.sessionStartedAt := rfl
  unfold evaluateActivityOnly
  rw [hsummary, hconfig, hstarted, hsession]
  dsimp only
  split_ifs
  · rfl
  · cases w.config.idleTimeoutSeconds with
    | none => rfl
    | some timeout =>
      dsimp only
      split_ifs
      · rfl
      · rfl

theorem pollSubagentOutput_leave : (w.leave tracker since).pollSubagentOutput t = (w.pollSubagentOutput t).leave tracker since := by
  have hmonitor : (w.leave tracker since).hasProcessMonitor = w.hasProcessMonitor := rfl
  unfold pollSubagentOutput
  rw [hmonitor]
  split_ifs
  · rfl
  · rfl

/-! ## Twins -/

/-- The rule of the strictly stuck never looks at when its run began. -/
def StuckUnread (config : TimeoutPolicy) : Prop :=
  config.idleTimeoutSeconds = none ∨ config.noProgressQuietStrictlyStuckSeconds = none

/-- The two differ in repetitions without effect from this time on, and in a run no rule looks at. -/
structure Twin (now : ℚ) (used fresh : IdleWatchdog) : Prop where
  same : used = fresh.leave used.repetitionTracker used.strictlyStuckRunStartedAt
  tracker : fresh.config.profile = .standard → used.repetitionTracker.Agrees now fresh.repetitionTracker
  stuck : fresh.config.profile = .standard →
    StuckUnread fresh.config ∨ used.strictlyStuckRunStartedAt = fresh.strictlyStuckRunStartedAt

variable {w t tracker since} {now : ℚ} {used fresh used' fresh' : IdleWatchdog}

theorem Twin.of_leave (hconfig : fresh'.config = fresh.config)
    (htracker : fresh.config.profile = .standard → tracker.Agrees now fresh'.repetitionTracker)
    (hstuck : fresh.config.profile = .standard → StuckUnread fresh.config ∨ since = fresh'.strictlyStuckRunStartedAt) :
    (fresh'.leave tracker since).Twin now fresh' := by
  refine ⟨rfl, ?_, ?_⟩
  · rw [hconfig]
    exact htracker
  · rw [hconfig]
    exact hstuck

section

variable (h : Twin now used fresh)
include h

theorem Twin.of_left {α : Type} (rule : IdleWatchdog → α × IdleWatchdog)
    (hrule : ∀ tracker since, rule (fresh.leave tracker since) = left (rule fresh) tracker since)
    (hconfig : (rule fresh).2.config = fresh.config) : (rule used).1 = (rule fresh).1 ∧ Twin now (rule used).2 (rule fresh).2 := by
  have hself := hrule fresh.repetitionTracker fresh.strictlyStuckRunStartedAt
  rw [leave_self] at hself
  have htracker : (rule fresh).2.repetitionTracker = fresh.repetitionTracker :=
    congrArg (fun result => result.2.repetitionTracker) hself
  have hsince : (rule fresh).2.strictlyStuckRunStartedAt = fresh.strictlyStuckRunStartedAt :=
    congrArg (fun result => result.2.strictlyStuckRunStartedAt) hself
  rw [h.same, hrule]
  refine ⟨rfl, Twin.of_leave hconfig ?_ ?_⟩
  · rw [htracker]
    exact h.tracker
  · rw [hsince]
    exact h.stuck

theorem fireThroughGate_twin (reason : WatchdogFireReason) : (used.fireThroughGate t reason).1 = (fresh.fireThroughGate t reason).1 ∧
      Twin now (used.fireThroughGate t reason).2 (fresh.fireThroughGate t reason).2 :=
  h.of_left (fun w => w.fireThroughGate t reason) (fun tracker since => fireThroughGate_leave fresh t tracker since reason)
    (congrArg Standing.config fireThroughGate_steady.standing)

theorem evaluateNoOutputAtStart_twin : (used.evaluateNoOutputAtStart t).1 = (fresh.evaluateNoOutputAtStart t).1 ∧
      Twin now (used.evaluateNoOutputAtStart t).2 (fresh.evaluateNoOutputAtStart t).2 :=
  h.of_left (fun w => w.evaluateNoOutputAtStart t) (evaluateNoOutputAtStart_leave fresh t)
    (congrArg Standing.config evaluateNoOutputAtStart_steady.standing)

theorem evaluateQuiet_twin (timeout : ℚ) :
    (used.evaluateQuiet t (t.now - fresh.lastActivity) timeout).1 = (fresh.evaluateQuiet t (t.now - fresh.lastActivity) timeout).1 ∧
      Twin now (used.evaluateQuiet t (t.now - fresh.lastActivity) timeout).2 (fresh.evaluateQuiet t (t.now - fresh.lastActivity) timeout).2 :=
  h.of_left (fun w => w.evaluateQuiet t (t.now - fresh.lastActivity) timeout)
    (fun tracker since => evaluateQuiet_leave fresh t tracker since timeout)
    (congrArg Standing.config evaluateQuiet_steady.standing)

theorem evaluateStrictlyStuck_twin (hstandard : fresh.config.profile = .standard) (htimeout : fresh.config.idleTimeoutSeconds ≠ none) :
    (used.evaluateStrictlyStuck t).1 = (fresh.evaluateStrictlyStuck t).1 ∧
      Twin now (used.evaluateStrictlyStuck t).2 (fresh.evaluateStrictlyStuck t).2 := by
  have hconfig : used.config = fresh.config := by rw [h.same]; rfl
  have hevidence : used.channelEvidenceActive t .strictlyStuck = fresh.channelEvidenceActive t .strictlyStuck := by
    rw [h.same]
    rfl
  have hboth : used.strictlyStuckDue t = fresh.strictlyStuckDue t ∧ used.strictlyStuckRun t = fresh.strictlyStuckRun t := by
    unfold strictlyStuckDue strictlyStuckRun
    rw [hconfig, hevidence]
    rcases h.stuck hstandard with (hnone | hoff) | hsince
    · exact absurd hnone htimeout
    · rw [hoff]
      exact ⟨rfl, rfl⟩
    · rw [hsince]
      exact ⟨rfl, rfl⟩
  rw [evaluateStrictlyStuck_eq, evaluateStrictlyStuck_eq, hboth.1, hboth.2]
  cases fresh.strictlyStuckDue t with
  | true =>
    obtain ⟨hverdict, htwin⟩ := fireThroughGate_twin (t := t) h .strictlyStuck
    exact ⟨congrArg some hverdict, htwin⟩
  | false =>
    have hleft : { used with strictlyStuckRunStartedAt := fresh.strictlyStuckRun t } =
        { fresh with strictlyStuckRunStartedAt := fresh.strictlyStuckRun t }.leave used.repetitionTracker
          (fresh.strictlyStuckRun t) := by
      rw [h.same]
      rfl
    rw [if_neg Bool.false_ne_true, if_neg Bool.false_ne_true, hleft]
    exact ⟨rfl, Twin.of_leave rfl h.tracker fun _ => .inr rfl⟩

theorem evaluateIdle_twin (hstandard : fresh.config.profile = .standard) :
    (used.evaluateIdle t (t.now - fresh.lastActivity)).1 = (fresh.evaluateIdle t (t.now - fresh.lastActivity)).1 ∧
      Twin now (used.evaluateIdle t (t.now - fresh.lastActivity)).2 (fresh.evaluateIdle t (t.now - fresh.lastActivity)).2 := by
  have hconfig : used.config = fresh.config := by rw [h.same]; rfl
  unfold evaluateIdle
  rw [hconfig]
  cases htimeout : fresh.config.idleTimeoutSeconds with
  | none => exact ⟨rfl, h⟩
  | some timeout =>
    obtain ⟨hverdict, htwin⟩ := evaluateStrictlyStuck_twin (t := t) h hstandard (by simp [htimeout])
    have hactivity : (fresh.evaluateStrictlyStuck t).2.lastActivity = fresh.lastActivity :=
      congrArg Standing.lastActivity evaluateStrictlyStuck_steady.standing
    dsimp only
    generalize used.evaluateStrictlyStuck t = stuck at hverdict htwin ⊢
    generalize fresh.evaluateStrictlyStuck t = stuck' at hverdict htwin hactivity ⊢
    obtain ⟨verdict, after⟩ := stuck
    obtain ⟨verdict', after'⟩ := stuck'
    cases hverdict
    cases verdict with
    | some verdict => exact ⟨rfl, htwin⟩
    | none =>
      dsimp only at hactivity htwin ⊢
      rw [← hactivity]
      exact evaluateQuiet_twin htwin timeout

theorem repetitionReason_twin (hstandard : fresh.config.profile = .standard) (hlater : ∀ reading, now ≤ t.clock reading) :
    (used.repetitionReason t).1 = (fresh.repetitionReason t).1 ∧ Twin now (used.repetitionReason t).2 (fresh.repetitionReason t).2 := by
  have hwith : ∀ {first second : RepetitionTracker}, first.Agrees now second →
      Twin now { used with repetitionTracker := first } { fresh with repetitionTracker := second } := by
    intro first second hagrees
    have hleft : { used with repetitionTracker := first } =
        { fresh with repetitionTracker := second }.leave first used.strictlyStuckRunStartedAt := by
      rw [h.same]
      rfl
    rw [hleft]
    exact Twin.of_leave rfl (fun _ => hagrees) h.stuck
  obtain ⟨hsame, hagrees⟩ := (h.tracker hstandard).tripped (hlater .errorWindow) (hlater .toolWindow)
  unfold repetitionReason
  generalize used.repetitionTracker.tripped (t.clock .errorWindow) (t.clock .toolWindow) = first at hsame hagrees ⊢
  generalize fresh.repetitionTracker.tripped (t.clock .errorWindow) (t.clock .toolWindow) = second at hsame hagrees ⊢
  obtain ⟨tripped, tracker⟩ := first
  obtain ⟨tripped', tracker'⟩ := second
  cases hsame
  cases tripped with
  | false => exact ⟨rfl, hwith hagrees⟩
  | true =>
    obtain ⟨honly, hboth⟩ := hagrees.trippedToolDimension (hlater .toolWindowAgain) (hlater .errorWindowAgain)
    dsimp only at honly hboth ⊢
    rw [if_pos rfl, if_pos rfl, honly]
    exact ⟨rfl, hwith hboth⟩

theorem evaluateStandard_twin (hstandard : fresh.config.profile = .standard) (hlater : ∀ reading, now ≤ t.clock reading) :
    (used.evaluateStandard t).1 = (fresh.evaluateStandard t).1 ∧ Twin now (used.evaluateStandard t).2 (fresh.evaluateStandard t).2 := by
  have hsession : used.sessionCeilingReached t = fresh.sessionCeilingReached t := by rw [h.same]; rfl
  unfold evaluateStandard
  rw [hsession]
  cases fresh.sessionCeilingReached t with
  | true => exact fireThroughGate_twin (t := t) h .sessionCeilingExceeded
  | false =>
    obtain ⟨hreason, htwin⟩ := repetitionReason_twin h hstandard hlater
    obtain ⟨reason, tracker, -, hrepetition⟩ := repetitionReason_eq (w := fresh) (t := t)
    have hprofile : (fresh.repetitionReason t).2.config = fresh.config := by rw [hrepetition]
    rw [if_neg Bool.false_ne_true, if_neg Bool.false_ne_true]
    generalize used.repetitionReason t = first at hreason htwin ⊢
    generalize fresh.repetitionReason t = second at hreason htwin hprofile ⊢
    obtain ⟨found, after⟩ := first
    obtain ⟨found', after'⟩ := second
    cases hreason
    cases found with
    | some reason => exact fireThroughGate_twin (t := t) htwin reason
    | none =>
      obtain ⟨hverdict, hstarted⟩ := evaluateNoOutputAtStart_twin (t := t) htwin
      have hkept := (evaluateNoOutputAtStart_steady (w := after') (t := t)).standing
      dsimp only at hprofile ⊢
      generalize after.evaluateNoOutputAtStart t = first at hverdict hstarted ⊢
      generalize after'.evaluateNoOutputAtStart t = second at hverdict hstarted hkept ⊢
      obtain ⟨verdict, reached⟩ := first
      obtain ⟨verdict', reached'⟩ := second
      cases hverdict
      cases verdict with
      | some verdict => exact ⟨rfl, hstarted⟩
      | none =>
        have htwins : Twin now reached reached' := hstarted
        have hactivity : reached.lastActivity = reached'.lastActivity := by rw [htwins.same]; rfl
        have hconfig : reached'.config = fresh.config := (congrArg Standing.config hkept).trans hprofile
        dsimp only
        rw [hactivity]
        exact evaluateIdle_twin hstarted (hconfig ▸ hstandard)

theorem evaluate_twin (hlater : ∀ reading, now ≤ t.clock reading) :
    (used.evaluate t).1 = (fresh.evaluate t).1 ∧ Twin now (used.evaluate t).2 (fresh.evaluate t).2 := by
  have hpolled : Twin now (used.pollSubagentOutput t) (fresh.pollSubagentOutput t) := by
    have hsteady : (fresh.pollSubagentOutput t).config = fresh.config := by
      unfold pollSubagentOutput
      split <;> rfl
    exact (h.of_left (fun w => ((), w.pollSubagentOutput t))
      (fun tracker since => congrArg (Prod.mk ()) (pollSubagentOutput_leave fresh t tracker since)) hsteady).2
  have hconfig : (used.pollSubagentOutput t).config = (fresh.pollSubagentOutput t).config := by rw [hpolled.same]; rfl
  unfold evaluate
  dsimp only
  rw [hconfig]
  cases hprofile : (fresh.pollSubagentOutput t).config.profile with
  | standard => exact evaluateStandard_twin hpolled hprofile hlater
  | activityOnly =>
    have hkept : ((fresh.pollSubagentOutput t).evaluateActivityOnly t).2.config = (fresh.pollSubagentOutput t).config := by
      unfold evaluateActivityOnly
      dsimp only
      split_ifs
      · rfl
      · cases (fresh.pollSubagentOutput t).config.idleTimeoutSeconds with
        | none => rfl
        | some timeout =>
          dsimp only
          split <;> rfl
    exact hpolled.of_left (fun w => w.evaluateActivityOnly t) (evaluateActivityOnly_leave _ t) hkept

end

/-! ## Calls on twins -/

def NotBefore (now : ℚ) : WatchdogCall → Prop
  | .recordInvocationStart at_ | .recordLifecycleActivity at_ => now ≤ at_
  | .recordActivity first second | .recordToolUseActivity first second | .recordToolCallActivity _ first second
  | .recordErrorActivity _ first second | .recordProgressReport _ first second
  | .recordToolResultActivity _ first second => now ≤ first ∧ now ≤ second
  | .recordMcpToolCall _ | .recordSubagentWork _ | .recordSubagentOutput .. | .recordWorkspaceEvent ..
  | .setIsWaitingState _ => True
  | .evaluate t => ∀ reading, now ≤ t.clock reading

theorem accumulateWaitingRun_keeps (w : IdleWatchdog) (at_ : ℚ) :
    (w.accumulateWaitingRun at_).config = w.config ∧ (w.accumulateWaitingRun at_).repetitionTracker = w.repetitionTracker ∧
      (w.accumulateWaitingRun at_).strictlyStuckRunStartedAt = w.strictlyStuckRunStartedAt := by
  unfold accumulateWaitingRun
  split <;> exact ⟨rfl, rfl, rfl⟩

section

variable (h : Twin now used fresh)
include h

theorem Twin.accumulate (at_ : ℚ) : Twin now (used.accumulateWaitingRun at_) (fresh.accumulateWaitingRun at_) :=
  (h.of_left (fun w => ((), w.accumulateWaitingRun at_))
    (fun tracker since => congrArg (Prod.mk ()) (accumulateWaitingRun_leave fresh tracker since at_))
    (accumulateWaitingRun_keeps fresh at_).1).2

theorem Twin.record (record : IdleWatchdog → IdleWatchdog)
    (hrecord : ∀ tracker since, record (fresh.leave tracker since) = (record fresh).leave tracker since)
    (hconfig : (record fresh).config = fresh.config) : Twin now (record used) (record fresh) :=
  (h.of_left (fun w => ((), record w)) (fun tracker since => congrArg (Prod.mk ()) (hrecord tracker since)) hconfig).2

theorem Twin.reset (at_ : ℚ) : Twin now (used.resetIdleBaseline at_) (fresh.resetIdleBaseline at_) :=
  (h.accumulate at_).record
    (fun w => { w with lastActivity := at_, drainStartedAt := none, awaitingPostToolResultProgression := false })
    (fun _ _ => rfl) rfl

theorem Twin.note (note : RepetitionTracker → RepetitionTracker)
    (hnote : ∀ {tracker other : RepetitionTracker}, tracker.Agrees now other → (note tracker).Agrees now (note other)) :
    Twin now { used with repetitionTracker := note used.repetitionTracker } { fresh with repetitionTracker := note fresh.repetitionTracker } := by
  have hleft : { used with repetitionTracker := note used.repetitionTracker } =
      { fresh with repetitionTracker := note fresh.repetitionTracker }.leave (note used.repetitionTracker)
        used.strictlyStuckRunStartedAt := by
    rw [h.same]
    rfl
  rw [hleft]
  exact Twin.of_leave rfl (fun hstandard => hnote (h.tracker hstandard)) h.stuck

theorem recordActivity_twin (first second : ℚ) : Twin now (used.recordActivity first second) (fresh.recordActivity first second) := by
  have hnoted := (h.reset first).note RepetitionTracker.noteProgress fun hagrees => hagrees.noteProgress
  have htracker : ∀ w : IdleWatchdog, (w.resetIdleBaseline first).repetitionTracker = w.repetitionTracker := by
    intro w
    exact (accumulateWaitingRun_keeps w first).2.1
  rw [htracker, htracker] at hnoted
  exact hnoted.record (fun w => { w with lastMeaningfulOutputAt := some second, hasMeaningfulOutput := true })
    (fun _ _ => rfl) rfl

theorem recordErrorActivity_twin (fingerprint : String) (at_ : ℚ) {notedAt : ℚ} (hlater : now ≤ notedAt) :
    Twin now (used.recordErrorActivity fingerprint at_ notedAt) (fresh.recordErrorActivity fingerprint at_ notedAt) := by
  have hnoted := (h.accumulate at_).note (fun tracker => tracker.noteError fingerprint notedAt)
    fun hagrees => hagrees.noteError hlater
  rw [(accumulateWaitingRun_keeps used at_).2.1, (accumulateWaitingRun_keeps fresh at_).2.1] at hnoted
  exact hnoted

theorem recordToolCallActivity_twin (fingerprint : String) (at_ : ℚ) {notedAt : ℚ} (hlater : now ≤ notedAt) :
    Twin now (used.recordToolCallActivity fingerprint at_ notedAt) (fresh.recordToolCallActivity fingerprint at_ notedAt) := by
  have hnoted := (h.accumulate at_).note (fun tracker => tracker.markToolCall fingerprint notedAt)
    fun hagrees => hagrees.markToolCall hlater
  rw [(accumulateWaitingRun_keeps used at_).2.1, (accumulateWaitingRun_keeps fresh at_).2.1] at hnoted
  exact hnoted

theorem recordProgressReport_twin (fingerprint : String) (first : ℚ) {second : ℚ} (hlater : now ≤ second) :
    Twin now (used.recordProgressReport fingerprint first second) (fresh.recordProgressReport fingerprint first second) := by
  have hlast : used.lastProgressFingerprint = fresh.lastProgressFingerprint := by rw [h.same]; rfl
  have hnew := h.record (fun w => { w with lastProgressFingerprint := some fingerprint }) (fun _ _ => rfl) rfl
  unfold recordProgressReport
  rw [hlast]
  split_ifs
  · exact recordErrorActivity_twin h fingerprint first hlater
  · exact recordActivity_twin hnew first second

theorem recordToolResultActivity_twin (isHarnessEcho : Bool) (at_ baselineAt : ℚ) :
    Twin now (used.recordToolResultActivity isHarnessEcho at_ baselineAt) (fresh.recordToolResultActivity isHarnessEcho at_ baselineAt) := by
  have hclosed := h.accumulate at_
  cases isHarnessEcho with
  | true =>
    exact hclosed.record (fun w => { w with lastToolResultAt := some at_, awaitingPostToolResultProgression := true })
      (fun _ _ => rfl) rfl
  | false =>
    exact (hclosed.reset baselineAt).record
      (fun w => { w with lastMeaningfulOutputAt := some at_, hasMeaningfulOutput := true, lastToolResultAt := some at_,
                         awaitingPostToolResultProgression := true })
      (fun _ _ => rfl) rfl

theorem perform_twin {call : WatchdogCall} (hlater : NotBefore now call) : Twin now (used.perform call) (fresh.perform call) := by
  cases call with
  | evaluate t => exact (evaluate_twin h hlater).2
  | recordInvocationStart at_ => exact h.record (fun w => w.recordInvocationStart at_) (fun _ _ => rfl) rfl
  | recordActivity first second => exact recordActivity_twin h first second
  | recordLifecycleActivity at_ => exact h.reset at_
  | recordToolUseActivity first second =>
    exact (h.reset first).record (fun w => { w with lastMeaningfulOutputAt := some second, hasMeaningfulOutput := true })
      (fun _ _ => rfl) rfl
  | recordToolCallActivity fingerprint at_ notedAt => exact recordToolCallActivity_twin h fingerprint at_ hlater.2
  | recordErrorActivity fingerprint at_ notedAt => exact recordErrorActivity_twin h fingerprint at_ hlater.2
  | recordProgressReport fingerprint first second => exact recordProgressReport_twin h fingerprint first hlater.2
  | recordToolResultActivity isHarnessEcho at_ baselineAt =>
    exact recordToolResultActivity_twin h isHarnessEcho at_ baselineAt
  | recordMcpToolCall at_ => exact h.record (fun w => w.recordMcpToolCall at_) (fun _ _ => rfl) rfl
  | recordSubagentWork at_ => exact h.record (fun w => w.recordSubagentWork at_) (fun _ _ => rfl) rfl
  | recordSubagentOutput lineCount at_ => exact h.record (fun w => w.recordSubagentOutput lineCount at_) (fun _ _ => rfl) rfl
  | setIsWaitingState flag => exact h.record (fun w => w.setIsWaitingState flag) (fun _ _ => rfl) rfl
  | recordWorkspaceEvent weight at_ =>
    show Twin now (used.recordWorkspaceEvent weight at_) (fresh.recordWorkspaceEvent weight at_)
    unfold recordWorkspaceEvent
    split_ifs
    · exact h
    · have hcount : used.workspaceEventCount = fresh.workspaceEventCount := by rw [h.same]; rfl
      rw [hcount]
      exact h.record
        (fun w => { w with workspaceEventCount := fresh.workspaceEventCount + 1, lastWorkspaceEventAt := some at_,
                           lastWorkspaceEventWeight := weight })
        (fun _ _ => rfl) rfl

end

def answer (w : IdleWatchdog) (call : WatchdogCall) : Option WatchdogVerdict × Option WatchdogFireReason :=
  match call with
  | .evaluate t => (some (w.evaluate t).1, (w.evaluate t).2.lastFireReason)
  | call => (none, (w.perform call).lastFireReason)

def trace : IdleWatchdog → List WatchdogCall → List (Option WatchdogVerdict × Option WatchdogFireReason)
  | _, [] => []
  | w, call :: rest => w.answer call :: trace (w.perform call) rest

theorem answer_twin {call : WatchdogCall} (h : Twin now used fresh) (hlater : NotBefore now call) : used.answer call = fresh.answer call := by
  have hreason : (used.perform call).lastFireReason = (fresh.perform call).lastFireReason := by
    rw [(perform_twin h hlater).same]
    rfl
  cases call with
  | evaluate t => exact Prod.ext (congrArg some (evaluate_twin h hlater).1) hreason
  | recordInvocationStart | recordActivity | recordLifecycleActivity | recordToolUseActivity | recordToolCallActivity
  | recordErrorActivity | recordProgressReport | recordToolResultActivity | recordMcpToolCall | recordSubagentWork
  | recordSubagentOutput | recordWorkspaceEvent | setIsWaitingState => exact Prod.ext rfl hreason

theorem trace_twin {calls : List WatchdogCall} (h : Twin now used fresh) (hlater : ∀ call ∈ calls, NotBefore now call) :
    used.trace calls = fresh.trace calls := by
  induction calls generalizing used fresh with
  | nil => rfl
  | cons call rest ih =>
    have hcall := hlater call List.mem_cons_self
    have hrest := ih (perform_twin h hcall) fun other hother => hlater other (List.mem_cons_of_mem _ hother)
    show _ :: _ = _ :: _
    rw [answer_twin h hcall, hrest]

/-! ## The set-up of the tracker -/

structure Configured (w : IdleWatchdog) : Prop where
  consecutiveThreshold : w.repetitionTracker.consecutiveThreshold = w.config.repeatedErrorConsecutiveThreshold
  windowCount : w.repetitionTracker.windowCount = w.config.repeatedErrorWindowCount
  windowSeconds : w.repetitionTracker.windowSeconds = w.config.repeatedErrorWindowSeconds

def SameSetUp (tracker other : RepetitionTracker) : Prop :=
  other.consecutiveThreshold = tracker.consecutiveThreshold ∧ other.windowCount = tracker.windowCount ∧
    other.windowSeconds = tracker.windowSeconds

theorem Configured.of_same {after : IdleWatchdog} (h : w.Configured) (hconfig : after.config = w.config)
    (hsame : SameSetUp w.repetitionTracker after.repetitionTracker) : after.Configured := by
  obtain ⟨hthreshold, hcount, hseconds⟩ := hsame
  exact ⟨hconfig ▸ hthreshold.trans h.consecutiveThreshold, hconfig ▸ hcount.trans h.windowCount,
    hconfig ▸ hseconds.trans h.windowSeconds⟩

theorem errorDimension_setUp (tracker : RepetitionTracker) (at_ : ℚ) : SameSetUp tracker (tracker.errorDimensionTripped at_).2 := by
  unfold RepetitionTracker.errorDimensionTripped
  split_ifs <;> exact ⟨rfl, rfl, rfl⟩

theorem toolDimension_setUp (tracker : RepetitionTracker) (at_ : ℚ) : SameSetUp tracker (tracker.toolDimensionTripped at_).2 := by
  unfold RepetitionTracker.toolDimensionTripped
  split_ifs <;> exact ⟨rfl, rfl, rfl⟩

theorem SameSetUp.trans {first second third : RepetitionTracker} (h : SameSetUp first second) (h' : SameSetUp second third) :
    SameSetUp first third :=
  ⟨h'.1.trans h.1, h'.2.1.trans h.2.1, h'.2.2.trans h.2.2⟩

theorem repetitionReason_setUp : SameSetUp w.repetitionTracker (w.repetitionReason t).2.repetitionTracker := by
  have htripped : SameSetUp w.repetitionTracker (w.repetitionTracker.tripped (t.clock .errorWindow) (t.clock .toolWindow)).2 := by
    unfold RepetitionTracker.tripped
    dsimp only
    split_ifs
    · exact errorDimension_setUp _ _
    · exact (errorDimension_setUp _ _).trans (toolDimension_setUp _ _)
  unfold repetitionReason
  generalize w.repetitionTracker.tripped (t.clock .errorWindow) (t.clock .toolWindow) = outcome at htripped ⊢
  obtain ⟨tripped, tracker⟩ := outcome
  cases tripped with
  | false => exact htripped
  | true =>
    have honly : SameSetUp tracker (tracker.trippedToolDimension (t.clock .toolWindowAgain) (t.clock .errorWindowAgain)).2 := by
      unfold RepetitionTracker.trippedToolDimension
      dsimp only
      split_ifs
      · exact (toolDimension_setUp _ _).trans (errorDimension_setUp _ _)
      · exact toolDimension_setUp _ _
    exact htripped.trans honly

theorem tracker_of_left {α : Type} (rule : IdleWatchdog → α × IdleWatchdog)
    (hrule : ∀ tracker since, rule (w.leave tracker since) = left (rule w) tracker since) :
    (rule w).2.repetitionTracker = w.repetitionTracker := by
  have hself := hrule w.repetitionTracker w.strictlyStuckRunStartedAt
  rw [leave_self] at hself
  exact congrArg (fun result => result.2.repetitionTracker) hself

theorem evaluateIdle_tracker : (w.evaluateIdle t (t.now - w.lastActivity)).2.repetitionTracker = w.repetitionTracker := by
  unfold evaluateIdle
  cases w.config.idleTimeoutSeconds with
  | none => rfl
  | some timeout =>
    dsimp only
    rw [evaluateStrictlyStuck_eq]
    cases w.strictlyStuckDue t with
    | true =>
      exact tracker_of_left (fun w => w.fireThroughGate t .strictlyStuck)
        fun tracker since => fireThroughGate_leave w t tracker since .strictlyStuck
    | false =>
      exact tracker_of_left (w := { w with strictlyStuckRunStartedAt := w.strictlyStuckRun t })
        (fun after => after.evaluateQuiet t (t.now - w.lastActivity) timeout)
        fun tracker since => evaluateQuiet_leave _ t tracker since timeout

theorem evaluateStandard_setUp : SameSetUp w.repetitionTracker (w.evaluateStandard t).2.repetitionTracker := by
  have hgate : ∀ (w : IdleWatchdog) (reason : WatchdogFireReason), (w.fireThroughGate t reason).2.repetitionTracker = w.repetitionTracker := by
    intro w reason
    exact tracker_of_left (fun w => w.fireThroughGate t reason)
      fun tracker since => fireThroughGate_leave w t tracker since reason
  have hrepetition := repetitionReason_setUp (w := w) (t := t)
  unfold evaluateStandard
  split_ifs
  · rw [hgate]
    exact ⟨rfl, rfl, rfl⟩
  generalize w.repetitionReason t = outcome at hrepetition ⊢
  obtain ⟨found, after⟩ := outcome
  cases found with
  | some reason =>
    dsimp only
    rw [hgate]
    exact hrepetition
  | none =>
    dsimp only at hrepetition ⊢
    rw [evaluateNoOutputAtStart_eq]
    cases after.noOutputAtStartDue t with
    | true =>
      show SameSetUp w.repetitionTracker (after.fireThroughGate t .noOutputAtStart).2.repetitionTracker
      rw [hgate]
      exact hrepetition
    | false =>
      show SameSetUp w.repetitionTracker (after.evaluateIdle t (t.now - after.lastActivity)).2.repetitionTracker
      rw [evaluateIdle_tracker]
      exact hrepetition

structure Made (first after : IdleWatchdog) : Prop where
  config : after.config = first.config
  monitor : after.hasProcessMonitor = first.hasProcessMonitor
  session : after.sessionStartedAt = first.sessionStartedAt
  tracker : SameSetUp first.repetitionTracker after.repetitionTracker

theorem Made.refl : Made w w := ⟨rfl, rfl, rfl, rfl, rfl, rfl⟩

theorem Made.trans {first second third : IdleWatchdog} (h : Made first second) (h' : Made second third) : Made first third :=
  ⟨h'.config.trans h.config, h'.monitor.trans h.monitor, h'.session.trans h.session, h.tracker.trans h'.tracker⟩

theorem accumulateWaitingRun_made (at_ : ℚ) : Made w (w.accumulateWaitingRun at_) := by
  unfold accumulateWaitingRun
  split <;> exact ⟨rfl, rfl, rfl, rfl, rfl, rfl⟩

theorem evaluate_made : Made w (w.evaluate t).2 := by
  have hpolled : Made w (w.pollSubagentOutput t) := by
    unfold pollSubagentOutput
    split <;> exact ⟨rfl, rfl, rfl, rfl, rfl, rfl⟩
  refine hpolled.trans ?_
  unfold evaluate
  dsimp only
  cases (w.pollSubagentOutput t).config.profile with
  | standard =>
    have hstanding := (evaluateStandard_steady (w := w.pollSubagentOutput t) (t := t)).standing
    exact ⟨congrArg Standing.config hstanding, congrArg Standing.hasProcessMonitor hstanding,
      congrArg Standing.sessionStartedAt hstanding, evaluateStandard_setUp⟩
  | activityOnly =>
    unfold evaluateActivityOnly
    dsimp only
    split_ifs
    · exact ⟨rfl, rfl, rfl, rfl, rfl, rfl⟩
    · cases (w.pollSubagentOutput t).config.idleTimeoutSeconds with
      | none => exact .refl
      | some timeout =>
        dsimp only
        split <;> exact ⟨rfl, rfl, rfl, rfl, rfl, rfl⟩

theorem perform_made (call : WatchdogCall) : Made w (w.perform call) := by
  have hrun : ∀ (w : IdleWatchdog) (at_ : ℚ), Made w (w.accumulateWaitingRun at_) := fun w at_ => accumulateWaitingRun_made at_
  cases call with
  | evaluate t => exact evaluate_made
  | recordInvocationStart | recordMcpToolCall | recordSubagentWork | recordSubagentOutput | setIsWaitingState =>
    exact ⟨rfl, rfl, rfl, rfl, rfl, rfl⟩
  | recordLifecycleActivity at_ | recordToolUseActivity at_ => exact (hrun w at_).trans ⟨rfl, rfl, rfl, rfl, rfl, rfl⟩
  | recordActivity at_ | recordToolCallActivity _ at_ | recordErrorActivity _ at_ =>
    -- what is noted is noted in the tracker as it was before the run was closed
    exact ⟨(hrun w at_).config, (hrun w at_).monitor, (hrun w at_).session, rfl, rfl, rfl⟩
  | recordProgressReport fingerprint first second =>
    show Made w (w.recordProgressReport fingerprint first second)
    unfold recordProgressReport
    split_ifs
    · exact ⟨(hrun w first).config, (hrun w first).monitor, (hrun w first).session, rfl, rfl, rfl⟩
    · have hclosed := hrun { w with lastProgressFingerprint := some fingerprint } first
      exact ⟨hclosed.config, hclosed.monitor, hclosed.session, rfl, rfl, rfl⟩
  | recordToolResultActivity isHarnessEcho at_ baselineAt =>
    cases isHarnessEcho with
    | true => exact (hrun w at_).trans ⟨rfl, rfl, rfl, rfl, rfl, rfl⟩
    | false => exact ((hrun w at_).trans (hrun _ baselineAt)).trans ⟨rfl, rfl, rfl, rfl, rfl, rfl⟩
  | recordWorkspaceEvent weight at_ =>
    show Made w (w.recordWorkspaceEvent weight at_)
    unfold recordWorkspaceEvent
    split_ifs <;> exact ⟨rfl, rfl, rfl, rfl, rfl, rfl⟩

theorem after_made (calls : List WatchdogCall) : Made w (w.after calls) := by
  induction calls generalizing w with
  | nil => exact .refl
  | cons call rest ih => exact (perform_made call).trans ih

/-! ## Reuse -/

/-- Nothing that the start of an invocation forgets to reset can matter from this time on. -/
structure NothingLeft (w : IdleWatchdog) (now : ℚ) : Prop where
  inARow : w.config.repeatedErrorConsecutiveThreshold = none ∨
    w.repetitionTracker.consecutive = 0 ∧ w.repetitionTracker.toolConsecutive = 0
  windows : w.repetitionTracker.windowed = true →
    ∀ event ∈ w.repetitionTracker.events ++ w.repetitionTracker.toolEvents,
      ∀ window, w.config.repeatedErrorWindowSeconds = some window → event.2 < now - window
  stuck : StuckUnread w.config ∨ w.strictlyStuckRunStartedAt = none

/-- A watchdog made anew: the same configuration, monitor and session, and the waiting flag as it stands. -/
def renewed (w : IdleWatchdog) : IdleWatchdog :=
  (create w.config w.hasProcessMonitor w.sessionStartedAt).setIsWaitingState w.isWaitingState

theorem twin_of_nothingLeft (hconfigured : w.Configured) (h : w.config.profile = .standard → w.NothingLeft now) :
    Twin now (w.recordInvocationStart now) (w.renewed.recordInvocationStart now) where
  same := rfl
  tracker hstandard := by
    obtain ⟨hrow, hwindows, -⟩ := h hstandard
    have hstale : ∀ events : List (String × ℚ), (∀ event ∈ events, event ∈ w.repetitionTracker.events ++ w.repetitionTracker.toolEvents) →
        (w.renewed.recordInvocationStart now).repetitionTracker.windowed = true →
          RepetitionTracker.StaleBefore (w.renewed.recordInvocationStart now).repetitionTracker.windowSeconds now events [] := by
      intro events hevents hwindowed
      have hlooks : w.repetitionTracker.windowed = true := by
        unfold RepetitionTracker.windowed at hwindowed ⊢
        rw [hconfigured.windowCount, hconfigured.windowSeconds]
        exact hwindowed
      exact ⟨events, (List.append_nil events).symm, fun event hevent => hwindows hlooks event (hevents event hevent)⟩
    refine ⟨hconfigured.consecutiveThreshold, hconfigured.windowCount, hconfigured.windowSeconds, ?_, ?_, ?_, ?_⟩
    · exact hrow.imp id fun hzero => ⟨hzero.1, .inl hzero.1⟩
    · exact hrow.imp id fun hzero => ⟨hzero.2, .inl hzero.2⟩
    · exact hstale _ fun event hevent => List.mem_append_left _ hevent
    · exact hstale _ fun event hevent => List.mem_append_right _ hevent
  stuck hstandard := (h hstandard).stuck

/-- A watchdog whose history left nothing gives the verdicts and reasons of a new one. -/
theorem reused_watchdog_agrees {config : TimeoutPolicy} {hasProcessMonitor : Bool} {session now : ℚ} {history later : List WatchdogCall}
    (hleft : config.profile = .standard → ((create config hasProcessMonitor session).after history).NothingLeft now)
    (hlater : ∀ call ∈ later, NotBefore now call) :
    (((create config hasProcessMonitor session).after history).recordInvocationStart now).trace later =
      (((create config hasProcessMonitor session).setIsWaitingState
        ((create config hasProcessMonitor session).after history).isWaitingState).recordInvocationStart now).trace later := by
  have hmade := after_made (w := create config hasProcessMonitor session) history
  generalize (create config hasProcessMonitor session).after history = w at hleft hmade ⊢
  have hnew : w.renewed = (create config hasProcessMonitor session).setIsWaitingState w.isWaitingState := by
    unfold renewed
    rw [hmade.config, hmade.monitor, hmade.session]
    rfl
  have hcreated : (create config hasProcessMonitor session).Configured := ⟨rfl, rfl, rfl⟩
  have hconfigured : w.Configured := hcreated.of_same hmade.config hmade.tracker
  have hprofile : w.config.profile = .standard → w.NothingLeft now := by
    rw [hmade.config]
    exact hleft
  rw [← hnew]
  exact trace_twin (twin_of_nothingLeft hconfigured hprofile) hlater

/-! ## Errors of the invocation before -/

def fourErrors : List WatchdogCall :=
  (List.range 4).map fun i => .recordErrorActivity "connection refused" (i + 1 : ℕ) (i + 1 : ℕ)

def evaluationAt (instant : ℚ) : WatchdogCall :=
  .evaluate { clock := fun _ => instant, classifyQuiet := fun _ => .active }

/-- With progress after them, and more than ten minutes, nothing is left of four errors. -/
theorem reused_watchdog_agrees_after_progress :
    (((create { idleTimeoutSeconds := some 300 } false 0).after (fourErrors ++ [.recordActivity 5 5])).recordInvocationStart
        1000).trace [.recordErrorActivity "connection refused" 1001 1001, evaluationAt 1002] =
      (((create { idleTimeoutSeconds := some 300 } false 0).setIsWaitingState false).recordInvocationStart 1000).trace
        [.recordErrorActivity "connection refused" 1001 1001, evaluationAt 1002] :=
  reused_watchdog_agrees
    (fun _ => ⟨.inr (by decide +kernel), fun _ => by
      intro event hevent window hwindow
      cases hwindow
      revert event
      decide +kernel, .inr (by decide +kernel)⟩)
    (by
      intro call hcall
      rcases List.mem_cons.mp hcall with rfl | hcall
      · exact ⟨by decide +kernel, by decide +kernel⟩
      · rw [List.mem_singleton.mp hcall]
        intro reading
        exact (by decide +kernel : (1000 : ℚ) ≤ 1002))

/-- One error and an evaluation: a new watchdog goes on, and one that saw four errors before fires. -/
theorem reused_watchdog_remembers : (((create { idleTimeoutSeconds := some 300 } false 0).after fourErrors).recordInvocationStart 10).trace
        [.recordErrorActivity "connection refused" 11 11, evaluationAt 12] =
        [(none, none), (some .fire, some .repeatedErrorLoop)] ∧
      (((create { idleTimeoutSeconds := some 300 } false 0).setIsWaitingState false).recordInvocationStart 10).trace
        [.recordErrorActivity "connection refused" 11 11, evaluationAt 12] =
        [(none, none), (some .continue, none)] :=
  ⟨by decide +kernel, by decide +kernel⟩

end IdleWatchdog

end RalphWorkflow.Agents
