import RalphWorkflow.Proof.Watchdog.Rules

/-! Where an evaluation returns decides what becomes of the run of waiting that is open, and what was seen of the agent last. -/
namespace RalphWorkflow.Agents.IdleWatchdog

/-! ## Ways out of an evaluation -/

inductive Exit
  | activityOnly | ceiling | start | untimed | strictlyStuck | quiet | busy | draining | stalled | heard | drained | leftWaiting
  | waits
  deriving DecidableEq

inductive RunMove
  | keeps | closes | opens
  deriving DecidableEq

def Exit.move : Exit → RunMove
  | .waits => .opens
  | .busy | .drained | .leftWaiting => .closes
  | .activityOnly | .ceiling | .start | .untimed | .strictlyStuck | .quiet | .draining | .stalled | .heard => .keeps

variable (w : IdleWatchdog) (t : Tick)

def startAsks : Bool :=
  match w.config.noOutputAtStartSeconds, w.hasMeaningfulOutput, w.lastMeaningfulOutputAt with
  | some limit, false, some outputAt => limit ≤ t.now - outputAt
  | _, _, _ => false

def waitingExit : Exit := if t.classifyQuiet .waitingBranch = .waitingOnChild then .waits else .leftWaiting

def finalExit : Exit :=
  if w.drainStartedAt.isSome then
    if t.classifyQuiet .drainWindow = .waitingOnChild then waitingExit t else .draining
  else if w.postToolStallDue t then .stalled
  else if t.classifyQuiet .finalVerdict = .waitingOnChild then waitingExit t
  else if w.channelEvidenceActive t .finalVerdict then .heard
  else .drained

def idleExit : Exit :=
  match w.config.idleTimeoutSeconds with
  | none => .untimed
  | some timeout =>
    if w.strictlyStuckDue t then .strictlyStuck
    else if t.classifyQuiet .evaluate = .waitingOnChild ∧ w.noProgressQuietDue t then .quiet
    else if t.now - w.lastActivity < timeout then .busy
    else w.finalExit t

def standardExit : Exit :=
  if w.sessionCeilingReached t || w.repetitionTripped t then .ceiling
  else if w.noOutputAtStartDue t then .start
  else w.idleExit t

def exit : Exit :=
  match w.config.profile with
  | .activityOnly => .activityOnly
  | .standard => w.standardExit t

def lastAsked : Exit → Option QuietSite
  | .activityOnly | .ceiling => none
  | .untimed | .strictlyStuck | .quiet | .busy | .stalled => some (if w.startAsks t then .noOutputAtStart else .evaluate)
  | .start => some .noOutputAtStart
  | .draining => some .drainWindow
  | .heard | .drained => some .finalVerdict
  | .leftWaiting | .waits => some .waitingBranch

/-! ## What a call sees -/

inductive Sighting
  | nothing | waiting | notWaiting
  deriving DecidableEq

/-- The waiting branch alone asks past the idle deadline and goes on to wait. -/
def evaluationSees : Sighting :=
  match w.lastAsked t (w.exit t) with
  | none => .nothing
  | some site =>
    if t.classifyQuiet site ≠ .waitingOnChild then .notWaiting
    else if site = .waitingBranch then .waiting else .nothing

/-- Activity is that of an agent that does not wait; the channels beside stdout tell nothing of it. -/
def sees (w : IdleWatchdog) : WatchdogCall → Sighting
  | .evaluate t => (w.pollSubagentOutput t).evaluationSees t
  | .recordActivity .. | .recordLifecycleActivity .. | .recordToolUseActivity .. | .recordToolCallActivity ..
  | .recordErrorActivity .. | .recordProgressReport .. | .recordToolResultActivity .. => .notWaiting
  | .recordInvocationStart .. | .recordMcpToolCall .. | .recordSubagentWork .. | .recordSubagentOutput ..
  | .recordWorkspaceEvent .. | .setIsWaitingState .. => .nothing

/-! ## What each way out does -/

variable {w after : IdleWatchdog} {t : Tick}

def Moved (move : RunMove) (now : ℚ) (w after : IdleWatchdog) : Prop :=
  match move with
  | .keeps =>
    after.waitingOnChildStartedAt = w.waitingOnChildStartedAt ∧
      after.cumulativeWaitingOnChildSeconds = w.cumulativeWaitingOnChildSeconds
  | .closes =>
    after.waitingOnChildStartedAt = none ∧
      after.cumulativeWaitingOnChildSeconds =
        w.cumulativeWaitingOnChildSeconds + w.waitingOnChildStartedAt.elim 0 fun startedAt => max 0 (now - startedAt)
  | .opens =>
    after.waitingOnChildStartedAt = some (w.waitingOnChildStartedAt.getD now) ∧
      after.cumulativeWaitingOnChildSeconds = w.cumulativeWaitingOnChildSeconds

theorem Moved.keeps_rfl {now : ℚ} : Moved .keeps now w w := ⟨rfl, rfl⟩

theorem accumulateWaitingRun_moved {now : ℚ} : Moved .closes now w (w.accumulateWaitingRun now) := by
  unfold accumulateWaitingRun
  cases hrun : w.waitingOnChildStartedAt with
  | none => exact ⟨hrun, by rw [hrun, Option.elim_none, add_zero]⟩
  | some startedAt => exact ⟨rfl, by rw [hrun]; rfl⟩

theorem fireThroughGate_moved {reason : WatchdogFireReason} : Moved .keeps t.now w (w.fireThroughGate t reason).2 := by
  unfold fireThroughGate gateFire
  split_ifs
  · exact ⟨rfl, rfl⟩
  · cases w.classifyStuckNow t <;> exact ⟨rfl, rfl⟩

theorem fireNoProgressQuiet_moved : Moved .keeps t.now w (w.fireNoProgressQuiet t).2 := by
  have hgate : Moved .keeps t.now w (w.fireThroughGate t .noProgressQuiet).2 := fireThroughGate_moved
  unfold fireNoProgressQuiet
  generalize w.fireThroughGate t .noProgressQuiet = fired at hgate ⊢
  obtain ⟨verdict, gated⟩ := fired
  cases verdict <;> exact hgate

theorem Moved.of_closes {mid : IdleWatchdog} {now : ℚ} (hfirst : Moved .closes now w mid)
    (hrun : after.waitingOnChildStartedAt = mid.waitingOnChildStartedAt)
    (htotal : after.cumulativeWaitingOnChildSeconds = mid.cumulativeWaitingOnChildSeconds) : Moved .closes now w after :=
  ⟨hrun.trans hfirst.1, htotal.trans hfirst.2⟩

theorem handleActiveBranch_moved : Moved .closes t.now w (w.handleActiveBranch t).2 := by
  have hclosed : Moved .closes t.now w (w.accumulateWaitingRun t.now) := accumulateWaitingRun_moved
  unfold handleActiveBranch
  dsimp only
  split_ifs
  · obtain ⟨hrun, htotal⟩ : Moved .keeps t.now (w.accumulateWaitingRun t.now)
      ((w.accumulateWaitingRun t.now).fireThroughGate t .noOutputDeadline).2 := fireThroughGate_moved
    exact hclosed.of_closes hrun htotal
  · exact hclosed.of_closes rfl rfl

theorem Moved.closes_of_entered {now : ℚ}
    (h : Moved .closes now { w with waitingOnChildStartedAt := some (w.waitingOnChildStartedAt.getD now) } after) :
    Moved .closes now w after := by
  refine ⟨h.1, ?_⟩
  rw [h.2]
  cases w.waitingOnChildStartedAt with
  | none => simp
  | some startedAt => rfl

theorem handleWaitingBranch_moved : Moved (waitingExit t).move t.now w (w.handleWaitingBranch t).2 := by
  unfold waitingExit handleWaitingBranch
  dsimp only
  by_cases hwaits : t.classifyQuiet .waitingBranch = .waitingOnChild
  · rw [if_pos hwaits, if_neg (not_not.mpr hwaits)]
    split_ifs
    · have hmoved : Moved .keeps t.now { w with waitingOnChildStartedAt := some (w.waitingOnChildStartedAt.getD t.now) }
        ({ w with waitingOnChildStartedAt := some (w.waitingOnChildStartedAt.getD t.now) }.fireThroughGate t
          .childrenPersistTooLong).2 := fireThroughGate_moved
      exact hmoved
    · exact ⟨rfl, rfl⟩
    · exact ⟨rfl, rfl⟩
    · exact ⟨rfl, rfl⟩
  · have hclosed : Moved .closes t.now { w with waitingOnChildStartedAt := some (w.waitingOnChildStartedAt.getD t.now) }
        ({ w with waitingOnChildStartedAt := some (w.waitingOnChildStartedAt.getD t.now) }.accumulateWaitingRun t.now) :=
      accumulateWaitingRun_moved
    rw [if_neg hwaits, if_pos hwaits]
    refine Moved.closes_of_entered ?_
    split_ifs
    · exact hclosed
    · obtain ⟨hrun, htotal⟩ := handleActiveBranch_moved (t := t)
        (w := { w with waitingOnChildStartedAt := some (w.waitingOnChildStartedAt.getD t.now) }.accumulateWaitingRun t.now)
      refine hclosed.of_closes (hrun.trans hclosed.1.symm) (htotal.trans ?_)
      rw [hclosed.1, Option.elim_none, add_zero]

theorem evaluateFinalVerdict_moved : Moved (w.finalExit t).move t.now w (w.evaluateFinalVerdict t).2 := by
  unfold finalExit evaluateFinalVerdict
  cases w.drainStartedAt with
  | some startedAt =>
    rw [Option.isSome_some, if_pos rfl]
    dsimp only
    unfold handleDrainWindow
    by_cases hwaiting : t.classifyQuiet .drainWindow = .waitingOnChild
    · have hmoved : Moved (waitingExit t).move t.now { w with drainStartedAt := none }
        ({ w with drainStartedAt := none }.handleWaitingBranch t).2 := handleWaitingBranch_moved
      rw [if_pos hwaiting, if_pos hwaiting]
      exact hmoved
    · rw [if_neg hwaiting, if_neg hwaiting]
      split_ifs
      · exact .keeps_rfl
      · exact fireThroughGate_moved
  | none =>
    rw [Option.isSome_none, if_neg Bool.false_ne_true]
    dsimp only
    rw [postToolResultStalled_eq]
    cases w.postToolStallDue t with
    | true => exact fireThroughGate_moved
    | false =>
      rw [if_neg Bool.false_ne_true, if_neg Bool.false_ne_true]
      by_cases hwaiting : t.classifyQuiet .finalVerdict = .waitingOnChild
      · rw [if_pos hwaiting]
        dsimp only
        rw [if_pos hwaiting]
        exact handleWaitingBranch_moved
      · rw [if_neg hwaiting]
        dsimp only
        rw [if_neg hwaiting]
        split_ifs
        · exact .keeps_rfl
        · exact handleActiveBranch_moved

theorem evaluateQuiet_moved {timeout : ℚ} : Moved (if t.classifyQuiet .evaluate = .waitingOnChild ∧ w.noProgressQuietDue t then Exit.quiet
      else if t.now - w.lastActivity < timeout then .busy else w.finalExit t).move t.now w
        (w.evaluateQuiet t (t.now - w.lastActivity) timeout).2 := by
  have hrest : Moved (if t.now - w.lastActivity < timeout then Exit.busy else w.finalExit t).move t.now w
      (if t.now - w.lastActivity < timeout then (.continue, w.accumulateWaitingRun t.now) else w.evaluateFinalVerdict t :
        WatchdogVerdict × IdleWatchdog).2 := by
    split_ifs
    · exact accumulateWaitingRun_moved
    · exact evaluateFinalVerdict_moved
  unfold evaluateQuiet
  by_cases hwaiting : t.classifyQuiet .evaluate = .waitingOnChild
  · rw [if_pos hwaiting, evaluateNoProgressQuiet_eq]
    cases hquiet : w.noProgressQuietDue t with
    | true =>
      have hfired : Moved .keeps t.now w (w.fireNoProgressQuiet t).2 := fireNoProgressQuiet_moved
      have hverdict := fireNoProgressQuiet_fst (w := w) (t := t)
      rw [if_pos rfl, if_pos ⟨hwaiting, rfl⟩]
      generalize w.fireNoProgressQuiet t = fired at hfired hverdict ⊢
      obtain ⟨verdict, gated⟩ := fired
      cases hverdict
      exact hfired
    | false =>
      rw [if_neg Bool.false_ne_true, if_neg (fun hboth => Bool.false_ne_true hboth.2)]
      exact hrest
  · rw [if_neg hwaiting, if_neg (fun hboth => hwaiting hboth.1)]
    exact hrest

theorem evaluateIdle_moved : Moved (w.idleExit t).move t.now w (w.evaluateIdle t (t.now - w.lastActivity)).2 := by
  unfold idleExit evaluateIdle
  cases w.config.idleTimeoutSeconds with
  | none => exact .keeps_rfl
  | some timeout =>
    dsimp only
    rw [evaluateStrictlyStuck_eq]
    cases w.strictlyStuckDue t with
    | true => exact fireThroughGate_moved
    | false =>
      rw [if_neg Bool.false_ne_true, if_neg Bool.false_ne_true]
      have hquiet : Moved _ t.now { w with strictlyStuckRunStartedAt := w.strictlyStuckRun t }
        ({ w with strictlyStuckRunStartedAt := w.strictlyStuckRun t }.evaluateQuiet t
          (t.now - w.lastActivity) timeout).2 := evaluateQuiet_moved
      exact hquiet

theorem evaluateStandard_moved : Moved (w.standardExit t).move t.now w (w.evaluateStandard t).2 := by
  unfold standardExit evaluateStandard
  cases w.sessionCeilingReached t with
  | true =>
    rw [Bool.true_or, if_pos rfl, if_pos rfl]
    exact fireThroughGate_moved
  | false =>
    obtain ⟨reason, tracker, -, hrepetition⟩ := repetitionReason_eq (w := w) (t := t)
    rw [if_neg Bool.false_ne_true, Bool.false_or, hrepetition]
    cases w.repetitionTripped t with
    | true =>
      have hmoved : Moved .keeps t.now { w with repetitionTracker := tracker }
        ({ w with repetitionTracker := tracker }.fireThroughGate t reason).2 := fireThroughGate_moved
      exact hmoved
    | false =>
      rw [if_neg Bool.false_ne_true, if_neg Bool.false_ne_true]
      dsimp only
      rw [evaluateNoOutputAtStart_eq]
      have hstart : { w with repetitionTracker := tracker }.noOutputAtStartDue t = w.noOutputAtStartDue t := rfl
      rw [hstart]
      cases w.noOutputAtStartDue t with
      | true =>
        have hmoved : Moved .keeps t.now { w with repetitionTracker := tracker }
          ({ w with repetitionTracker := tracker }.fireThroughGate t .noOutputAtStart).2 := fireThroughGate_moved
        exact hmoved
      | false =>
        rw [if_neg Bool.false_ne_true, if_neg Bool.false_ne_true]
        have hidle := evaluateIdle_moved (w := { w with repetitionTracker := tracker }) (t := t)
        exact hidle

theorem evaluateActivityOnly_moved : Moved .keeps t.now w (w.evaluateActivityOnly t).2 := by
  unfold evaluateActivityOnly
  dsimp only
  split_ifs
  · exact ⟨rfl, rfl⟩
  · cases w.config.idleTimeoutSeconds with
    | none => exact .keeps_rfl
    | some timeout =>
      dsimp only
      split <;> exact ⟨rfl, rfl⟩

theorem evaluate_moved : Moved ((w.pollSubagentOutput t).exit t).move t.now w (w.evaluate t).2 := by
  have hpolled : Moved .keeps t.now w (w.pollSubagentOutput t) := by
    unfold pollSubagentOutput
    split <;> exact ⟨rfl, rfl⟩
  obtain ⟨hrun, htotal⟩ := hpolled
  have hevaluated : Moved ((w.pollSubagentOutput t).exit t).move t.now (w.pollSubagentOutput t) (w.evaluate t).2 := by
    unfold evaluate exit
    dsimp only
    cases (w.pollSubagentOutput t).config.profile with
    | standard => exact evaluateStandard_moved
    | activityOnly => exact evaluateActivityOnly_moved
  unfold Moved at hevaluated ⊢
  rw [← hrun, ← htotal]
  exact hevaluated

/-! ## What each way out sees -/

def PastDeadline (w : IdleWatchdog) (now : ℚ) : Prop :=
  ∃ timeout, w.config.idleTimeoutSeconds = some timeout ∧ timeout ≤ now - w.lastActivity

theorem waitingExit_cases : waitingExit t = .waits ∧ t.classifyQuiet .waitingBranch = .waitingOnChild ∨
      waitingExit t = .leftWaiting ∧ t.classifyQuiet .waitingBranch ≠ .waitingOnChild := by
  unfold waitingExit
  split_ifs with hwaits
  · exact .inl ⟨rfl, hwaits⟩
  · exact .inr ⟨rfl, hwaits⟩

def Answers (t : Tick) : Exit → Prop
  | .waits => t.classifyQuiet .waitingBranch = .waitingOnChild
  | .leftWaiting => t.classifyQuiet .waitingBranch ≠ .waitingOnChild
  | .drained => t.classifyQuiet .finalVerdict ≠ .waitingOnChild
  | _ => True

theorem waitingExit_answers : Answers t (waitingExit t) := by
  rcases waitingExit_cases (t := t) with ⟨hexit, hanswer⟩ | ⟨hexit, hanswer⟩
  · rw [hexit]
    exact hanswer
  · rw [hexit]
    exact hanswer

theorem finalExit_answers : Answers t (w.finalExit t) ∧ w.finalExit t ≠ .busy := by
  have hwaiting : waitingExit t ≠ .busy := by
    rcases waitingExit_cases (t := t) with ⟨hexit, -⟩ | ⟨hexit, -⟩ <;> simp [hexit]
  unfold finalExit
  split_ifs with hdrain hsees hstalled hsees hheard
  · exact ⟨waitingExit_answers, hwaiting⟩
  · exact ⟨trivial, by decide⟩
  · exact ⟨trivial, by decide⟩
  · exact ⟨waitingExit_answers, hwaiting⟩
  · exact ⟨trivial, by decide⟩
  · exact ⟨hsees, by decide⟩

/-- Only past the deadline is a wait begun, and only before it is the agent busy. -/
structure ExitSays (w : IdleWatchdog) (t : Tick) (exit : Exit) : Prop where
  answers : Answers t exit
  waits : exit = .waits → w.PastDeadline t.now
  busy : exit = .busy → ∃ timeout, w.config.idleTimeoutSeconds = some timeout ∧ t.now - w.lastActivity < timeout

theorem exitSays_of_other {exit : Exit} (hanswers : Answers t exit) (hwaits : exit ≠ .waits) (hbusy : exit ≠ .busy) : w.ExitSays t exit :=
  ⟨hanswers, fun h => absurd h hwaits, fun h => absurd h hbusy⟩

theorem exit_tells : w.ExitSays t (w.exit t) := by
  unfold exit
  cases w.config.profile with
  | activityOnly =>
    have hsays : w.ExitSays t .activityOnly := exitSays_of_other trivial (by decide) (by decide)
    exact hsays
  | standard =>
    dsimp only
    unfold standardExit
    split_ifs
    · exact exitSays_of_other trivial (by decide) (by decide)
    · exact exitSays_of_other trivial (by decide) (by decide)
    · unfold idleExit
      cases htimeout : w.config.idleTimeoutSeconds with
      | none =>
        have hsays : w.ExitSays t .untimed := exitSays_of_other trivial (by decide) (by decide)
        exact hsays
      | some timeout =>
        dsimp only
        split_ifs with hstuck hquiet hearly
        · exact exitSays_of_other trivial (by decide) (by decide)
        · exact exitSays_of_other trivial (by decide) (by decide)
        · exact ⟨trivial, nofun, fun _ => ⟨timeout, htimeout, hearly⟩⟩
        · obtain ⟨hanswers, hbusy⟩ := finalExit_answers (w := w) (t := t)
          exact ⟨hanswers, fun _ => ⟨timeout, htimeout, not_lt.mp hearly⟩, fun h => absurd h hbusy⟩

theorem evaluationSees_waiting_iff : w.evaluationSees t = .waiting ↔ w.exit t = .waits := by
  have hsays := exit_tells (w := w) (t := t)
  unfold evaluationSees
  generalize w.exit t = exit at hsays ⊢
  cases exit with
  | waits =>
    have hanswer : t.classifyQuiet .waitingBranch = .waitingOnChild := hsays.answers
    simp [lastAsked, hanswer]
  | leftWaiting =>
    have hanswer : t.classifyQuiet .waitingBranch ≠ .waitingOnChild := hsays.answers
    simp [lastAsked, hanswer]
  | activityOnly | ceiling => simp [lastAsked]
  | start | draining | heard | drained => simp [lastAsked]; split <;> simp
  | untimed | strictlyStuck | quiet | busy | stalled =>
    by_cases hasks : w.startAsks t = true <;> simp [lastAsked, hasks] <;> split <;> simp

theorem evaluationSees_of_closes (hcloses : (w.exit t).move = .closes) (hbusy : w.exit t ≠ .busy) : w.evaluationSees t = .notWaiting := by
  have hsays := exit_tells (w := w) (t := t)
  unfold evaluationSees
  generalize w.exit t = exit at hsays hcloses hbusy ⊢
  cases exit with
  | busy => exact absurd rfl hbusy
  | leftWaiting | drained =>
    have hanswer := hsays.answers
    simp only [Answers] at hanswer
    simp [lastAsked, hanswer]
  | activityOnly | ceiling | start | untimed | strictlyStuck | quiet | draining | stalled | heard | waits => cases hcloses

theorem evaluate_stands : (w.evaluate t).2.config = w.config ∧ (w.evaluate t).2.lastActivity = w.lastActivity := by
  have hpolled : (w.pollSubagentOutput t).config = w.config ∧ (w.pollSubagentOutput t).lastActivity = w.lastActivity := by
    unfold pollSubagentOutput
    split <;> exact ⟨rfl, rfl⟩
  have hevaluated : (w.evaluate t).2.config = (w.pollSubagentOutput t).config ∧
      (w.evaluate t).2.lastActivity = (w.pollSubagentOutput t).lastActivity := by
    unfold evaluate
    dsimp only
    cases (w.pollSubagentOutput t).config.profile with
    | standard =>
      have hstanding := (evaluateStandard_steady (w := w.pollSubagentOutput t) (t := t)).standing
      exact ⟨congrArg Standing.config hstanding, congrArg Standing.lastActivity hstanding⟩
    | activityOnly =>
      unfold evaluateActivityOnly
      dsimp only
      split_ifs
      · exact ⟨rfl, rfl⟩
      · cases (w.pollSubagentOutput t).config.idleTimeoutSeconds with
        | none => exact ⟨rfl, rfl⟩
        | some timeout =>
          dsimp only
          split <;> exact ⟨rfl, rfl⟩
  exact ⟨hevaluated.1.trans hpolled.1, hevaluated.2.trans hpolled.2⟩

end RalphWorkflow.Agents.IdleWatchdog
