import RalphWorkflow.Agents.IdleWatchdog

/-! Each rule of `evaluate` passes, or sends its fire through the gate. Here it is said of each when it does which, and what an
evaluation leaves alone. -/
namespace RalphWorkflow.Agents.IdleWatchdog

variable (w : IdleWatchdog) (t : Tick)

/-! ## The gate -/

/-- The classifier finds the agent stuck, or its subagent silent. -/
def GateOpen : Prop := w.classifyStuckNow t = .stuck ∨ w.classifyStuckNow t = .silentSubagent

instance : Decidable (w.GateOpen t) := inferInstanceAs (Decidable (_ ∨ _))

variable {w t}

variable {reason : WatchdogFireReason}

theorem fireThroughGate_open (hopen : w.GateOpen t) : (w.fireThroughGate t reason).1 = .fire := by
  unfold fireThroughGate gateFire
  by_cases hsession : reason = .sessionCeilingExceeded
  · rw [if_pos hsession]
  · rw [if_neg hsession]
    rcases hopen with hstuck | hsilent
    · rw [hstuck]
    · rw [hsilent]

theorem fireThroughGate_closed (hreason : reason ≠ .sessionCeilingExceeded)
    (hclosed : ¬w.GateOpen t) : (w.fireThroughGate t reason).1 = .continue := by
  unfold fireThroughGate gateFire
  rw [if_neg hreason]
  cases hkind : w.classifyStuckNow t with
  | stuck => exact absurd (.inl hkind) hclosed
  | silentSubagent => exact absurd (.inr hkind) hclosed
  | thinking | loading | waitingOnConnectivity | transitioning | duplicateKill => rfl

theorem fireThroughGate_fire_iff (hreason : reason ≠ .sessionCeilingExceeded) : (w.fireThroughGate t reason).1 = .fire ↔ w.GateOpen t := by
  constructor
  · intro hfire
    by_contra hclosed
    rw [fireThroughGate_closed hreason hclosed] at hfire
    cases hfire
  · exact fireThroughGate_open

theorem fireThroughGate_session : (w.fireThroughGate t .sessionCeilingExceeded).1 = .fire := rfl

theorem fireNoProgressQuiet_fst : (w.fireNoProgressQuiet t).1 = some (w.fireThroughGate t .noProgressQuiet).1 := by
  unfold fireNoProgressQuiet
  obtain ⟨verdict, w⟩ := w.fireThroughGate t .noProgressQuiet
  cases verdict <;> rfl

/-! ## Each rule -/

variable (w t)

def repetitionTripped : Bool := (w.repetitionTracker.tripped (t.clock .errorWindow) (t.clock .toolWindow)).1

def noOutputAtStartDue : Bool :=
  match w.config.noOutputAtStartSeconds, w.lastMeaningfulOutputAt with
  | some limit, some outputAt =>
    !w.hasMeaningfulOutput && decide (limit ≤ t.now - outputAt) && decide (t.classifyQuiet .noOutputAtStart = .active) &&
      !w.channelEvidenceActive t .noOutputAtStart &&
      !(t.corroboration.aliveBy = some .freshProgress || t.corroboration.aliveBy = some .freshHeartbeatOnly) &&
      !decide (0 < w.cumulativeWaitingOnChildSeconds)
  | _, _ => false

def strictlyStuckRun : Option ℚ :=
  if w.config.noProgressQuietStrictlyStuckSeconds.isSome && strictlyStuckAliveBy t.corroboration.aliveBy then
    some (w.strictlyStuckRunStartedAt.getD t.now)
  else none

def strictlyStuckDue : Bool :=
  match w.config.noProgressQuietStrictlyStuckSeconds, w.strictlyStuckRunStartedAt with
  | some limit, some startedAt =>
    strictlyStuckAliveBy t.corroboration.aliveBy && decide (limit ≤ t.now - startedAt) &&
      !w.channelEvidenceActive t .strictlyStuck
  | _, _ => false

def noProgressQuietDue : Bool :=
  w.heartbeatOnlyTooLong t .heartbeatCeiling .heartbeatFloor ||
    match w.config.noProgressQuietSeconds with
    | none => false
    | some limit =>
      decide (limit ≤ w.invocationElapsedSeconds t .quietCeiling) && decide (limit ≤ t.now - w.lastActivity) &&
        w.isNoProgressQuiet t

def postToolStallDue : Bool :=
  match w.config.postToolResultProgressionSeconds, w.lastToolResultAt with
  | some limit, some resultAt => w.awaitingPostToolResultProgression && decide (limit ≤ t.now - resultAt)
  | _, _ => false

variable {w t}

theorem repetitionReason_eq : ∃ reason tracker, reason ≠ .sessionCeilingExceeded ∧ w.repetitionReason t =
        (if w.repetitionTripped t then some reason else none, { w with repetitionTracker := tracker }) := by
  unfold repetitionReason repetitionTripped
  obtain ⟨tripped, tracker⟩ := w.repetitionTracker.tripped (t.clock .errorWindow) (t.clock .toolWindow)
  cases tripped with
  | false => exact ⟨.repeatedErrorLoop, _, by decide, rfl⟩
  | true =>
    dsimp only
    obtain ⟨onlyTools, tracker⟩ := tracker.trippedToolDimension (t.clock .toolWindowAgain) (t.clock .errorWindowAgain)
    refine ⟨_, _, ?_, rfl⟩
    cases onlyTools <;> simp

theorem evaluateNoOutputAtStart_eq : w.evaluateNoOutputAtStart t =
      if w.noOutputAtStartDue t then (w.fireThroughGate t .noOutputAtStart).map some id else (none, w) := by
  unfold evaluateNoOutputAtStart noOutputAtStartDue
  cases w.config.noOutputAtStartSeconds with
  | none => rfl
  | some limit =>
    cases w.lastMeaningfulOutputAt with
    | none => cases w.hasMeaningfulOutput <;> rfl
    | some outputAt =>
      cases w.hasMeaningfulOutput with
      | true => simp
      | false =>
        rcases lt_or_ge (t.now - outputAt) limit with hearly | hlate
        · simp [hearly, not_le.mpr hearly]
        · simp only [if_neg (not_lt.mpr hlate)]
          split_ifs <;> simp_all

theorem evaluateStrictlyStuck_eq : w.evaluateStrictlyStuck t = if w.strictlyStuckDue t then (w.fireThroughGate t .strictlyStuck).map some id
      else (none, { w with strictlyStuckRunStartedAt := w.strictlyStuckRun t }) := by
  unfold evaluateStrictlyStuck strictlyStuckDue strictlyStuckRun
  cases w.config.noProgressQuietStrictlyStuckSeconds with
  | none => rfl
  | some limit =>
    cases strictlyStuckAliveBy t.corroboration.aliveBy with
    | false => cases w.strictlyStuckRunStartedAt <;> rfl
    | true =>
      cases hstarted : w.strictlyStuckRunStartedAt with
      | none => rfl
      | some startedAt =>
        have hsame : { w with strictlyStuckRunStartedAt := some startedAt } = w := by rw [← hstarted]
        rcases lt_or_ge (t.now - startedAt) limit with hearly | hlate
        · simp [hearly, not_le.mpr hearly, hsame]
        · simp only [if_neg (not_lt.mpr hlate)]
          cases w.channelEvidenceActive t .strictlyStuck <;> simp [hlate, hsame]

theorem evaluateNoProgressQuiet_eq : w.evaluateNoProgressQuiet t (t.now - w.lastActivity) =
      if w.noProgressQuietDue t then w.fireNoProgressQuiet t else (none, w) := by
  unfold evaluateNoProgressQuiet noProgressQuietDue
  cases w.heartbeatOnlyTooLong t .heartbeatCeiling .heartbeatFloor with
  | true => rfl
  | false =>
    cases w.config.noProgressQuietSeconds with
    | none => rfl
    | some limit =>
      rcases lt_or_ge (w.invocationElapsedSeconds t .quietCeiling) limit with hyoung | hold
      · simp [hyoung, not_le.mpr hyoung]
      rcases lt_or_ge (t.now - w.lastActivity) limit with hearly | hlate
      · simp [hearly, not_le.mpr hearly]
      · simp only [if_neg (not_lt.mpr hold), if_neg (not_lt.mpr hlate)]
        cases w.isNoProgressQuiet t <;> simp [hold, hlate]

theorem postToolResultStalled_eq : w.postToolResultStalled t =
      if w.postToolStallDue t then (w.fireThroughGate t .stalledAfterToolResult).map some id else (none, w) := by
  unfold postToolResultStalled postToolStallDue
  cases w.config.postToolResultProgressionSeconds with
  | none => rfl
  | some limit =>
    cases w.lastToolResultAt with
    | none => cases w.awaitingPostToolResultProgression <;> rfl
    | some resultAt =>
      cases w.awaitingPostToolResultProgression with
      | false => rfl
      | true =>
        rcases lt_or_ge (t.now - resultAt) limit with hearly | hlate
        · simp [hearly, not_le.mpr hearly]
        · simp [hlate, not_lt.mpr hlate]

/-! ## What an evaluation leaves alone -/

/-- Evaluating changes none of it. -/
structure Standing where
  config : TimeoutPolicy
  hasProcessMonitor : Bool
  isWaitingState : Bool
  lastActivity : ℚ
  sessionStartedAt : ℚ
  lastMcpToolCallAt : Option ℚ
  lastSubagentProgressAt : Option ℚ
  lastSubagentOutputAt : Option ℚ
  lastWorkspaceEventAt : Option ℚ

def standing (w : IdleWatchdog) : Standing where
  config := w.config
  hasProcessMonitor := w.hasProcessMonitor
  isWaitingState := w.isWaitingState
  lastActivity := w.lastActivity
  sessionStartedAt := w.sessionStartedAt
  lastMcpToolCallAt := w.lastMcpToolCallAt
  lastSubagentProgressAt := w.lastSubagentProgressAt
  lastSubagentOutputAt := w.lastSubagentOutputAt
  lastWorkspaceEventAt := w.lastWorkspaceEventAt

/-- The second stands as the first does, with no drain but one that was on or began now. -/
structure Steady (now : ℚ) (w after : IdleWatchdog) : Prop where
  standing : after.standing = w.standing
  drain : ∀ startedAt, after.drainStartedAt = some startedAt → w.drainStartedAt = some startedAt ∨ startedAt = now

variable {now : ℚ} {u v : IdleWatchdog}

theorem Steady.refl (now : ℚ) (w : IdleWatchdog) : Steady now w w := ⟨rfl, fun _ h => .inl h⟩

theorem Steady.trans (first : Steady now u v) (second : Steady now v w) : Steady now u w where
  standing := second.standing.trans first.standing
  drain := fun startedAt h => (second.drain startedAt h).elim (first.drain startedAt) .inr

theorem accumulateWaitingRun_steady : Steady now w (w.accumulateWaitingRun now) := by
  unfold accumulateWaitingRun
  split
  · exact .refl now w
  · exact ⟨rfl, fun _ h => .inl h⟩

theorem fireThroughGate_steady : Steady t.now w (w.fireThroughGate t reason).2 := by
  unfold fireThroughGate gateFire
  split_ifs
  · exact ⟨rfl, fun _ h => .inl h⟩
  · cases w.classifyStuckNow t <;> exact ⟨rfl, fun _ h => .inl h⟩

theorem evaluateNoOutputAtStart_steady : Steady t.now w (w.evaluateNoOutputAtStart t).2 := by
  rw [evaluateNoOutputAtStart_eq]
  split_ifs
  · exact fireThroughGate_steady
  · exact .refl _ w

theorem evaluateStrictlyStuck_steady : Steady t.now w (w.evaluateStrictlyStuck t).2 := by
  rw [evaluateStrictlyStuck_eq]
  split_ifs
  · exact fireThroughGate_steady
  · exact ⟨rfl, fun _ h => .inl h⟩

theorem postToolResultStalled_steady : Steady t.now w (w.postToolResultStalled t).2 := by
  rw [postToolResultStalled_eq]
  split_ifs
  · exact fireThroughGate_steady
  · exact .refl _ w

theorem evaluateNoProgressQuiet_steady : Steady t.now w (w.evaluateNoProgressQuiet t (t.now - w.lastActivity)).2 := by
  rw [evaluateNoProgressQuiet_eq]
  split_ifs
  · have hgate : Steady t.now w (w.fireThroughGate t .noProgressQuiet).2 := fireThroughGate_steady
    unfold fireNoProgressQuiet
    generalize w.fireThroughGate t .noProgressQuiet = fired at hgate ⊢
    obtain ⟨verdict, after⟩ := fired
    cases verdict <;> exact ⟨hgate.standing, hgate.drain⟩
  · exact .refl _ w

theorem handleActiveBranch_steady : Steady t.now w (w.handleActiveBranch t).2 := by
  have hrun : Steady t.now w (w.accumulateWaitingRun t.now) := accumulateWaitingRun_steady
  unfold handleActiveBranch
  dsimp only
  split_ifs
  · exact hrun.trans fireThroughGate_steady
  · exact hrun.trans ⟨rfl, fun _ h => .inr (Option.some.inj h).symm⟩

theorem handleWaitingBranch_steady : Steady t.now w (w.handleWaitingBranch t).2 := by
  have hwaits : Steady t.now w { w with waitingOnChildStartedAt := some (w.waitingOnChildStartedAt.getD t.now) } :=
    ⟨rfl, fun _ h => .inl h⟩
  unfold handleWaitingBranch
  dsimp only
  split_ifs
  · exact hwaits.trans accumulateWaitingRun_steady
  · exact (hwaits.trans accumulateWaitingRun_steady).trans handleActiveBranch_steady
  · exact hwaits.trans fireThroughGate_steady
  · exact hwaits
  · exact hwaits.trans ⟨rfl, fun _ h => .inl h⟩
  · exact hwaits

theorem handleDrainWindow_steady {startedAt : ℚ} : Steady t.now w (w.handleDrainWindow t startedAt).2 := by
  have hleft : Steady t.now w { w with drainStartedAt := none } := ⟨rfl, fun _ h => by cases h⟩
  unfold handleDrainWindow
  split_ifs
  · exact hleft.trans handleWaitingBranch_steady
  · exact .refl _ w
  · exact fireThroughGate_steady

theorem evaluateFinalVerdict_steady : Steady t.now w (w.evaluateFinalVerdict t).2 := by
  unfold evaluateFinalVerdict
  cases w.drainStartedAt with
  | some startedAt => exact handleDrainWindow_steady
  | none =>
    have hstall := postToolResultStalled_steady (w := w) (t := t)
    dsimp only
    generalize w.postToolResultStalled t = stalled at hstall ⊢
    obtain ⟨verdict, after⟩ := stalled
    cases verdict with
    | some verdict => exact hstall
    | none =>
      dsimp only
      split_ifs
      · exact hstall.trans handleWaitingBranch_steady
      · exact hstall
      · exact hstall.trans handleActiveBranch_steady

theorem evaluateQuiet_steady {timeout : ℚ} : Steady t.now w (w.evaluateQuiet t (t.now - w.lastActivity) timeout).2 := by
  have hquiet : Steady t.now w (if t.classifyQuiet .evaluate = .waitingOnChild then w.evaluateNoProgressQuiet t (t.now - w.lastActivity)
        else (none, w)).2 := by
    split_ifs
    · exact evaluateNoProgressQuiet_steady
    · exact .refl _ w
  unfold evaluateQuiet
  generalize (if t.classifyQuiet .evaluate = .waitingOnChild then w.evaluateNoProgressQuiet t (t.now - w.lastActivity)
    else (none, w)) = quiet at hquiet ⊢
  obtain ⟨verdict, after⟩ := quiet
  cases verdict with
  | some verdict => exact hquiet
  | none =>
    dsimp only
    split_ifs
    · exact hquiet.trans accumulateWaitingRun_steady
    · exact hquiet.trans evaluateFinalVerdict_steady

theorem evaluateIdle_steady : Steady t.now w (w.evaluateIdle t (t.now - w.lastActivity)).2 := by
  unfold evaluateIdle
  cases w.config.idleTimeoutSeconds with
  | none => exact .refl _ w
  | some timeout =>
    have hstuck := evaluateStrictlyStuck_steady (w := w) (t := t)
    dsimp only
    generalize w.evaluateStrictlyStuck t = stuck at hstuck ⊢
    obtain ⟨verdict, after⟩ := stuck
    cases verdict with
    | some verdict => exact hstuck
    | none =>
      have hactivity : after.lastActivity = w.lastActivity := congrArg Standing.lastActivity hstuck.standing
      dsimp only
      rw [← hactivity]
      exact hstuck.trans evaluateQuiet_steady

theorem evaluateStandard_steady : Steady t.now w (w.evaluateStandard t).2 := by
  unfold evaluateStandard
  split_ifs
  · exact fireThroughGate_steady
  · obtain ⟨reason, tracker, -, hrepetition⟩ := repetitionReason_eq (w := w) (t := t)
    have htracked : Steady t.now w { w with repetitionTracker := tracker } := ⟨rfl, fun _ h => .inl h⟩
    rw [hrepetition]
    generalize { w with repetitionTracker := tracker } = after at htracked ⊢
    split_ifs
    · exact htracked.trans fireThroughGate_steady
    · have hstart := htracked.trans (evaluateNoOutputAtStart_steady (w := after) (t := t))
      dsimp only
      generalize after.evaluateNoOutputAtStart t = start at hstart ⊢
      obtain ⟨verdict, after⟩ := start
      cases verdict with
      | some verdict => exact hstart
      | none => exact hstart.trans evaluateIdle_steady

/-! ## Every life of calls -/

def DrainedSince (now : ℚ) (w : IdleWatchdog) : Prop := ∀ startedAt, w.drainStartedAt = some startedAt → startedAt ≤ now

theorem evaluate_drained (hlate : t.now ≤ now) (h : w.DrainedSince now) : (w.evaluate t).2.DrainedSince now := by
  have hpolled : (w.pollSubagentOutput t).drainStartedAt = w.drainStartedAt := by
    unfold pollSubagentOutput
    split <;> rfl
  unfold evaluate
  dsimp only
  intro startedAt hdrain
  cases hprofile : (w.pollSubagentOutput t).config.profile with
  | standard =>
    rw [hprofile] at hdrain
    rcases evaluateStandard_steady.drain startedAt hdrain with hbefore | hnow
    · exact h startedAt (hpolled ▸ hbefore)
    · exact hnow ▸ hlate
  | activityOnly =>
    rw [hprofile] at hdrain
    have hbefore : (w.pollSubagentOutput t).drainStartedAt = some startedAt := by
      rw [← hdrain]
      unfold evaluateActivityOnly
      dsimp only
      split_ifs
      · rfl
      · cases (w.pollSubagentOutput t).config.idleTimeoutSeconds with
        | none => rfl
        | some timeout =>
          dsimp only
          split <;> rfl
    exact h startedAt (hpolled ▸ hbefore)

theorem accumulateWaitingRun_drain (now : ℚ) : (w.accumulateWaitingRun now).drainStartedAt = w.drainStartedAt := by
  unfold accumulateWaitingRun
  split <;> rfl

theorem DrainedSince.of_none (h : w.drainStartedAt = none) : w.DrainedSince now := by
  intro startedAt hdrain
  rw [h] at hdrain
  cases hdrain

theorem perform_drained {call : WatchdogCall} (hlate : ∀ t, call = .evaluate t → t.now ≤ now) (h : w.DrainedSince now) :
    (w.perform call).DrainedSince now := by
  have hrun : ∀ at_, (w.accumulateWaitingRun at_).DrainedSince now := by
    intro at_ startedAt hdrain
    exact h startedAt (accumulateWaitingRun_drain at_ ▸ hdrain)
  cases call with
  | evaluate t => exact evaluate_drained (hlate t rfl) h
  | recordInvocationStart | recordActivity | recordLifecycleActivity | recordToolUseActivity => exact .of_none rfl
  | recordToolCallActivity fingerprint at_ notedAt => exact hrun at_
  | recordErrorActivity fingerprint at_ notedAt => exact hrun at_
  | recordProgressReport fingerprint first second =>
    show (w.recordProgressReport fingerprint first second).DrainedSince now
    unfold recordProgressReport
    split_ifs
    · exact hrun first
    · exact .of_none rfl
  | recordToolResultActivity isHarnessEcho at_ baselineAt =>
    cases isHarnessEcho with
    | true => exact hrun at_
    | false => exact .of_none rfl
  | recordWorkspaceEvent weight at_ =>
    show (w.recordWorkspaceEvent weight at_).DrainedSince now
    unfold recordWorkspaceEvent
    split_ifs
    · exact h
    · exact h
  | recordMcpToolCall | recordSubagentWork | recordSubagentOutput | setIsWaitingState => exact h

theorem after_drained {calls : List WatchdogCall} (hlate : ∀ t, .evaluate t ∈ calls → t.now ≤ now) (h : w.DrainedSince now) :
    (w.after calls).DrainedSince now := by
  induction calls generalizing w with
  | nil => exact h
  | cons call rest ih =>
    exact ih (fun t ht => hlate t (List.mem_cons_of_mem _ ht))
      (perform_drained (fun t ht => hlate t (ht ▸ List.mem_cons_self)) h)

end RalphWorkflow.Agents.IdleWatchdog
