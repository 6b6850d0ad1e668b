import RalphWorkflow.Proof.Watchdog.IdleFire

/-! Before a drain begins, a fresh channel of any kind puts the fire off. When its window closes the gate is asked instead, and the
gate does not look at the workspace. -/
namespace RalphWorkflow.Agents

def Within (ttl now : ℚ) (lastAt : Option ℚ) : Prop := ∃ last, lastAt = some last ∧ now - last < ttl

theorem isFresh_of_within {channel : ChannelEvidenceSummary} {ttl now : ℚ} (hpositive : 0 < ttl)
    (hage : channel.ageSeconds = channel.lastAt.map fun last => max 0 (now - last)) (h : Within ttl now channel.lastAt) :
    channel.isFresh (some ttl) = true := by
  obtain ⟨last, hlast, hrecent⟩ := h
  have hyoung : max 0 (now - last) < ttl := max_lt hpositive hrecent
  unfold ChannelEvidenceSummary.isFresh
  rw [hage, hlast]
  simp [hpositive, hyoung]

namespace IdleWatchdog

theorem within_latest {ttl now : ℚ} {first second : Option ℚ} (h : Within ttl now first ∨ Within ttl now second) :
    Within ttl now (latest first second) := by
  rcases h with ⟨last, rfl, hrecent⟩ | ⟨last, rfl, hrecent⟩
  · cases second with
    | none => exact ⟨last, rfl, hrecent⟩
    | some other =>
      have hlater : now - max last other ≤ now - last := sub_le_sub_left (le_max_left last other) now
      exact ⟨max last other, rfl, hlater.trans_lt hrecent⟩
  · cases first with
    | none => exact ⟨last, rfl, hrecent⟩
    | some other =>
      have hlater : now - max other last ≤ now - last := sub_le_sub_left (le_max_right other last) now
      exact ⟨max other last, rfl, hlater.trans_lt hrecent⟩

/-! ## Heard -/

/-- A tool call, or progress or output of a subagent, was recorded within the time to live. -/
def HeardFirstParty (w : IdleWatchdog) (ttl now : ℚ) : Prop :=
  Within ttl now w.lastMcpToolCallAt ∨ Within ttl now w.lastSubagentProgressAt ∨ Within ttl now w.lastSubagentOutputAt

/-- A change of the workspace that weighs something was recorded within the time to live. -/
def HeardWorkspace (w : IdleWatchdog) (ttl now : ℚ) : Prop :=
  0 < w.lastWorkspaceEventWeight ∧ Within ttl now w.lastWorkspaceEventAt

/-- One of the channels that may defer, stdout apart, was recorded within a time to live that is positive. -/
structure Heard (w : IdleWatchdog) (ttl now : ℚ) : Prop where
  config : w.config.activityEvidenceTtlSeconds = some ttl
  positive : 0 < ttl
  recorded : w.HeardFirstParty ttl now ∨ w.HeardWorkspace ttl now

variable {w : IdleWatchdog} {t : Tick} {ttl : ℚ}

theorem heardFirstParty_fresh (hconfig : w.config.activityEvidenceTtlSeconds = some ttl) (hpositive : 0 < ttl)
    (h : w.HeardFirstParty ttl t.now) (live : Nat) :
    firstPartyFresh (w.lastEvidenceSummary t.now live) w.config.activityEvidenceTtlSeconds = true := by
  unfold firstPartyFresh
  rw [hconfig, List.any_eq_true]
  rcases h with htool | hsubagent
  · refine ⟨channelSummary .mcpTool w.lastMcpToolCallAt (some w.mcpToolCallCount) t.now, by simp [lastEvidenceSummary], ?_⟩
    rw [isFresh_of_within hpositive rfl htool]
    rfl
  · refine ⟨channelSummary .subagentOutput (latest w.lastSubagentProgressAt w.lastSubagentOutputAt)
      (some (w.subagentProgressCount + w.subagentOutputCount)) t.now, by simp [lastEvidenceSummary], ?_⟩
    rw [isFresh_of_within hpositive rfl (within_latest hsubagent)]
    rfl

theorem Heard.evidence_active (h : w.Heard ttl t.now) (site : EvidenceSite) : w.channelEvidenceActive t site = true := by
  rw [channelEvidenceActive_eq, List.any_eq_true]
  rcases h.recorded with hfirst | ⟨hweight, hworkspace⟩
  · have hfresh := heardFirstParty_fresh h.config h.positive hfirst (t.liveSubagentCount site)
    unfold firstPartyFresh at hfresh
    rw [List.any_eq_true] at hfresh
    obtain ⟨channel, hchannel, hcounts⟩ := hfresh
    rw [Bool.and_assoc, Bool.and_eq_true] at hcounts
    exact ⟨channel, hchannel, hcounts.2⟩
  · refine ⟨channelSummary .workspace w.lastWorkspaceEventAt (some w.workspaceEventCount) t.now
      (decide (0 < w.lastWorkspaceEventWeight)), by simp [lastEvidenceSummary], ?_⟩
    have hdefers : decide (0 < w.lastWorkspaceEventWeight) = true := decide_eq_true hweight
    rw [h.config, isFresh_of_within h.positive rfl hworkspace, hdefers]
    rfl

/-! ## Fires for a reason -/

def FiresFor (reason : WatchdogFireReason) (result : WatchdogVerdict × IdleWatchdog) : Prop :=
  result.1 = .fire ∧ result.2.lastFireReason = some reason

instance (reason : WatchdogFireReason) (result : WatchdogVerdict × IdleWatchdog) : Decidable (FiresFor reason result) :=
  inferInstanceAs (Decidable (_ ∧ _))

theorem fireThroughGate_reason {reason : WatchdogFireReason} (hfire : (w.fireThroughGate t reason).1 = .fire) :
    (w.fireThroughGate t reason).2.lastFireReason = some reason := by
  unfold fireThroughGate at hfire ⊢
  generalize w.gateFire t reason = gated at hfire ⊢
  obtain ⟨verdict, after⟩ := gated
  cases verdict with
  | «continue» => cases hfire
  | waitingOnChild | fire => rfl

theorem fireThroughGate_spares {reason other : WatchdogFireReason} (hother : reason ≠ other) : ¬FiresFor other (w.fireThroughGate t reason) := by
  rintro ⟨hfire, hreason⟩
  rw [fireThroughGate_reason hfire] at hreason
  exact hother (Option.some.inj hreason)

theorem fireThroughGate_firesFor_iff {reason : WatchdogFireReason} (hreason : reason ≠ .sessionCeilingExceeded) :
    FiresFor reason (w.fireThroughGate t reason) ↔ w.GateOpen t := by
  constructor
  · intro hfires
    exact (fireThroughGate_fire_iff hreason).mp hfires.1
  · intro hopen
    have hfire : (w.fireThroughGate t reason).1 = .fire := fireThroughGate_open hopen
    exact ⟨hfire, fireThroughGate_reason hfire⟩

theorem fireNoProgressQuiet_reason {verdict : WatchdogVerdict} {after : IdleWatchdog}
    (h : w.fireNoProgressQuiet t = (some verdict, after)) : ¬FiresFor .noOutputDeadline (verdict, after) := by
  have hspares : ¬FiresFor .noOutputDeadline (w.fireThroughGate t .noProgressQuiet) := fireThroughGate_spares (by decide)
  unfold fireNoProgressQuiet at h
  generalize w.fireThroughGate t .noProgressQuiet = fired at h hspares
  obtain ⟨kind, gated⟩ := fired
  rintro ⟨hfire, hreason⟩
  cases kind with
  | «continue» =>
    cases h
    cases hfire
  | waitingOnChild | fire =>
    cases h
    exact hspares ⟨hfire, hreason⟩

/-! ## The end of a drain -/

def DrainOver (w : IdleWatchdog) (t : Tick) : Prop :=
  (∃ startedAt, w.drainStartedAt = some startedAt ∧ w.config.drainWindowSeconds ≤ t.now - startedAt) ∧
    t.classifyQuiet .drainWindow ≠ .waitingOnChild

/-- The evaluation comes to the end of a drain, and no rule before that engages. -/
structure DrainEnds (w : IdleWatchdog) (t : Tick) : Prop where
  session : w.sessionCeilingReached t = false
  repetition : w.repetitionTripped t = false
  start : w.noOutputAtStartDue t = false
  idle : ∃ timeout, w.config.idleTimeoutSeconds = some timeout ∧ timeout ≤ t.now - w.lastActivity
  strictlyStuck : w.strictlyStuckDue t = false
  quiet : t.classifyQuiet .evaluate = .waitingOnChild → w.noProgressQuietDue t = false
  drained : w.DrainOver t

/-! ## Each branch, of an agent that is heard -/

theorem channelEvidenceActive_accumulate (now : ℚ) (site : EvidenceSite) :
    (w.accumulateWaitingRun now).channelEvidenceActive t site = w.channelEvidenceActive t site := by
  unfold accumulateWaitingRun
  split <;> rfl

theorem handleWaitingBranch_spares (h : w.channelEvidenceActive t .leftWaiting = true) : ¬FiresFor .noOutputDeadline (w.handleWaitingBranch t) := by
  unfold handleWaitingBranch
  dsimp only
  split_ifs with hleft hactive hsub hceiling hprofile
  · rintro ⟨hfire, -⟩
    cases hfire
  · have hstill : { w with waitingOnChildStartedAt := some (w.waitingOnChildStartedAt.getD t.now) }.channelEvidenceActive t
        .leftWaiting = true := h
    rw [channelEvidenceActive_accumulate] at hactive
    exact absurd hstill hactive
  · exact fireThroughGate_spares (by decide)
  · rintro ⟨hfire, -⟩
    cases hfire
  · rintro ⟨-, hreason⟩
    cases hreason
  · rintro ⟨hfire, -⟩
    cases hfire

theorem not_drainOver (h : w.drainStartedAt = none) : ¬w.DrainOver t := by
  rintro ⟨⟨startedAt, hstarted, -⟩, -⟩
  rw [h] at hstarted
  cases hstarted

section

variable (h : ∀ site, w.channelEvidenceActive t site = true)
include h

theorem evaluateFinalVerdict_firesFor_iff : FiresFor .noOutputDeadline (w.evaluateFinalVerdict t) ↔ w.DrainOver t ∧ w.GateOpen t := by
  cases hdrain : w.drainStartedAt with
  | none =>
    have hspares : ¬FiresFor .noOutputDeadline (w.evaluateFinalVerdict t) := by
      unfold evaluateFinalVerdict
      rw [hdrain, postToolResultStalled_eq]
      cases w.postToolStallDue t with
      | true => exact fireThroughGate_spares (by decide)
      | false =>
        rw [if_neg Bool.false_ne_true]
        dsimp only
        rw [if_pos (h .finalVerdict)]
        split_ifs
        · exact handleWaitingBranch_spares (h .leftWaiting)
        · rintro ⟨hfire, -⟩
          cases hfire
    exact ⟨fun hfires => absurd hfires hspares, fun hends => absurd hends.1 (not_drainOver hdrain)⟩
  | some startedAt =>
    unfold evaluateFinalVerdict DrainOver
    rw [hdrain]
    dsimp only
    unfold handleDrainWindow
    by_cases hwaiting : t.classifyQuiet .drainWindow = .waitingOnChild
    · have hspares : ¬FiresFor .noOutputDeadline ({ w with drainStartedAt := none }.handleWaitingBranch t) :=
        handleWaitingBranch_spares (h .leftWaiting)
      rw [if_pos hwaiting]
      exact ⟨fun hfires => absurd hfires hspares, fun hends => absurd hwaiting hends.1.2⟩
    rw [if_neg hwaiting]
    rcases lt_or_ge (t.now - startedAt) w.config.drainWindowSeconds with hopen | hover
    · rw [if_pos hopen]
      constructor
      · rintro ⟨hfire, -⟩
        cases hfire
      · rintro ⟨⟨⟨since, hsince, hlasted⟩, -⟩, -⟩
        cases hsince
        exact absurd hlasted (not_le.mpr hopen)
    · rw [if_neg (not_lt.mpr hover), fireThroughGate_firesFor_iff (by decide)]
      exact ⟨fun hgate => ⟨⟨⟨startedAt, rfl, hover⟩, hwaiting⟩, hgate⟩, fun hends => hends.2⟩

theorem evaluateQuiet_firesFor_iff {timeout : ℚ} : FiresFor .noOutputDeadline (w.evaluateQuiet t (t.now - w.lastActivity) timeout) ↔
      (t.classifyQuiet .evaluate = .waitingOnChild → w.noProgressQuietDue t = false) ∧ timeout ≤ t.now - w.lastActivity ∧
        w.DrainOver t ∧ w.GateOpen t := by
  have hrest : FiresFor .noOutputDeadline
      (if t.now - w.lastActivity < timeout then (.continue, w.accumulateWaitingRun t.now) else w.evaluateFinalVerdict t) ↔
        timeout ≤ t.now - w.lastActivity ∧ w.DrainOver t ∧ w.GateOpen t := by
    rcases lt_or_ge (t.now - w.lastActivity) timeout with hearly | hlate
    · rw [if_pos hearly]
      constructor
      · rintro ⟨hfire, -⟩
        cases hfire
      · rintro ⟨hlate, -⟩
        exact absurd hlate (not_le.mpr hearly)
    · rw [if_neg (not_lt.mpr hlate), evaluateFinalVerdict_firesFor_iff h]
      exact ⟨fun hends => ⟨hlate, hends⟩, fun hends => hends.2⟩
  unfold evaluateQuiet
  by_cases hwaiting : t.classifyQuiet .evaluate = .waitingOnChild
  · rw [if_pos hwaiting, evaluateNoProgressQuiet_eq]
    cases hquiet : w.noProgressQuietDue t with
    | true =>
      have hfires := fireNoProgressQuiet_fst (w := w) (t := t)
      rw [if_pos rfl]
      cases hfired : w.fireNoProgressQuiet t with
      | mk verdict after =>
        rw [hfired] at hfires
        cases hfires
        exact ⟨fun hdeadline => absurd hdeadline (fireNoProgressQuiet_reason hfired),
          fun hends => absurd (hends.1 hwaiting) (by decide)⟩
    | false =>
      rw [if_neg Bool.false_ne_true]
      exact hrest.trans ⟨fun hends => ⟨fun _ => rfl, hends⟩, fun hends => hends.2⟩
  · rw [if_neg hwaiting]
    exact hrest.trans ⟨fun hends => ⟨fun hwaits => absurd hwaits hwaiting, hends⟩, fun hends => hends.2⟩

theorem evaluateIdle_firesFor_iff : FiresFor .noOutputDeadline (w.evaluateIdle t (t.now - w.lastActivity)) ↔
      (∃ timeout, w.config.idleTimeoutSeconds = some timeout ∧ timeout ≤ t.now - w.lastActivity) ∧
        w.strictlyStuckDue t = false ∧ (t.classifyQuiet .evaluate = .waitingOnChild → w.noProgressQuietDue t = false) ∧
          w.DrainOver t ∧ w.GateOpen t := by
  unfold evaluateIdle
  cases w.config.idleTimeoutSeconds with
  | none =>
    constructor
    · rintro ⟨hfire, -⟩
      cases hfire
    · rintro ⟨⟨timeout, hsome, -⟩, -⟩
      cases hsome
  | some timeout =>
    dsimp only
    rw [evaluateStrictlyStuck_eq]
    cases w.strictlyStuckDue t with
    | true =>
      have hspares : ¬FiresFor .noOutputDeadline (w.fireThroughGate t .strictlyStuck) := fireThroughGate_spares (by decide)
      exact ⟨fun hfires => absurd hfires hspares, fun hends => absurd hends.2.1 (by decide)⟩
    | false =>
      have hafter : ∀ site, { w with strictlyStuckRunStartedAt := w.strictlyStuckRun t }.channelEvidenceActive t site = true := h
      rw [if_neg Bool.false_ne_true]
      refine (evaluateQuiet_firesFor_iff hafter).trans ?_
      constructor
      · rintro ⟨hquiet, hlate, hends⟩
        exact ⟨⟨timeout, rfl, hlate⟩, rfl, hquiet, hends⟩
      · rintro ⟨⟨found, hfound, hlate⟩, -, hquiet, hends⟩
        cases hfound
        exact ⟨hquiet, hlate, hends⟩

end

theorem repetitionReason_ne {reason : WatchdogFireReason} {after : IdleWatchdog}
    (h : w.repetitionReason t = (some reason, after)) : reason ≠ .noOutputDeadline := by
  unfold repetitionReason at h
  dsimp only at h
  split at h
  · simp only [Prod.mk.injEq, Option.some.injEq] at h
    rw [← h.1]
    split <;> decide
  · simp at h

/-- Of an agent that is heard, silence fires at the end of a drain only, where the gate is open. -/
theorem evaluateStandard_firesFor_iff (h : ∀ site, w.channelEvidenceActive t site = true) :
    FiresFor .noOutputDeadline (w.evaluateStandard t) ↔ w.DrainEnds t ∧ w.GateOpen t := by
  unfold evaluateStandard
  cases hsession : w.sessionCeilingReached t with
  | true =>
    have hspares : ¬FiresFor .noOutputDeadline (w.fireThroughGate t .sessionCeilingExceeded) :=
      fireThroughGate_spares (by decide)
    exact ⟨fun hfires => absurd hfires hspares, fun hends => absurd hends.1.session (by simp [hsession])⟩
  | false =>
    obtain ⟨reason, tracker, -, hrepetition⟩ := repetitionReason_eq (w := w) (t := t)
    have hafter : ∀ site, { w with repetitionTracker := tracker }.channelEvidenceActive t site = true := h
    rw [if_neg Bool.false_ne_true]
    cases htripped : w.repetitionTripped t with
    | true =>
      rw [htripped, if_pos rfl] at hrepetition
      have hspares : ¬FiresFor .noOutputDeadline ({ w with repetitionTracker := tracker }.fireThroughGate t reason) :=
        fireThroughGate_spares (repetitionReason_ne hrepetition)
      rw [hrepetition]
      exact ⟨fun hfires => absurd hfires hspares, fun hends => absurd hends.1.repetition (by simp [htripped])⟩
    | false =>
      rw [hrepetition, htripped, if_neg Bool.false_ne_true]
      dsimp only
      rw [evaluateNoOutputAtStart_eq]
      cases hstart : w.noOutputAtStartDue t with
      | true =>
        have hdue : { w with repetitionTracker := tracker }.noOutputAtStartDue t = true := hstart
        have hspares : ¬FiresFor .noOutputDeadline ({ w with repetitionTracker := tracker }.fireThroughGate t
          .noOutputAtStart) := fireThroughGate_spares (by decide)
        rw [if_pos hdue]
        exact ⟨fun hfires => absurd hfires hspares, fun hends => absurd hends.1.start (by simp [hstart])⟩
      | false =>
        have hdue : ¬{ w with repetitionTracker := tracker }.noOutputAtStartDue t = true := by
          intro htrue
          exact Bool.false_ne_true (hstart.symm.trans htrue)
        rw [if_neg hdue]
        refine (evaluateIdle_firesFor_iff hafter).trans ?_
        constructor
        · rintro ⟨hidle, hstuck, hquiet, hover, hopen⟩
          exact ⟨⟨hsession, htripped, hstart, hidle, hstuck, hquiet, hover⟩, hopen⟩
        · rintro ⟨hends, hopen⟩
          exact ⟨hends.idle, hends.strictlyStuck, hends.quiet, hends.drained, hopen⟩

/-! ## Every evaluation -/

theorem Heard.polled (h : w.Heard ttl t.now) : (w.pollSubagentOutput t).Heard ttl t.now := by
  unfold pollSubagentOutput
  split
  · refine ⟨h.config, h.positive, .inl (.inr (.inr ⟨t.now, rfl, ?_⟩))⟩
    rw [sub_self]
    exact h.positive
  · exact h

/-- A heard agent is spared the fire for its silence, unless a drain ends with the gate open. -/
theorem heard_agent_spared_iff (hstandard : w.config.profile = .standard) (h : w.Heard ttl t.now) : ¬FiresFor .noOutputDeadline (w.evaluate t) ↔
      ¬((w.pollSubagentOutput t).DrainEnds t ∧ (w.pollSubagentOutput t).GateOpen t) := by
  have hprofile : (w.pollSubagentOutput t).config.profile = .standard := by
    unfold pollSubagentOutput
    split
    · exact hstandard
    · exact hstandard
  have hevaluate : w.evaluate t = (w.pollSubagentOutput t).evaluateStandard t := by
    unfold evaluate
    dsimp only
    rw [hprofile]
  rw [hevaluate, evaluateStandard_firesFor_iff h.polled.evidence_active]

/-! ## A change of the workspace in a drain -/

def drainedAt301 : IdleWatchdog :=
  (create { idleTimeoutSeconds := some 300 } false 0).after
    [.recordInvocationStart 0, .recordActivity 1 1, .evaluate (activeTick 301), .recordWorkspaceEvent 1 (1506 / 5)]

theorem drainedAt301_heard : drainedAt301.Heard 30 (activeTick 302).now :=
  ⟨by decide +kernel, by decide, .inr ⟨by decide +kernel, 1506 / 5, by decide +kernel, by decide +kernel⟩⟩

theorem calling_heard : (drainedAt301.recordMcpToolCall (1506 / 5)).Heard 30 (activeTick 302).now :=
  ⟨by decide +kernel, by decide, .inl (.inl ⟨1506 / 5, rfl, by decide +kernel⟩)⟩

/-- The same agent calls a tool as well, and is spared. -/
theorem heard_agent_spared_of_tool_call : ¬FiresFor .noOutputDeadline ((drainedAt301.recordMcpToolCall (1506 / 5)).evaluate (activeTick 302)) := by
  have hstandard : (drainedAt301.recordMcpToolCall (1506 / 5)).config.profile = .standard := by decide +kernel
  have hshut : ¬((drainedAt301.recordMcpToolCall (1506 / 5)).pollSubagentOutput (activeTick 302)).GateOpen (activeTick 302) := by
    decide +kernel
  exact (heard_agent_spared_iff hstandard calling_heard).mpr fun hends => hshut hends.2

/-- A file changed 0.8 s ago, and the drain ends in a fire for the silence. -/
theorem changed_workspace_fired :
    drainedAt301.Heard 30 (activeTick 302).now ∧ FiresFor .noOutputDeadline (drainedAt301.evaluate (activeTick 302)) :=
  ⟨drainedAt301_heard, by decide +kernel⟩

end IdleWatchdog

end RalphWorkflow.Agents
