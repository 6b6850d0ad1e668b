import RalphWorkflow.Proof.Watchdog.Rules

/-! What an agent that is heard on no channel is to the watchdog. One channel can be fresh without being heard: a live subagent that
never reported is dated at the moment it is asked for. -/
namespace RalphWorkflow.Agents
open List

/-! ## Freshness -/

theorem foldl_isSome {α β : Type} {f : Option α → β → Option α} {p : β → Bool}
    (hstep : ∀ best item, (f best item).isSome = (best.isSome || p item)) (items : List β) (best : Option α) :
    (items.foldl f best).isSome = (best.isSome || items.any p) := by
  induction items generalizing best with
  | nil => simp
  | cons item rest ih => rw [foldl_cons, ih, hstep, any_cons, Bool.or_assoc]

theorem EvidenceSummary.freshest_isSome (summary : EvidenceSummary) (tier : EvidenceTier) (ttl : Option ℚ) : (summary.freshest tier ttl).isSome =
      summary.any fun channel => channel.tier = tier && channel.canDefer && channel.isFresh ttl := by
  unfold freshest
  refine foldl_isSome (fun best channel => ?_) summary none
  cases hfresh : channel.tier = tier && channel.canDefer && channel.isFresh ttl with
  | false => exact (Bool.or_false _).symm
  | true =>
    cases best with
    | none => rfl
    | some best =>
      rw [if_pos rfl, Bool.or_true]
      dsimp only
      split <;> rfl

theorem isFresh_eq_false {channel : ChannelEvidenceSummary} {ttl now : ℚ}
    (hage : channel.ageSeconds = channel.lastAt.map fun last => max 0 (now - last))
    (hold : ∀ last, channel.lastAt = some last → ttl ≤ now - last) : channel.isFresh (some ttl) = false := by
  unfold ChannelEvidenceSummary.isFresh
  rw [hage]
  cases hlast : channel.lastAt with
  | none => rfl
  | some last =>
    have hlate : ¬max 0 (now - last) < ttl := not_lt.mpr ((hold last hlast).trans (le_max_right _ _))
    simp [hlate]

theorem isFresh_of_nonpos {channel : ChannelEvidenceSummary} {ttl : ℚ} (hnone : ttl ≤ 0) : channel.isFresh (some ttl) = false := by
  unfold ChannelEvidenceSummary.isFresh
  cases channel.ageSeconds with
  | none => rfl
  | some age => simp [not_lt.mpr hnone]

/-- The agent is active wherever it is asked, the network on, and no output read. -/
structure Tick.Quiet (t : Tick) : Prop where
  active : ∀ site, t.classifyQuiet site = .active
  online : t.connectivity ≠ some "offline"
  unread : t.newSubagentLines = 0

namespace IdleWatchdog

variable {w : IdleWatchdog} {t : Tick}

theorem channelEvidenceActive_eq (site : EvidenceSite) : w.channelEvidenceActive t site =
      (w.lastEvidenceSummary t.now (t.liveSubagentCount site)).any fun channel =>
        channel.canDefer && channel.isFresh w.config.activityEvidenceTtlSeconds := by
  unfold channelEvidenceActive
  dsimp only
  rw [EvidenceSummary.freshest_isSome, EvidenceSummary.freshest_isSome]
  generalize w.lastEvidenceSummary t.now (t.liveSubagentCount site) = summary
  induction summary with
  | nil => rfl
  | cons channel rest ih =>
    rw [any_cons, any_cons, any_cons, ← ih]
    cases channel.tier <;> cases channel.canDefer <;>
      cases channel.isFresh w.config.activityEvidenceTtlSeconds <;> simp

/-! ## Silence -/

/-- The agent is idle, not in a waiting state, and was not heard within the time to live. -/
structure Silent (w : IdleWatchdog) (now : ℚ) : Prop where
  standard : w.config.profile = .standard
  idle : ∃ timeout, w.config.idleTimeoutSeconds = some timeout ∧ timeout ≤ now - w.lastActivity
  unheard : ∃ ttl, w.config.activityEvidenceTtlSeconds = some ttl ∧
    (∀ last, w.lastMcpToolCallAt = some last → ttl ≤ now - last) ∧
    (∀ last, w.lastSubagentProgressAt = some last → ttl ≤ now - last) ∧
    (∀ last, w.lastSubagentOutputAt = some last → ttl ≤ now - last) ∧
    ∀ last, w.lastWorkspaceEventAt = some last → ttl ≤ now - last
  notWaiting : w.isWaitingState = false

/-- A live subagent cannot count as fresh: nothing can, or none is counted, or it is dated by a report. -/
def LivenessDated (w : IdleWatchdog) : Prop :=
  (∃ ttl, w.config.activityEvidenceTtlSeconds = some ttl ∧ ttl ≤ 0) ∨ w.hasProcessMonitor = false ∨
    w.lastSubagentProgressAt ≠ none

theorem Silent.congr {now : ℚ} {after : IdleWatchdog} (hstanding : after.standing = w.standing) (h : w.Silent now) : after.Silent now := by
  have hfields := Standing.mk.inj hstanding
  obtain ⟨hconfig, -, hwaiting, hactivity, -, htool, hprogress, houtput, hworkspace⟩ := hfields
  exact ⟨hconfig ▸ h.standard, hconfig ▸ hactivity ▸ h.idle,
    hconfig ▸ htool ▸ hprogress ▸ houtput ▸ hworkspace ▸ h.unheard, hwaiting ▸ h.notWaiting⟩

theorem Silent.later {now later : ℚ} (hle : now ≤ later) (h : w.Silent now) : w.Silent later := by
  have hgrows : ∀ at_ : ℚ, now - at_ ≤ later - at_ := fun at_ => sub_le_sub_right hle at_
  obtain ⟨timeout, htimeout, hidle⟩ := h.idle
  obtain ⟨ttl, httl, htool, hprogress, houtput, hworkspace⟩ := h.unheard
  exact ⟨h.standard, ⟨timeout, htimeout, hidle.trans (hgrows _)⟩,
    ⟨ttl, httl, fun last hlast => (htool last hlast).trans (hgrows last),
      fun last hlast => (hprogress last hlast).trans (hgrows last),
      fun last hlast => (houtput last hlast).trans (hgrows last),
      fun last hlast => (hworkspace last hlast).trans (hgrows last)⟩, h.notWaiting⟩

theorem LivenessDated.congr {after : IdleWatchdog} (hstanding : after.standing = w.standing) (h : w.LivenessDated) : after.LivenessDated := by
  obtain ⟨hconfig, hmonitor, -, -, -, -, hprogress, -, -⟩ := Standing.mk.inj hstanding
  unfold LivenessDated
  rw [hconfig, hmonitor, hprogress]
  exact h

theorem Silent.nothing_fresh (h : w.Silent t.now) (hdated : w.LivenessDated) (site : EvidenceSite) :
    ∀ channel ∈ w.lastEvidenceSummary t.now (t.liveSubagentCount site),
      (channel.canDefer && channel.isFresh w.config.activityEvidenceTtlSeconds) = false := by
  obtain ⟨ttl, httl, htool, hprogress, houtput, hworkspace⟩ := h.unheard
  have hspoke : ∀ last, latest w.lastSubagentProgressAt w.lastSubagentOutputAt = some last → ttl ≤ t.now - last := by
    intro last hlast
    cases hfirst : w.lastSubagentProgressAt with
    | none =>
      rw [hfirst] at hlast
      exact houtput last hlast
    | some first =>
      cases hsecond : w.lastSubagentOutputAt with
      | none =>
        rw [hfirst, hsecond] at hlast
        exact hprogress last (hfirst.trans hlast)
      | some second =>
        rw [hfirst, hsecond] at hlast
        rcases max_choice first second with hmax | hmax
        · exact hprogress last (hfirst.trans (hmax ▸ hlast))
        · exact houtput last (hsecond.trans (hmax ▸ hlast))
  intro channel hchannel
  rw [httl]
  simp only [lastEvidenceSummary, mem_cons, not_mem_nil, or_false] at hchannel
  rcases hchannel with rfl | rfl | rfl | rfl | rfl
  · rfl
  · rw [isFresh_eq_false rfl htool, Bool.and_false]
  · rw [isFresh_eq_false rfl hspoke, Bool.and_false]
  · rcases hdated with ⟨ttl', httl', hnone⟩ | hmonitor | hreported
    · cases httl.symm.trans httl'
      rw [isFresh_of_nonpos hnone, Bool.and_false]
    · simp [subagentLivenessSummary, hmonitor]
    · obtain ⟨last, hlast⟩ := Option.ne_none_iff_exists'.mp hreported
      have hfresh : (w.subagentLivenessSummary t.now (t.liveSubagentCount site)).isFresh (some ttl) = false := by
        refine isFresh_eq_false rfl ?_
        intro reported hreported
        apply hprogress
        simp only [subagentLivenessSummary, hlast, Option.getD_some] at hreported
        rw [hlast, ← hreported]
        split <;> rfl
      rw [hfresh, Bool.and_false]
  · rw [isFresh_eq_false rfl hworkspace, Bool.and_false]

theorem Silent.evidence_inactive (h : w.Silent t.now) (hdated : w.LivenessDated) (site : EvidenceSite) :
    w.channelEvidenceActive t site = false := by
  rw [channelEvidenceActive_eq, any_eq_false]
  intro channel hchannel
  rw [h.nothing_fresh hdated site channel hchannel]
  exact Bool.false_ne_true

theorem Silent.gate_open (h : w.Silent t.now) (hdated : w.LivenessDated) (hquiet : t.Quiet) : w.GateOpen t := by
  have hnothing := h.nothing_fresh hdated .gate
  have hfirst : firstPartyFresh (w.lastEvidenceSummary t.now (t.liveSubagentCount .gate)) w.config.activityEvidenceTtlSeconds = false := by
    unfold firstPartyFresh
    rw [any_eq_false]
    intro channel hchannel
    rw [Bool.and_assoc, hnothing channel hchannel, Bool.and_false]
    exact Bool.false_ne_true
  have hlive : subagentLivenessFresh (w.lastEvidenceSummary t.now (t.liveSubagentCount .gate)) w.config.activityEvidenceTtlSeconds = false := by
    unfold subagentLivenessFresh
    rw [any_eq_false]
    intro channel hchannel
    rw [Bool.and_assoc, Bool.and_comm (channel.isFresh _), hnothing channel hchannel, Bool.and_false]
    exact Bool.false_ne_true
  unfold GateOpen classifyStuckNow classifyStuck
  rw [h.notWaiting, hfirst, hlive, if_neg Bool.false_ne_true, if_neg hquiet.online, if_neg Bool.false_ne_true,
    if_neg Bool.false_ne_true, if_neg (by decide), if_neg (by decide)]
  cases w.config.silentSubagentSeconds with
  | none => exact .inl rfl
  | some seconds =>
    dsimp only
    split
    · exact .inr rfl
    · exact .inl rfl

/-! ## One silent evaluation -/

/-- The evaluation fires, or begins a drain, or an earlier drain's window is not over. -/
def FiresOrDrains (w : IdleWatchdog) (t : Tick) (verdict : WatchdogVerdict × IdleWatchdog) : Prop :=
  verdict.1 = .fire ∨ ∃ startedAt, verdict.2.drainStartedAt = some startedAt ∧
    (w.drainStartedAt = none ∧ startedAt = t.now ∨
      w.drainStartedAt = some startedAt ∧ t.now - startedAt < w.config.drainWindowSeconds)

theorem evaluateFinalVerdict_drains (h : w.Silent t.now) (hdated : w.LivenessDated) (hquiet : t.Quiet) :
    FiresOrDrains w t (w.evaluateFinalVerdict t) := by
  have hactive : ∀ site, ¬t.classifyQuiet site = .waitingOnChild := by
    intro site
    rw [hquiet.active site]
    decide
  unfold evaluateFinalVerdict
  cases hdrain : w.drainStartedAt with
  | some startedAt =>
    dsimp only
    unfold handleDrainWindow
    rw [if_neg (hactive _)]
    split_ifs with hwindow
    · exact .inr ⟨startedAt, hdrain, .inr ⟨hdrain, hwindow⟩⟩
    · exact .inl (fireThroughGate_open (h.gate_open hdated hquiet))
  | none =>
    dsimp only
    rw [postToolResultStalled_eq]
    cases w.postToolStallDue t with
    | true => exact .inl (fireThroughGate_open (h.gate_open hdated hquiet))
    | false =>
      have hrun : Steady t.now w (w.accumulateWaitingRun t.now) := accumulateWaitingRun_steady
      rw [if_neg Bool.false_ne_true]
      dsimp only
      rw [if_neg (hactive _), h.evidence_inactive hdated, if_neg Bool.false_ne_true]
      unfold handleActiveBranch
      dsimp only
      split_ifs
      · exact .inl (fireThroughGate_open ((h.congr hrun.standing).gate_open (hdated.congr hrun.standing) hquiet))
      · exact .inr ⟨t.now, rfl, .inl ⟨hdrain, rfl⟩⟩

theorem evaluateIdle_drains (h : w.Silent t.now) (hdated : w.LivenessDated) (hquiet : t.Quiet) :
    FiresOrDrains w t (w.evaluateIdle t (t.now - w.lastActivity)) := by
  obtain ⟨timeout, htimeout, hidle⟩ := h.idle
  unfold evaluateIdle
  rw [htimeout]
  dsimp only
  rw [evaluateStrictlyStuck_eq]
  cases w.strictlyStuckDue t with
  | true => exact .inl (fireThroughGate_open (h.gate_open hdated hquiet))
  | false =>
    rw [if_neg Bool.false_ne_true]
    dsimp only
    unfold evaluateQuiet
    rw [hquiet.active, if_neg (by decide)]
    dsimp only
    rw [if_neg (not_lt.mpr hidle)]
    have hsame : { w with strictlyStuckRunStartedAt := w.strictlyStuckRun t }.standing = w.standing := rfl
    exact evaluateFinalVerdict_drains (h.congr hsame) (hdated.congr hsame) hquiet

theorem evaluateStandard_drains (h : w.Silent t.now) (hdated : w.LivenessDated) (hquiet : t.Quiet) : FiresOrDrains w t (w.evaluateStandard t) := by
  unfold evaluateStandard
  cases w.sessionCeilingReached t with
  | true => exact .inl (fireThroughGate_session (t := t))
  | false =>
    obtain ⟨reason, tracker, -, hrepetition⟩ := repetitionReason_eq (w := w) (t := t)
    have hsame : { w with repetitionTracker := tracker }.standing = w.standing := rfl
    have hsilent := h.congr hsame
    have hdates := hdated.congr hsame
    rw [if_neg Bool.false_ne_true, hrepetition]
    cases w.repetitionTripped t with
    | true => exact .inl (fireThroughGate_open (hsilent.gate_open hdates hquiet))
    | false =>
      rw [if_neg Bool.false_ne_true]
      dsimp only
      rw [evaluateNoOutputAtStart_eq]
      split_ifs
      · exact .inl (fireThroughGate_open (hsilent.gate_open hdates hquiet))
      · exact evaluateIdle_drains hsilent hdates hquiet

theorem evaluate_of_quiet (hstandard : w.config.profile = .standard) (hquiet : t.Quiet) : w.evaluate t = w.evaluateStandard t := by
  have hpolled : w.pollSubagentOutput t = w := by
    unfold pollSubagentOutput
    rw [hquiet.unread]
    simp
  unfold evaluate
  dsimp only
  rw [hpolled, hstandard]

end IdleWatchdog

end RalphWorkflow.Agents
