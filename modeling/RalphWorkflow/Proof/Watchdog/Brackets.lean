import RalphWorkflow.Agents.IdleWatchdog.StatusEvents
import RalphWorkflow.Lib.Run
import RalphWorkflow.Proof.Watchdog.Exits
import RalphWorkflow.Proof.Watchdog.Reuse

/-! A listener can keep a display of what it hears: whether a run of waiting is open, whether it was suspected, whether the watchdog
has stalled. It is never told of something that its display rules out, but that some rules stop hard outside a run of waiting. -/
namespace RalphWorkflow.Agents
open Lib IdleWatchdog

/-! ## The display -/

structure Display where
  waiting : Bool := false
  suspected : Bool := false
  stalled : Bool := false
  deriving DecidableEq

/-- What an event makes of the display. A fire for an `outside` reason may stop hard with no run open. -/
def Display.accept (outside : WatchdogFireReason → Bool) (d : Display) : WaitingStatusEvent → Option Display
  | .entered => if d.waiting then none else some { d with waiting := true, suspected := false }
  | .exited => if d.waiting then some { d with waiting := false, suspected := false } else none
  | .stalled => if d.stalled then none else some { d with stalled := true }
  | .stallResumed => if d.stalled then some { d with stalled := false } else none
  | .progress => if d.waiting then some d else none
  | .suspectedFrozen => if d.waiting && !d.suspected then some { d with suspected := true } else none
  | .hardStop reason => if d.waiting || outside reason then some d else none

/-- ENTERED and EXITED alternate, as do STALLED and STALL_RESUMED; HARD_STOPs of `outside` reasons excepted. -/
def WellBracketed (outside : WatchdogFireReason → Bool) (events : List WaitingStatusEvent) : Prop :=
  (Run.run (Display.accept outside) {} events).isSome

instance (outside : WatchdogFireReason → Bool) (events : List WaitingStatusEvent) : Decidable (WellBracketed outside events) :=
  inferInstanceAs (Decidable (_ = true))

def aheadOfBranches : WatchdogFireReason → Bool
  | .noOutputAtStart | .strictlyStuck | .noProgressQuiet => true
  | _ => false

def StartsBetweenRuns (a : Announcer) (call : StatusCall) (_ : Announcer) : Prop :=
  match call with
  | .call (.recordInvocationStart _) => a.watchdog.waitingOnChildStartedAt = none
  | _ => True

instance (a : Announcer) (call : StatusCall) (b : Announcer) : Decidable (StartsBetweenRuns a call b) := by
  unfold StartsBetweenRuns
  split <;> infer_instance

namespace Announcer

/-! ## What is announced on the way -/

def display (a : Announcer) : Display where
  waiting := a.watchdog.waitingOnChildStartedAt.isSome
  suspected := a.watchdog.waitingOnChildStartedAt.isSome && a.suspicionAnnouncedForRun
  stalled := a.stallActive

def Leads (a b : Announcer) : Prop :=
  ∃ events, b.emitted = a.emitted ++ events ∧ Run.run (Display.accept aheadOfBranches) a.display events = some b.display

variable {a b c : Announcer} {t : Tick} {w : IdleWatchdog} {stops : Option WatchdogFireReason} {now : ℚ}

theorem Leads.of_same (hemitted : b.emitted = a.emitted) (hdisplay : b.display = a.display) : Leads a b :=
  ⟨[], by rw [hemitted, List.append_nil], by rw [hdisplay]; rfl⟩

theorem Leads.trans (first : Leads a b) (second : Leads b c) : Leads a c := by
  obtain ⟨events, hb, hfirst⟩ := first
  obtain ⟨more, hc, hsecond⟩ := second
  refine ⟨events ++ more, by rw [hc, hb, List.append_assoc], ?_⟩
  rw [Run.run_append, hfirst]
  exact hsecond

theorem Leads.of_event (event : WaitingStatusEvent) (hemitted : b.emitted = a.emitted ++ [event])
    (haccept : a.display.accept aheadOfBranches event = some b.display) : Leads a b :=
  ⟨[event], hemitted, by rw [Run.run, haccept]; rfl⟩

theorem setStall_watchdog (active : Bool) : (a.setStall active).watchdog = a.watchdog := by
  unfold setStall
  split_ifs <;> rfl

theorem setStall_suspicion (active : Bool) : (a.setStall active).suspicionAnnouncedForRun = a.suspicionAnnouncedForRun := by
  unfold setStall
  split_ifs <;> rfl

theorem setStall_leads (active : Bool) : Leads a (a.setStall active) := by
  unfold setStall
  by_cases hsame : active = a.stallActive
  · rw [if_pos hsame]
    exact .of_same rfl rfl
  · rw [if_neg hsame]
    refine .of_event _ rfl ?_
    cases active with
    | true =>
      have hoff : a.stallActive = false := by simpa using Ne.symm hsame
      simp [Display.accept, display, hoff, emit]
    | false =>
      have hon : a.stallActive = true := by simpa using Ne.symm hsame
      simp [Display.accept, display, hon, emit]

theorem quietly_leads (hrun : w.waitingOnChildStartedAt = a.watchdog.waitingOnChildStartedAt) : Leads a (a.quietly w) :=
  .of_same rfl (by simp only [display, quietly, hrun])

/-! ## Recording -/

theorem accumulateWaitingRun_watchdog : (a.accumulateWaitingRun now).watchdog = a.watchdog.accumulateWaitingRun now := by
  unfold accumulateWaitingRun
  cases hrun : a.watchdog.waitingOnChildStartedAt with
  | none => simp only [IdleWatchdog.accumulateWaitingRun, hrun]
  | some startedAt => exact setStall_watchdog false

theorem accumulateWaitingRun_closed (w : IdleWatchdog) (now : ℚ) : (w.accumulateWaitingRun now).waitingOnChildStartedAt = none :=
  accumulateWaitingRun_moved.1

theorem accumulateWaitingRun_leads : Leads a (a.accumulateWaitingRun now) := by
  unfold accumulateWaitingRun
  cases hrun : a.watchdog.waitingOnChildStartedAt with
  | none => exact .of_same rfl rfl
  | some startedAt =>
    refine Leads.trans (.of_event .exited rfl ?_) (setStall_leads false)
    simp [Display.accept, display, hrun, accumulateWaitingRun_closed, emit]

theorem accumulated_leads (hrun : w.waitingOnChildStartedAt = none) : Leads a ((a.accumulateWaitingRun now).quietly w) :=
  accumulateWaitingRun_leads.trans
    (quietly_leads (by rw [accumulateWaitingRun_watchdog, accumulateWaitingRun_closed, hrun]))

theorem resetIdleBaseline_closed (w : IdleWatchdog) (now : ℚ) : (w.resetIdleBaseline now).waitingOnChildStartedAt = none :=
  accumulateWaitingRun_closed w now

theorem resetIdleBaseline_watchdog : (a.resetIdleBaseline now).watchdog = a.watchdog.resetIdleBaseline now :=
  setStall_watchdog false

theorem resetIdleBaseline_leads : Leads a (a.resetIdleBaseline now) :=
  (accumulated_leads (resetIdleBaseline_closed _ now)).trans (setStall_leads false)

theorem reset_leads (hrun : w.waitingOnChildStartedAt = none) : Leads a ((a.resetIdleBaseline now).quietly w) :=
  resetIdleBaseline_leads.trans (quietly_leads (by rw [resetIdleBaseline_watchdog, resetIdleBaseline_closed, hrun]))

theorem recordInvocationStart_leads (hclosed : a.watchdog.waitingOnChildStartedAt = none) : Leads a (a.recordInvocationStart now) := by
  unfold recordInvocationStart
  refine Leads.trans ?_ (setStall_leads false)
  exact .of_same rfl (by simp [display, hclosed, IdleWatchdog.recordInvocationStart])

/-! ## Rules -/

theorem stop_leads (hstops : ∀ reason, stops = some reason →
    a.watchdog.waitingOnChildStartedAt.isSome = true ∨ aheadOfBranches reason = true) : Leads a (a.stop stops) := by
  cases stops with
  | none => exact .of_same rfl rfl
  | some reason =>
    refine .of_event (.hardStop reason) rfl ?_
    simp [Display.accept, display, stop, emit, hstops reason rfl]

theorem gated_leads {verdict : WatchdogVerdict} (hrun : w.waitingOnChildStartedAt = a.watchdog.waitingOnChildStartedAt)
    (hstops : ∀ reason, stops = some reason →
      a.watchdog.waitingOnChildStartedAt.isSome = true ∨ aheadOfBranches reason = true) : Leads a (a.gated stops verdict w) := by
  have hquiet := quietly_leads hrun
  unfold gated
  split_ifs
  · refine (hquiet.trans (setStall_leads true)).trans (stop_leads ?_)
    rw [setStall_watchdog, quietly, hrun]
    exact hstops
  · exact hquiet.trans (setStall_leads false)

theorem fireThroughGate_leads {reason : WatchdogFireReason} (hstops : ∀ reason, stops = some reason →
    a.watchdog.waitingOnChildStartedAt.isSome = true ∨ aheadOfBranches reason = true) :
    Leads a (a.fireThroughGate t reason stops).2 :=
  gated_leads (fireThroughGate_moved).1 hstops

theorem ruled_leads {result : Option WatchdogVerdict × IdleWatchdog} (hrun : result.2.waitingOnChildStartedAt = a.watchdog.waitingOnChildStartedAt)
    (hstops : ∀ reason, stops = some reason → aheadOfBranches reason = true) : Leads a (a.ruled stops result).2 := by
  obtain ⟨verdict, w⟩ := result
  cases verdict with
  | none => exact quietly_leads hrun
  | some verdict => exact gated_leads hrun fun reason h => .inr (hstops reason h)

/-! ## Branches -/

theorem handleActiveBranch_leads : Leads a (a.handleActiveBranch t).2 := by
  unfold handleActiveBranch
  dsimp only
  split_ifs
  · exact accumulateWaitingRun_leads.trans (fireThroughGate_leads fun _ h => nomatch h)
  · exact accumulateWaitingRun_leads.trans (quietly_leads rfl)

theorem enterWaiting_open : (a.enterWaiting t).watchdog.waitingOnChildStartedAt.isSome = true := by
  unfold enterWaiting
  cases hrun : a.watchdog.waitingOnChildStartedAt with
  | none => rfl
  | some startedAt => rw [hrun]; rfl

theorem enterWaiting_leads : Leads a (a.enterWaiting t) := by
  unfold enterWaiting
  cases hrun : a.watchdog.waitingOnChildStartedAt with
  | none => exact .of_event .entered rfl (by simp [Display.accept, display, hrun, emit])
  | some startedAt => exact .of_same rfl rfl

theorem announceSuspicion_watchdog {candidateTotal : ℚ} : (a.announceSuspicion t candidateTotal).watchdog = a.watchdog := by
  unfold announceSuspicion
  cases a.effectiveSuspect t.corroboration.aliveBy with
  | none => rfl
  | some suspect =>
    dsimp only
    split_ifs
    · exact setStall_watchdog true
    · rfl

theorem announceSuspicion_leads {candidateTotal : ℚ} (hopen : a.watchdog.waitingOnChildStartedAt.isSome = true) :
    Leads a (a.announceSuspicion t candidateTotal) := by
  unfold announceSuspicion
  cases a.effectiveSuspect t.corroboration.aliveBy with
  | none => exact .of_same rfl rfl
  | some suspect =>
    dsimp only
    split_ifs with hannounces
    · have hflag : { a with suspicionAnnouncedForRun := true }.setStall true =
          { a.setStall true with suspicionAnnouncedForRun := true } := by
        unfold setStall
        split_ifs <;> rfl
      rw [hflag]
      refine (setStall_leads true).trans (.of_event .suspectedFrozen rfl ?_)
      simp [Display.accept, display, emit, setStall_watchdog, setStall_suspicion, hopen, hannounces.1]
    · exact .of_same rfl rfl

theorem announceProgress_leads (hopen : a.watchdog.waitingOnChildStartedAt.isSome = true) : Leads a (a.announceProgress t) := by
  unfold announceProgress
  cases a.lastWaitingStatusAt with
  | none => exact .of_same rfl rfl
  | some last =>
    dsimp only
    split_ifs
    · exact .of_event .progress rfl (by simp [Display.accept, display, emit, hopen])
    · exact .of_same rfl rfl

theorem handleWaitingBranch_leads : Leads a (a.handleWaitingBranch t).2 := by
  have hopen := enterWaiting_open (a := a) (t := t)
  refine (enterWaiting_leads (t := t)).trans ?_
  unfold handleWaitingBranch
  dsimp only
  generalize a.enterWaiting t = a at hopen ⊢
  split_ifs
  · exact accumulateWaitingRun_leads
  · exact accumulateWaitingRun_leads.trans handleActiveBranch_leads
  · exact fireThroughGate_leads fun _ _ => .inl hopen
  · exact .of_same rfl rfl
  · let fired := a.quietly { a.watchdog with lastFireReason := some .childrenPersistTooLong }
    have hfired : Leads a fired := quietly_leads rfl
    have hstill : (fired.setStall true).watchdog = fired.watchdog := setStall_watchdog true
    have hrun : fired.watchdog.waitingOnChildStartedAt.isSome = true := hopen
    have hstop : Leads (fired.setStall true) ((fired.setStall true).stop (some .childrenPersistTooLong)) :=
      stop_leads fun _ _ => .inl (by rw [hstill]; exact hrun)
    exact (hfired.trans (setStall_leads true)).trans hstop
  · refine (announceSuspicion_leads hopen).trans (announceProgress_leads ?_)
    rw [announceSuspicion_watchdog]
    exact hopen

theorem handleDrainWindow_leads {startedAt : ℚ} : Leads a (a.handleDrainWindow t startedAt).2 := by
  unfold handleDrainWindow
  split_ifs
  · exact Leads.trans (quietly_leads (by rfl)) handleWaitingBranch_leads
  · exact .of_same rfl rfl
  · exact fireThroughGate_leads fun _ h => nomatch h

theorem evaluateFinalVerdict_leads : Leads a (a.evaluateFinalVerdict t).2 := by
  unfold evaluateFinalVerdict
  cases a.watchdog.drainStartedAt with
  | some startedAt => exact handleDrainWindow_leads
  | none =>
    have hrun : (a.watchdog.postToolResultStalled t).2.waitingOnChildStartedAt = a.watchdog.waitingOnChildStartedAt := by
      rw [postToolResultStalled_eq]
      split_ifs
      · exact fireThroughGate_moved.1
      · rfl
    have hruled : Leads a (a.ruled none (a.watchdog.postToolResultStalled t)).2 := ruled_leads hrun fun _ h => nomatch h
    dsimp only
    generalize a.ruled none (a.watchdog.postToolResultStalled t) = ruled at hruled ⊢
    obtain ⟨verdict, after⟩ := ruled
    cases verdict with
    | some verdict => exact hruled
    | none =>
      refine hruled.trans ?_
      dsimp only
      split_ifs
      · exact handleWaitingBranch_leads
      · exact .of_same rfl rfl
      · exact handleActiveBranch_leads

/-! ## Evaluation -/

theorem evaluateQuiet_leads {idleTimeout : ℚ} : Leads a (a.evaluateQuiet t (t.now - a.watchdog.lastActivity) idleTimeout).2 := by
  have hrun : (if t.classifyQuiet .evaluate = .waitingOnChild then
      a.watchdog.evaluateNoProgressQuiet t (t.now - a.watchdog.lastActivity) else (none, a.watchdog)).2.waitingOnChildStartedAt =
        a.watchdog.waitingOnChildStartedAt := by
    rw [evaluateNoProgressQuiet_eq]
    split_ifs
    · exact fireNoProgressQuiet_moved.1
    · rfl
    · rfl
  have hruled : Leads a (a.ruled (some .noProgressQuiet) _).2 := ruled_leads hrun fun _ h => by
    cases h
    rfl
  unfold evaluateQuiet
  generalize a.ruled (some .noProgressQuiet) _ = ruled at hruled ⊢
  obtain ⟨verdict, after⟩ := ruled
  cases verdict with
  | some verdict => exact hruled
  | none =>
    refine hruled.trans ?_
    dsimp only
    split_ifs
    · exact accumulateWaitingRun_leads
    · exact evaluateFinalVerdict_leads

theorem evaluateIdle_leads : Leads a (a.evaluateIdle t (t.now - a.watchdog.lastActivity)).2 := by
  unfold evaluateIdle
  cases a.watchdog.config.idleTimeoutSeconds with
  | none => exact .of_same rfl rfl
  | some idleTimeout =>
    dsimp only
    rw [evaluateStrictlyStuck_eq]
    split_ifs
    · exact gated_leads fireThroughGate_moved.1 fun _ h => by
        cases h
        exact .inr rfl
    · exact Leads.trans (quietly_leads (by rfl)) evaluateQuiet_leads

theorem evaluateStandard_leads : Leads a (a.evaluateStandard t).2 := by
  unfold evaluateStandard
  split_ifs
  · exact fireThroughGate_leads fun _ h => nomatch h
  · obtain ⟨reason, tracker, -, hrepetition⟩ := repetitionReason_eq (w := a.watchdog) (t := t)
    rw [hrepetition]
    have hquiet : Leads a (a.quietly { a.watchdog with repetitionTracker := tracker }) := quietly_leads rfl
    split_ifs
    · exact hquiet.trans (fireThroughGate_leads fun _ h => nomatch h)
    · refine hquiet.trans ?_
      dsimp only
      rw [evaluateNoOutputAtStart_eq]
      split_ifs
      · exact gated_leads fireThroughGate_moved.1 fun _ h => by
          cases h
          exact .inr rfl
      · exact evaluateIdle_leads

theorem evaluate_leads : Leads a (a.evaluate t).2 := by
  refine Leads.trans (quietly_leads ?_) evaluateStandard_leads
  unfold pollSubagentOutput
  split_ifs <;> rfl

/-! ## Calls -/

theorem step_leads {call : StatusCall} (hstarts : StartsBetweenRuns a call b) (hstep : a.step call = some b) : Leads a b := by
  cases call with
  | recordInvocationEnd =>
    cases hstep
    exact setStall_leads false
  | call call =>
    cases hstep
    cases call with
    | recordInvocationStart now => exact recordInvocationStart_leads hstarts
    | recordActivity baselineAt outputAt => exact reset_leads (resetIdleBaseline_closed _ baselineAt)
    | recordLifecycleActivity now => exact resetIdleBaseline_leads
    | recordToolUseActivity baselineAt outputAt => exact reset_leads (resetIdleBaseline_closed _ baselineAt)
    | recordToolCallActivity fingerprint now notedAt => exact accumulated_leads (accumulateWaitingRun_closed _ now)
    | recordErrorActivity fingerprint now notedAt => exact accumulated_leads (accumulateWaitingRun_closed _ now)
    | recordProgressReport fingerprint first second =>
      unfold perform IdleWatchdog.recordProgressReport
      dsimp only
      split_ifs
      · exact accumulated_leads (accumulateWaitingRun_closed _ first)
      · exact reset_leads (accumulateWaitingRun_closed { a.watchdog with lastProgressFingerprint := some fingerprint } first)
    | recordToolResultActivity isHarnessEcho now baselineAt =>
      unfold perform IdleWatchdog.recordToolResultActivity
      dsimp only
      split_ifs
      · exact accumulated_leads (accumulateWaitingRun_closed _ now)
      · exact accumulateWaitingRun_leads.trans
          (reset_leads (accumulateWaitingRun_closed (a.watchdog.accumulateWaitingRun now) baselineAt))
    | recordMcpToolCall at_ => exact quietly_leads rfl
    | recordSubagentWork at_ => exact quietly_leads rfl
    | recordSubagentOutput lineCount at_ => exact quietly_leads rfl
    | recordWorkspaceEvent weight at_ =>
      refine quietly_leads ?_
      unfold IdleWatchdog.perform IdleWatchdog.recordWorkspaceEvent
      dsimp only
      split_ifs <;> rfl
    | setIsWaitingState isWaitingState => exact quietly_leads rfl
    | evaluate t => exact evaluate_leads

/-- What has been announced leads a display that was empty to the one of now. -/
def Heard (a : Announcer) : Prop := Run.run (Display.accept aheadOfBranches) {} a.emitted = some a.display

theorem Heard.lead (h : a.Heard) (hleads : Leads a b) : b.Heard := by
  obtain ⟨events, hemitted, hrun⟩ := hleads
  rw [Heard, hemitted, Run.run_append, h]
  exact hrun

/-! ## The watchdog behind the announcements -/

def decided (result : WatchdogVerdict × Announcer) : WatchdogVerdict × IdleWatchdog := (result.1, result.2.watchdog)

theorem gated_watchdog {verdict : WatchdogVerdict} : (a.gated stops verdict w).watchdog = w := by
  unfold gated stop
  split_ifs
  · cases stops <;> exact setStall_watchdog true
  · exact setStall_watchdog false

theorem ruled_cases (result : Option WatchdogVerdict × IdleWatchdog) : ∃ b, a.ruled stops result = (result.1, b) ∧ b.watchdog = result.2 := by
  obtain ⟨verdict, w⟩ := result
  cases verdict with
  | none => exact ⟨_, rfl, rfl⟩
  | some verdict => exact ⟨_, rfl, gated_watchdog⟩

theorem fireThroughGate_decided {reason : WatchdogFireReason} :
    decided (a.fireThroughGate t reason stops) = a.watchdog.fireThroughGate t reason := by
  unfold fireThroughGate decided
  dsimp only
  rw [gated_watchdog]

theorem handleActiveBranch_decided : decided (a.handleActiveBranch t) = a.watchdog.handleActiveBranch t := by
  unfold handleActiveBranch IdleWatchdog.handleActiveBranch
  dsimp only
  rw [accumulateWaitingRun_watchdog]
  split_ifs
  · rw [fireThroughGate_decided, accumulateWaitingRun_watchdog]
  · rfl

theorem enterWaiting_watchdog : (a.enterWaiting t).watchdog =
    { a.watchdog with waitingOnChildStartedAt := some (a.watchdog.waitingOnChildStartedAt.getD t.now) } := by
  unfold enterWaiting
  cases hrun : a.watchdog.waitingOnChildStartedAt with
  | none => rfl
  | some startedAt =>
    have hsame : { a.watchdog with waitingOnChildStartedAt := some startedAt } = a.watchdog := by rw [← hrun]
    exact hsame.symm

theorem announceProgress_watchdog : (a.announceProgress t).watchdog = a.watchdog := by
  unfold announceProgress
  cases a.lastWaitingStatusAt with
  | none => rfl
  | some last => dsimp only; split_ifs <;> rfl

theorem handleWaitingBranch_decided : decided (a.handleWaitingBranch t) = a.watchdog.handleWaitingBranch t := by
  have hentered := enterWaiting_watchdog (a := a) (t := t)
  unfold handleWaitingBranch IdleWatchdog.handleWaitingBranch
  dsimp only
  generalize a.enterWaiting t = entered at hentered ⊢
  obtain ⟨w, policy, stallActive, lastWaitingStatusAt, suspicionAnnouncedForRun, emitted⟩ := entered
  obtain rfl : w = _ := hentered
  simp only [accumulateWaitingRun_watchdog]
  split_ifs
  · exact congrArg _ accumulateWaitingRun_watchdog
  · rw [handleActiveBranch_decided, accumulateWaitingRun_watchdog]
  · exact fireThroughGate_decided
  · rfl
  · exact congrArg _ (setStall_watchdog true)
  · exact congrArg _ (announceProgress_watchdog.trans announceSuspicion_watchdog)

theorem evaluateFinalVerdict_decided : decided (a.evaluateFinalVerdict t) = a.watchdog.evaluateFinalVerdict t := by
  unfold evaluateFinalVerdict IdleWatchdog.evaluateFinalVerdict
  cases a.watchdog.drainStartedAt with
  | some startedAt =>
    dsimp only
    unfold handleDrainWindow IdleWatchdog.handleDrainWindow
    split_ifs
    · exact handleWaitingBranch_decided
    · rfl
    · exact fireThroughGate_decided
  | none =>
    obtain ⟨b, hruled, hb⟩ := ruled_cases (a := a) (a.watchdog.postToolResultStalled t)
    dsimp only
    rw [hruled]
    generalize a.watchdog.postToolResultStalled t = result at hb ⊢
    obtain ⟨verdict, w⟩ := result
    obtain rfl : b.watchdog = w := hb
    cases verdict with
    | some verdict => rfl
    | none =>
      dsimp only
      split_ifs
      · exact handleWaitingBranch_decided
      · rfl
      · exact handleActiveBranch_decided

theorem evaluateQuiet_decided {idleElapsed idleTimeout : ℚ} :
    decided (a.evaluateQuiet t idleElapsed idleTimeout) = a.watchdog.evaluateQuiet t idleElapsed idleTimeout := by
  unfold evaluateQuiet IdleWatchdog.evaluateQuiet
  obtain ⟨b, hruled, hb⟩ := ruled_cases (a := a) (if t.classifyQuiet .evaluate = .waitingOnChild then
    a.watchdog.evaluateNoProgressQuiet t idleElapsed else (none, a.watchdog))
  rw [hruled]
  generalize (if t.classifyQuiet .evaluate = .waitingOnChild then
    a.watchdog.evaluateNoProgressQuiet t idleElapsed else (none, a.watchdog)) = result at hb ⊢
  obtain ⟨verdict, w⟩ := result
  obtain rfl : b.watchdog = w := hb
  cases verdict with
  | some verdict => rfl
  | none =>
    dsimp only
    split_ifs
    · exact congrArg _ accumulateWaitingRun_watchdog
    · exact evaluateFinalVerdict_decided

theorem evaluateIdle_decided {idleElapsed : ℚ} : decided (a.evaluateIdle t idleElapsed) = a.watchdog.evaluateIdle t idleElapsed := by
  unfold evaluateIdle IdleWatchdog.evaluateIdle
  cases a.watchdog.config.idleTimeoutSeconds with
  | none => rfl
  | some idleTimeout =>
    obtain ⟨b, hruled, hb⟩ := ruled_cases (a := a) (a.watchdog.evaluateStrictlyStuck t)
    dsimp only
    rw [hruled]
    generalize a.watchdog.evaluateStrictlyStuck t = result at hb ⊢
    obtain ⟨verdict, w⟩ := result
    obtain rfl : b.watchdog = w := hb
    cases verdict with
    | some verdict => rfl
    | none => exact evaluateQuiet_decided

theorem evaluateStandard_decided : decided (a.evaluateStandard t) = a.watchdog.evaluateStandard t := by
  unfold evaluateStandard IdleWatchdog.evaluateStandard
  split_ifs
  · exact fireThroughGate_decided
  · obtain ⟨reason, w⟩ := a.watchdog.repetitionReason t
    cases reason with
    | some reason => exact fireThroughGate_decided
    | none =>
      obtain ⟨b, hruled, hb⟩ := ruled_cases (a := a.quietly w) (w.evaluateNoOutputAtStart t)
      dsimp only
      rw [hruled]
      generalize w.evaluateNoOutputAtStart t = result at hb ⊢
      obtain ⟨verdict, w⟩ := result
      obtain rfl : b.watchdog = w := hb
      cases verdict with
      | some verdict => rfl
      | none => exact evaluateIdle_decided

theorem evaluate_decided (hprofile : a.watchdog.config.profile = .standard) : decided (a.evaluate t) = a.watchdog.evaluate t := by
  have hpolled : (a.watchdog.pollSubagentOutput t).config.profile = .standard := by
    unfold pollSubagentOutput
    split_ifs <;> exact hprofile
  unfold evaluate IdleWatchdog.evaluate
  dsimp only
  rw [hpolled]
  exact evaluateStandard_decided

theorem perform_watchdog {call : WatchdogCall} (hprofile : a.watchdog.config.profile = .standard) :
    (a.perform call).watchdog = a.watchdog.perform call := by
  cases call with
  | evaluate t => exact congrArg Prod.snd (evaluate_decided hprofile)
  | recordInvocationStart now => exact setStall_watchdog false
  | recordLifecycleActivity now => exact resetIdleBaseline_watchdog
  | _ => rfl

end Announcer

open Announcer

/-- The call, without anything announced. -/
def StatusCall.unheard (w : IdleWatchdog) : StatusCall → IdleWatchdog
  | .call made => w.perform made
  | .recordInvocationEnd => w

theorem step_unheard {a : Announcer} (call : StatusCall) (hprofile : a.watchdog.config.profile = .standard) :
    ∃ b, a.step call = some b ∧ b.watchdog = call.unheard a.watchdog ∧ b.watchdog.config.profile = .standard := by
  cases call with
  | call call =>
    have hwatchdog : (a.perform call).watchdog = a.watchdog.perform call := perform_watchdog hprofile
    exact ⟨_, rfl, hwatchdog, by rw [hwatchdog, (perform_made call).config, hprofile]⟩
  | recordInvocationEnd =>
    have hwatchdog : a.recordInvocationEnd.watchdog = a.watchdog := setStall_watchdog false
    exact ⟨_, rfl, hwatchdog, by rw [hwatchdog, hprofile]⟩

theorem run_unheard (calls : List StatusCall) : ∀ {a : Announcer}, a.watchdog.config.profile = .standard →
    ∃ b, Run.run Announcer.step a calls = some b ∧ b.watchdog = calls.foldl StatusCall.unheard a.watchdog ∧
      b.watchdog.config.profile = .standard := by
  induction calls with
  | nil => exact fun {a} hprofile => ⟨a, rfl, rfl, hprofile⟩
  | cons call calls ih =>
    intro a hprofile
    obtain ⟨mid, hstep, hmid, hstandard⟩ := step_unheard call hprofile
    obtain ⟨b, hrun, hwatchdog, hafter⟩ := ih hstandard
    exact ⟨b, Run.run_cons_iff.mpr ⟨mid, hstep, hrun⟩, by rw [hwatchdog, hmid]; rfl, hafter⟩

/-- Neither the listener nor what is to be announced to it plays a part in a verdict. -/
theorem listener_changes_nothing (config : TimeoutPolicy) (policy : StatusPolicy) (hasProcessMonitor : Bool) (now : ℚ)
    (calls : List StatusCall) :
    ∃ a, Run.run Announcer.step (create config policy hasProcessMonitor now) calls = some a ∧
      a.watchdog = calls.foldl StatusCall.unheard (IdleWatchdog.create { config with profile := .standard } hasProcessMonitor now) ∧
      ∀ t, (a.evaluate t).1 = (a.watchdog.evaluate t).1 := by
  obtain ⟨a, hrun, hwatchdog, hprofile⟩ := run_unheard calls (a := create config policy hasProcessMonitor now) rfl
  exact ⟨a, hrun, hwatchdog, fun _ => congrArg Prod.fst (evaluate_decided hprofile)⟩

/-- Where no invocation starts in a run of waiting, the stream is well bracketed. -/
theorem stream_bracketed (config : TimeoutPolicy) (policy : StatusPolicy) (hasProcessMonitor : Bool) (now : ℚ)
    (calls : List StatusCall) (a : Announcer)
    (hrun : Run.run Announcer.step (create config policy hasProcessMonitor now) calls = some a)
    (hstarts : Run.Throughout Announcer.step StartsBetweenRuns (create config policy hasProcessMonitor now) calls) :
    WellBracketed aheadOfBranches a.emitted := by
  have hheard : a.Heard :=
    Run.Throughout.invariant (fun _ _ _ h hstart hstep => h.lead (step_leads hstart hstep)) hstarts rfl hrun
  rw [WellBracketed, hheard]
  rfl

def untimed : Announcer :=
  create { idleTimeoutSeconds := some 60 }
    { suspectWaitingOnChildSeconds := none, osDescendantOnlySuspectSeconds := none, waitingStatusIntervalSeconds := 30 } false 0

def plainTick (now : ℚ) (state : AgentExecutionState) : Tick where
  clock := fun _ => now
  classifyQuiet := fun _ => state

def waitedOnce : Announcer :=
  (untimed.perform (.evaluate (plainTick 60 .waitingOnChild))).perform (.recordActivity 70 70)

theorem waitedOnce_bracketed : waitedOnce.emitted = [.entered, .exited] ∧ WellBracketed aheadOfBranches waitedOnce.emitted :=
  ⟨by decide +kernel,
    stream_bracketed _ _ _ _ [.call (.evaluate (plainTick 60 .waitingOnChild)), .call (.recordActivity 70 70)] waitedOnce rfl
      (by decide +kernel)⟩

/-- An agent that says nothing for six minutes is stopped hard with no run of waiting open. -/
theorem silent_start_stops : (Run.run Announcer.step untimed [.call (.recordInvocationStart 0), .call (.evaluate (plainTick 360 .active))]).map
        emitted = some [.stalled, .hardStop .noOutputAtStart] ∧
      ¬WellBracketed (fun _ => false) [.stalled, .hardStop .noOutputAtStart] := by
  decide +kernel

end RalphWorkflow.Agents
