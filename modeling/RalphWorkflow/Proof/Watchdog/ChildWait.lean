import RalphWorkflow.Lib.Run
import RalphWorkflow.Proof.Watchdog.Exits
import Mathlib.Tactic.Linarith

/-! A run of waiting is opened where an evaluation sees the agent wait on a child past its idle deadline. What is charged is compared
with an account that is kept from outside: of what each call saw, and when. -/
namespace RalphWorkflow.Agents
open Lib.Run Option

namespace IdleWatchdog

/-! ## The account -/

/-- The waits seen so far, the last first, and when the one that is going on began. -/
structure Account where
  waits : List (ℚ × ℚ) := []
  since : Option ℚ := none

namespace Account

/-- A wait begins at a call that sees the agent wait, and ends at the first one that sees it no longer wait. -/
def observe (account : Account) (sighting : Sighting) (instant : ℚ) : Account :=
  match sighting, account.since with
  | .waiting, none => { account with since := some instant }
  | .notWaiting, some since => { waits := (since, instant) :: account.waits, since := none }
  | _, _ => account

def closed (account : Account) : ℚ := (account.waits.map fun wait => wait.2 - wait.1).sum

def total (account : Account) (now : ℚ) : ℚ := account.closed + account.since.elim 0 fun since => now - since

/-- No wait begins before the one before it is over, and none ends before it begins. -/
def Disjoint (account : Account) : Prop :=
  (account.waits.Pairwise fun later earlier => earlier.2 ≤ later.1) ∧ (∀ wait ∈ account.waits, wait.1 ≤ wait.2) ∧
    ∀ since, account.since = some since → ∀ wait ∈ account.waits, wait.2 ≤ since

end Account

/-! ## One invocation -/

def instant? : WatchdogCall → Option ℚ
  | .recordInvocationStart now => some now
  | .recordActivity baselineAt _ => some baselineAt
  | .recordLifecycleActivity now => some now
  | .recordToolUseActivity baselineAt _ => some baselineAt
  | .recordToolCallActivity _ now _ => some now
  | .recordErrorActivity _ now _ => some now
  | .recordProgressReport _ first _ => some first
  | .recordToolResultActivity _ now _ => some now
  | .evaluate t => some t.now
  | .recordMcpToolCall .. | .recordSubagentWork .. | .recordSubagentOutput .. | .recordWorkspaceEvent ..
  | .setIsWaitingState .. => none

end IdleWatchdog

open IdleWatchdog

/-- A watchdog within one invocation, with the clock's last reading and the account. -/
structure Invocation where
  watchdog : IdleWatchdog
  clock : ℚ
  account : Account := {}

namespace Invocation

def «begin» (w : IdleWatchdog) (start : ℚ) : Invocation where
  watchdog := w.recordInvocationStart start
  clock := start

/-- A call, where the clock has not gone back; the start of an invocation would be the next one's. -/
def step (s : Invocation) (call : WatchdogCall) : Option Invocation :=
  match call, instant? call with
  | .recordInvocationStart _, _ => none
  | _, none => some { s with watchdog := s.watchdog.perform call }
  | _, some instant =>
    if instant < s.clock then none
    else some
      { watchdog := s.watchdog.perform call
        clock := instant
        account := s.account.observe (s.watchdog.sees call) instant }

/-- What is charged is from now on the length of the waits of the account. -/
def Accounted (s : Invocation) : Prop :=
  (∀ now, s.clock ≤ now →
    s.watchdog.cumulativeWaitingOnChildSeconds + s.watchdog.currentWaitingRun now = s.account.total now) ∧ s.account.Disjoint

/-- It sees the agent no longer wait and leaves the run open. -/
def LeavesOpen (s : Invocation) : WatchdogCall → Prop
  | .evaluate t =>
    s.watchdog.waitingOnChildStartedAt.isSome ∧ s.watchdog.sees (.evaluate t) = .notWaiting ∧
      ((s.watchdog.pollSubagentOutput t).exit t).move = .keeps
  | _ => False

end Invocation

/-! ## The account, call by call -/

namespace IdleWatchdog.Account

variable {account : Account} {instant : ℚ}

theorem observe_waiting_since : (account.observe .waiting instant).since = some (account.since.getD instant) := by
  unfold observe
  cases hsince : account.since with
  | none => rfl
  | some since => exact hsince

theorem observe_waiting_waits : (account.observe .waiting instant).waits = account.waits := by
  unfold observe
  cases account.since <;> rfl

theorem observe_notWaiting_since : (account.observe .notWaiting instant).since = none := by
  unfold observe
  cases hsince : account.since with
  | none => exact hsince
  | some since => rfl

theorem observe_notWaiting_closed :
    (account.observe .notWaiting instant).closed = account.closed + account.since.elim 0 fun since => instant - since := by
  unfold observe
  cases account.since with
  | none => exact (add_zero _).symm
  | some since => exact add_comm _ _

theorem observe_notWaiting_of_none (h : account.since = none) : account.observe .notWaiting instant = account := by
  unfold observe
  rw [h]

end IdleWatchdog.Account

namespace Invocation

variable {s next : Invocation} {call : WatchdogCall}

/-- The watchdog's run and total are the account's, and what the account holds lies behind the clock. -/
structure Sound (s : Invocation) : Prop where
  opened : s.watchdog.waitingOnChildStartedAt = s.account.since
  charged : s.watchdog.cumulativeWaitingOnChildSeconds = s.account.closed
  disjoint : s.account.Disjoint
  past : ∀ wait ∈ s.account.waits, wait.2 ≤ s.clock
  begun : ∀ since, s.account.since = some since → since ≤ s.clock ∧ s.watchdog.PastDeadline since

theorem begin_sound (w : IdleWatchdog) (start : ℚ) : («begin» w start).Sound where
  opened := rfl
  charged := rfl
  disjoint := ⟨List.Pairwise.nil, fun _ h => absurd h (List.not_mem_nil), nofun⟩
  past _ h := absurd h (List.not_mem_nil)
  begun _ h := absurd h (by simp [«begin»])

theorem Sound.accounted (h : s.Sound) : s.Accounted := by
  refine ⟨fun now _ => ?_, h.disjoint⟩
  unfold Account.total currentWaitingRun
  rw [h.charged, h.opened]
  cases s.account.since with
  | none => simp
  | some since => rfl

variable {after : IdleWatchdog} {instant : ℚ}

theorem Sound.keeps (h : s.Sound) (hclock : s.clock ≤ instant) (hmoved : Moved .keeps instant s.watchdog after)
    (hconfig : after.config = s.watchdog.config) (hactivity : after.lastActivity = s.watchdog.lastActivity) :
    Sound ⟨after, instant, s.account⟩ where
  opened := hmoved.1.trans h.opened
  charged := hmoved.2.trans h.charged
  disjoint := h.disjoint
  past wait hwait := (h.past wait hwait).trans hclock
  begun since hsince := by
    obtain ⟨hbegan, timeout, htimeout, hlate⟩ := h.begun since hsince
    exact ⟨hbegan.trans hclock, timeout, hconfig ▸ htimeout, by rw [hactivity]; exact hlate⟩

theorem Sound.closes (h : s.Sound) (hclock : s.clock ≤ instant) (hmoved : Moved .closes instant s.watchdog after) :
    Sound ⟨after, instant, s.account.observe .notWaiting instant⟩ where
  opened := hmoved.1.trans Account.observe_notWaiting_since.symm
  charged := by
    rw [hmoved.2, h.charged, h.opened, Account.observe_notWaiting_closed]
    cases hsince : s.account.since with
    | none => rfl
    | some since =>
      have hlater : 0 ≤ instant - since := sub_nonneg.mpr ((h.begun since hsince).1.trans hclock)
      rw [elim_some, elim_some, max_eq_right hlater]
  disjoint := by
    cases hsince : s.account.since with
    | none =>
      rw [Account.observe_notWaiting_of_none hsince]
      exact h.disjoint
    | some since =>
      obtain ⟨hpairwise, hproper, hbefore⟩ := h.disjoint
      have hobserved : s.account.observe .notWaiting instant = { waits := (since, instant) :: s.account.waits, since := none } := by
        unfold Account.observe
        rw [hsince]
      rw [hobserved]
      refine ⟨List.pairwise_cons.mpr ⟨hbefore since hsince, hpairwise⟩, fun wait hwait => ?_, nofun⟩
      rcases List.mem_cons.mp hwait with rfl | hold
      · exact (h.begun since hsince).1.trans hclock
      · exact hproper wait hold
  past wait hwait := by
    cases hsince : s.account.since with
    | none =>
      rw [Account.observe_notWaiting_of_none hsince] at hwait
      exact (h.past wait hwait).trans hclock
    | some since =>
      have hobserved : (s.account.observe .notWaiting instant).waits = (since, instant) :: s.account.waits := by
        unfold Account.observe
        rw [hsince]
      rw [hobserved] at hwait
      rcases List.mem_cons.mp hwait with rfl | hold
      · exact le_refl instant
      · exact (h.past wait hold).trans hclock
  begun since hsince := by
    rw [Account.observe_notWaiting_since] at hsince
    cases hsince

theorem Sound.opens (h : s.Sound) (hclock : s.clock ≤ instant) (hmoved : Moved .opens instant s.watchdog after)
    (hconfig : after.config = s.watchdog.config) (hactivity : after.lastActivity = s.watchdog.lastActivity)
    (hlate : s.watchdog.PastDeadline instant) : Sound ⟨after, instant, s.account.observe .waiting instant⟩ where
  opened := by
    rw [hmoved.1, h.opened, Account.observe_waiting_since]
  charged := by
    rw [hmoved.2, h.charged]
    unfold Account.closed
    rw [Account.observe_waiting_waits]
  disjoint := by
    obtain ⟨hpairwise, hproper, hbefore⟩ := h.disjoint
    unfold Account.Disjoint
    rw [Account.observe_waiting_waits, Account.observe_waiting_since]
    refine ⟨hpairwise, hproper, fun since hsince wait hwait => ?_⟩
    cases hopen : s.account.since with
    | none =>
      rw [hopen] at hsince
      cases hsince
      exact (h.past wait hwait).trans hclock
    | some began =>
      rw [hopen] at hsince
      cases hsince
      exact hbefore began hopen wait hwait
  past wait hwait := by
    rw [Account.observe_waiting_waits] at hwait
    exact (h.past wait hwait).trans hclock
  begun since hsince := by
    have hstays : ∀ at_, s.watchdog.PastDeadline at_ → after.PastDeadline at_ := by
      rintro at_ ⟨timeout, htimeout, hidle⟩
      exact ⟨timeout, hconfig ▸ htimeout, by rw [hactivity]; exact hidle⟩
    rw [Account.observe_waiting_since] at hsince
    cases hopen : s.account.since with
    | none =>
      rw [hopen] at hsince
      cases hsince
      exact ⟨le_refl instant, hstays instant hlate⟩
    | some began =>
      rw [hopen] at hsince
      cases hsince
      obtain ⟨hbegan, hidle⟩ := h.begun began hopen
      exact ⟨hbegan.trans hclock, hstays began hidle⟩

/-! ## Every call -/

variable {t : Tick}

theorem polled_stands (w : IdleWatchdog) (t : Tick) (now : ℚ) : (w.pollSubagentOutput t).PastDeadline now ↔ w.PastDeadline now := by
  unfold pollSubagentOutput
  split <;> exact Iff.rfl

theorem exit_waits_of_opens {exit : Exit} (h : exit.move = .opens) : exit = .waits := by
  cases exit <;> first | rfl | cases h

theorem Sound.not_busy (h : s.Sound) (hclock : s.clock ≤ t.now) {since : ℚ} (hsince : s.account.since = some since) :
    (s.watchdog.pollSubagentOutput t).exit t ≠ .busy := by
  intro hbusy
  obtain ⟨limit, hlimit, hearly⟩ := (exit_tells (w := s.watchdog.pollSubagentOutput t)).busy hbusy
  obtain ⟨hbegan, hidle⟩ := h.begun since hsince
  obtain ⟨timeout, htimeout, hlate⟩ := (polled_stands s.watchdog t since).mpr hidle
  cases hlimit.symm.trans htimeout
  linarith

theorem evaluate_sound (h : s.Sound) (hclock : s.clock ≤ t.now) (hclean : ¬s.LeavesOpen (.evaluate t)) :
    Sound ⟨(s.watchdog.evaluate t).2, t.now, s.account.observe (s.watchdog.sees (.evaluate t)) t.now⟩ := by
  have hmoved := evaluate_moved (w := s.watchdog) (t := t)
  obtain ⟨hconfig, hactivity⟩ := evaluate_stands (w := s.watchdog) (t := t)
  have hsees : s.watchdog.sees (.evaluate t) = (s.watchdog.pollSubagentOutput t).evaluationSees t := rfl
  have hwaits := evaluationSees_waiting_iff (w := s.watchdog.pollSubagentOutput t) (t := t)
  cases hmove : ((s.watchdog.pollSubagentOutput t).exit t).move with
  | opens =>
    have hexit := exit_waits_of_opens hmove
    have hlate := (polled_stands s.watchdog t t.now).mp ((exit_tells (w := s.watchdog.pollSubagentOutput t)).waits hexit)
    rw [hsees, hwaits.mpr hexit]
    rw [hmove] at hmoved
    exact h.opens hclock hmoved hconfig hactivity hlate
  | closes =>
    rw [hmove] at hmoved
    have hclosed := h.closes hclock hmoved
    by_cases hbusy : (s.watchdog.pollSubagentOutput t).exit t = .busy
    · have hnone : s.account.since = none := by
        cases hsince : s.account.since with
        | none => rfl
        | some since => exact absurd hbusy (h.not_busy hclock hsince)
      have hsame : s.account.observe (s.watchdog.sees (.evaluate t)) t.now = s.account.observe .notWaiting t.now := by
        rw [Account.observe_notWaiting_of_none hnone]
        cases hsight : s.watchdog.sees (.evaluate t) with
        | nothing => rfl
        | notWaiting => exact Account.observe_notWaiting_of_none hnone
        | waiting =>
          rw [hwaits.mp hsight] at hbusy
          cases hbusy
      rw [hsame]
      exact hclosed
    · rw [hsees, evaluationSees_of_closes hmove hbusy]
      exact hclosed
  | keeps =>
    rw [hmove] at hmoved
    have hkept := h.keeps hclock hmoved hconfig hactivity
    cases hsight : s.watchdog.sees (.evaluate t) with
    | nothing => exact hkept
    | waiting =>
      rw [hwaits.mp hsight] at hmove
      cases hmove
    | notWaiting =>
      have hnone : s.account.since = none := by
        by_contra hsome
        rw [← h.opened] at hsome
        exact hclean ⟨isSome_iff_ne_none.mpr hsome, hsight, hmove⟩
      rw [Account.observe_notWaiting_of_none hnone]
      exact hkept

theorem resetIdleBaseline_moved {w : IdleWatchdog} {now : ℚ} : Moved .closes now w (w.resetIdleBaseline now) :=
  accumulateWaitingRun_moved.of_closes rfl rfl

theorem record_moved {w : IdleWatchdog} {call : WatchdogCall} (hsees : w.sees call = .notWaiting) {instant : ℚ}
    (hinstant : instant? call = some instant) (hrecord : ∀ t, call ≠ .evaluate t) :
    Moved .closes instant w (w.perform call) := by
  cases call with
  | evaluate t => exact absurd rfl (hrecord t)
  | recordInvocationStart | recordMcpToolCall | recordSubagentWork | recordSubagentOutput | recordWorkspaceEvent
  | setIsWaitingState => cases hsees
  | recordActivity | recordLifecycleActivity | recordToolUseActivity =>
    cases hinstant
    exact resetIdleBaseline_moved.of_closes rfl rfl
  | recordToolCallActivity | recordErrorActivity =>
    cases hinstant
    exact accumulateWaitingRun_moved.of_closes rfl rfl
  | recordProgressReport fingerprint first second =>
    cases hinstant
    show Moved .closes instant w (w.recordProgressReport fingerprint instant second)
    unfold recordProgressReport
    split_ifs
    · exact accumulateWaitingRun_moved.of_closes rfl rfl
    · have hreset : Moved .closes instant { w with lastProgressFingerprint := some fingerprint }
        ({ w with lastProgressFingerprint := some fingerprint }.resetIdleBaseline instant) := resetIdleBaseline_moved
      exact hreset.of_closes rfl rfl
  | recordToolResultActivity isHarnessEcho now baselineAt =>
    cases hinstant
    have hclosed : Moved .closes instant w (w.accumulateWaitingRun instant) := accumulateWaitingRun_moved
    cases isHarnessEcho with
    | true => exact hclosed.of_closes rfl rfl
    | false =>
      obtain ⟨hrun, htotal⟩ := @resetIdleBaseline_moved (w.accumulateWaitingRun instant) baselineAt
      refine hclosed.of_closes (hrun.trans hclosed.1.symm) (htotal.trans ?_)
      rw [hclosed.1, elim_none, add_zero]

theorem channel_keeps {w : IdleWatchdog} {call : WatchdogCall} (hinstant : instant? call = none) :
    (w.perform call).waitingOnChildStartedAt = w.waitingOnChildStartedAt ∧
      (w.perform call).cumulativeWaitingOnChildSeconds = w.cumulativeWaitingOnChildSeconds ∧
        (w.perform call).config = w.config ∧ (w.perform call).lastActivity = w.lastActivity := by
  cases call with
  | recordMcpToolCall | recordSubagentWork | recordSubagentOutput | setIsWaitingState => exact ⟨rfl, rfl, rfl, rfl⟩
  | recordWorkspaceEvent weight at_ =>
    show _ ∧ _
    simp only [perform, recordWorkspaceEvent]
    split_ifs <;> exact ⟨rfl, rfl, rfl, rfl⟩
  | recordInvocationStart | recordActivity | recordLifecycleActivity | recordToolUseActivity | recordToolCallActivity
  | recordErrorActivity | recordProgressReport | recordToolResultActivity | evaluate => cases hinstant

theorem step_cases (hstep : s.step call = some next) : (instant? call = none ∧ next = { s with watchdog := s.watchdog.perform call }) ∨
      ∃ instant, instant? call = some instant ∧ s.clock ≤ instant ∧ (∀ now, call ≠ .recordInvocationStart now) ∧
        next = ⟨s.watchdog.perform call, instant, s.account.observe (s.watchdog.sees call) instant⟩ := by
  unfold step at hstep
  cases call with
  | recordInvocationStart => cases hstep
  | recordMcpToolCall | recordSubagentWork | recordSubagentOutput | recordWorkspaceEvent | setIsWaitingState =>
    exact .inl ⟨rfl, (Option.some.inj hstep).symm⟩
  | recordActivity | recordLifecycleActivity | recordToolUseActivity | recordToolCallActivity | recordErrorActivity
  | recordProgressReport | recordToolResultActivity | evaluate =>
    obtain ⟨hclock, hnext⟩ := ite_none_left_eq_some.mp hstep
    exact .inr ⟨_, rfl, not_lt.mp hclock, nofun, (Option.some.inj hnext).symm⟩

theorem total_le_of_moved {w after : IdleWatchdog} {move : RunMove} {now : ℚ} (h : Moved move now w after) :
    w.cumulativeWaitingOnChildSeconds ≤ after.cumulativeWaitingOnChildSeconds := by
  cases move with
  | keeps | opens => exact h.2.ge
  | closes =>
    rw [h.2]
    refine le_add_of_nonneg_right ?_
    cases w.waitingOnChildStartedAt with
    | none => exact le_refl 0
    | some startedAt => exact le_max_left 0 _

theorem reads_clock {instant : ℚ} (hinstant : instant? call = some instant) (hstart : ∀ now, call ≠ .recordInvocationStart now) :
    (∃ t, call = .evaluate t ∧ instant = t.now) ∨
      s.watchdog.sees call = .notWaiting ∧ Moved .closes instant s.watchdog (s.watchdog.perform call) := by
  cases call with
  | evaluate t => exact .inl ⟨t, rfl, (Option.some.inj hinstant).symm⟩
  | recordInvocationStart now => exact absurd rfl (hstart now)
  | recordMcpToolCall | recordSubagentWork | recordSubagentOutput | recordWorkspaceEvent | setIsWaitingState => cases hinstant
  | recordActivity | recordLifecycleActivity | recordToolUseActivity | recordToolCallActivity | recordErrorActivity
  | recordProgressReport | recordToolResultActivity => exact .inr ⟨rfl, record_moved rfl hinstant nofun⟩

theorem step_total_le (hstep : s.step call = some next) :
    s.watchdog.cumulativeWaitingOnChildSeconds ≤ next.watchdog.cumulativeWaitingOnChildSeconds := by
  rcases step_cases hstep with ⟨hinstant, rfl⟩ | ⟨instant, hinstant, -, hstart, rfl⟩
  · exact (channel_keeps hinstant).2.1.ge
  · rcases reads_clock hinstant hstart with ⟨t, rfl, rfl⟩ | ⟨-, hmoved⟩
    · exact total_le_of_moved (evaluate_moved (w := s.watchdog) (t := t))
    · exact total_le_of_moved hmoved

theorem step_sound (h : s.Sound) (hclean : ¬s.LeavesOpen call) (hstep : s.step call = some next) : next.Sound := by
  rcases step_cases hstep with ⟨hinstant, rfl⟩ | ⟨instant, hinstant, hclock, hstart, rfl⟩
  · obtain ⟨hrun, htotal, hconfig, hactivity⟩ := channel_keeps (w := s.watchdog) hinstant
    exact h.keeps (le_refl _) ⟨hrun, htotal⟩ hconfig hactivity
  · rcases reads_clock (s := s) hinstant hstart with ⟨t, rfl, rfl⟩ | ⟨hsees, hmoved⟩
    · exact evaluate_sound h hclock hclean
    · rw [hsees]
      exact h.closes hclock hmoved

theorem leavesOpen_unaccounted (h : s.Sound) (hopen : s.LeavesOpen call) (hstep : s.step call = some next) : ¬next.Accounted := by
  cases call with
  | evaluate t =>
    obtain ⟨hrun, hsees, hmove⟩ := hopen
    obtain ⟨since, hsince⟩ := isSome_iff_exists.mp hrun
    have hmoved := evaluate_moved (w := s.watchdog) (t := t)
    rw [hmove] at hmoved
    rcases step_cases hstep with ⟨hinstant, -⟩ | ⟨instant, hinstant, -, -, rfl⟩
    · cases hinstant
    cases hinstant
    rintro ⟨hequal, -⟩
    have hlater := hequal (t.now + 1) (le_add_of_nonneg_right zero_le_one)
    have hrunNow : (s.watchdog.perform (.evaluate t)).waitingOnChildStartedAt = some since := hmoved.1.trans hsince
    have htotal : (s.watchdog.perform (.evaluate t)).cumulativeWaitingOnChildSeconds = s.account.closed :=
      hmoved.2.trans h.charged
    unfold currentWaitingRun Account.total at hlater
    rw [hsees, Account.observe_notWaiting_closed, Account.observe_notWaiting_since, ← h.opened, hsince, hrunNow, htotal]
      at hlater
    simp only [getD_some, elim_some, elim_none] at hlater
    linarith
  | recordInvocationStart | recordActivity | recordLifecycleActivity | recordToolUseActivity | recordToolCallActivity
  | recordErrorActivity | recordProgressReport | recordToolResultActivity | recordMcpToolCall | recordSubagentWork
  | recordSubagentOutput | recordWorkspaceEvent | setIsWaitingState => exact hopen.elim

/-- The charged time is that of the waits seen, just when no evaluation leaves a run open that it sees to be over. -/
theorem child_wait_accounted_iff (w : IdleWatchdog) (start : ℚ) (calls : List WatchdogCall) : Throughout step (fun s _ next =>
          s.watchdog.cumulativeWaitingOnChildSeconds ≤ next.watchdog.cumulativeWaitingOnChildSeconds ∧ next.Accounted)
        («begin» w start) calls ↔
      Throughout step (fun s call _ => ¬s.LeavesOpen call) («begin» w start) calls := by
  have hiff : ∀ s call next, Sound s → step s call = some next →
      (s.watchdog.cumulativeWaitingOnChildSeconds ≤ next.watchdog.cumulativeWaitingOnChildSeconds ∧ next.Accounted ↔
        ¬s.LeavesOpen call) := by
    intro s call next h hstep
    constructor
    · intro haccounted hopen
      exact leavesOpen_unaccounted h hopen hstep haccounted.2
    · intro hclean
      exact ⟨step_total_le hstep, (step_sound h hclean hstep).accounted⟩
  have hkeeps : ∀ s call next, Sound s → ¬s.LeavesOpen call → step s call = some next → Sound next :=
    fun s call next h hclean hstep => step_sound h hclean hstep
  exact Throughout.iff_of_step hiff hkeeps (begin_sound w start)

/-! ## A tool call in a wait -/

/-- An evaluation at an instant, of an agent in this state wherever it is asked, whose child makes progress. -/
def tickOf (state : AgentExecutionState) (instant : ℚ) : Tick where
  clock := fun _ => instant
  classifyQuiet := fun _ => state
  corroboration := { aliveBy := some .freshProgress }

def waitCutShort : List WatchdogCall :=
  [.recordActivity 1 1, .evaluate (tickOf .waitingOnChild 301), .recordMcpToolCall 310, .evaluate (tickOf .active 311),
    .evaluate (tickOf .active 500)]

def afterWaitCutShort : Option Invocation :=
  run step («begin» (create { idleTimeoutSeconds := some 300 } false 0) 0) waitCutShort

/-- Ten seconds were seen as a wait, and 199 are charged. -/
theorem wait_charged_past_its_end : ∃ reached, afterWaitCutShort = some reached ∧ reached.account.total 500 = 10 ∧
      reached.watchdog.cumulativeWaitingOnChildSeconds + reached.watchdog.currentWaitingRun 500 = 199 ∧
        ¬reached.Accounted := by
  have hreached : afterWaitCutShort = some (afterWaitCutShort.get (by decide +kernel)) := (some_get _).symm
  have hseen : (afterWaitCutShort.get (by decide +kernel)).account.total 500 = 10 := by decide +kernel
  have hcharged : (afterWaitCutShort.get (by decide +kernel)).watchdog.cumulativeWaitingOnChildSeconds +
      (afterWaitCutShort.get (by decide +kernel)).watchdog.currentWaitingRun 500 = 199 := by decide +kernel
  refine ⟨_, hreached, hseen, hcharged, fun haccounted => ?_⟩
  have hequal := haccounted.1 500 (by decide +kernel)
  rw [hseen, hcharged] at hequal
  norm_num at hequal

end Invocation

end RalphWorkflow.Agents
