import RalphWorkflow.Recovery.Controller

/-! What can be seen of `prune_expired`. An agent is available or not whatever was pruned. The wait until the earliest of some agents is another
matter: an expired entry that nobody has pruned is passed over, where no entry at all ends the search with 0. -/
namespace RalphWorkflow.Recovery
open Lib List CooldownSession

/-! ## Entries -/

namespace AgentUnavailabilityTracker

variable (tracker : AgentUnavailabilityTracker)

theorem get?_pruneExpired (nowMs : Int) (key : String) :
    (tracker.pruneExpired nowMs).unavailableUntilMs.get? key = (tracker.unavailableUntilMs.get? key).filter fun untilMs => nowMs < untilMs := by
  apply Option.ext
  intro untilMs
  have hnodup : ((tracker.unavailableUntilMs.entries.filter fun e => nowMs < e.2).map Prod.fst).Nodup :=
    tracker.unavailableUntilMs.nodup.sublist (filter_sublist.map Prod.fst)
  rw [Dict.get?_eq_some_iff, pruneExpired, Dict.entries_ofList _ hnodup, mem_filter, Option.filter_eq_some_iff, Dict.get?_eq_some_iff]

def running (nowMs : Int) (key : String) : Option Int :=
  (tracker.unavailableUntilMs.get? key).filter fun untilMs => nowMs < untilMs

theorem isAvailable_iff (phase agent : String) (nowMs : Int) :
    tracker.isAvailable phase agent nowMs = true ↔ tracker.running nowMs (agentKey phase agent) = none := by
  unfold isAvailable running
  cases tracker.unavailableUntilMs.get? (agentKey phase agent) with
  | none => simp
  | some untilMs => simp [Option.filter]

/-! ## The earliest wait -/

theorem earliest_congr {other : AgentUnavailabilityTracker} {phase : String} {nowMs : Int} {agents : List String}
    (hsame : ∀ agent ∈ agents, tracker.unavailableUntilMs.get? (agentKey phase agent) = other.unavailableUntilMs.get? (agentKey phase agent))
    (best : Option Int) : tracker.earliestUnavailableWaitMs phase nowMs agents best = other.earliestUnavailableWaitMs phase nowMs agents best := by
  induction agents generalizing best with
  | nil => rfl
  | cons agent rest ih =>
    have hrest := ih fun a ha => hsame a (mem_cons_of_mem _ ha)
    unfold earliestUnavailableWaitMs
    rw [hsame agent mem_cons_self]
    simp only [hrest]

theorem earliest_of_missing {phase : String} {nowMs : Int} {agents : List String} (best : Option Int)
    (hmissing : ∃ agent ∈ agents, tracker.unavailableUntilMs.get? (agentKey phase agent) = none) :
    tracker.earliestUnavailableWaitMs phase nowMs agents best = 0 := by
  induction agents generalizing best with
  | nil => simp at hmissing
  | cons agent rest ih =>
    unfold earliestUnavailableWaitMs
    cases hentry : tracker.unavailableUntilMs.get? (agentKey phase agent) with
    | none => rfl
    | some untilMs =>
      have hrest : ∃ a ∈ rest, tracker.unavailableUntilMs.get? (agentKey phase a) = none := by
        obtain ⟨a, ha, hnone⟩ := hmissing
        rcases mem_cons.1 ha with rfl | ha
        · rw [hentry] at hnone
          cases hnone
        · exact ⟨a, ha, hnone⟩
      simp only [ih _ hrest]
      split
      · split <;> rfl
      · rfl

theorem earliest_eq_zero_iff {phase : String} {nowMs : Int} {agents : List String} (best : Option Int) (hbest : ∀ ms, best = some ms → 0 < ms)
    (hentries : ∀ agent ∈ agents, tracker.unavailableUntilMs.get? (agentKey phase agent) ≠ none) :
    tracker.earliestUnavailableWaitMs phase nowMs agents best = 0 ↔
      best = none ∧ ∀ agent ∈ agents, tracker.running nowMs (agentKey phase agent) = none := by
  induction agents generalizing best with
  | nil =>
    unfold earliestUnavailableWaitMs
    cases best with
    | none => simp
    | some ms =>
      have hpos := hbest ms rfl
      simp only [Option.getD_some, reduceCtorEq, false_and, iff_false]
      omega
  | cons agent rest ih =>
    have hrest : ∀ a ∈ rest, tracker.unavailableUntilMs.get? (agentKey phase a) ≠ none := fun a ha => hentries a (mem_cons_of_mem _ ha)
    unfold earliestUnavailableWaitMs
    cases hentry : tracker.unavailableUntilMs.get? (agentKey phase agent) with
    | none => exact absurd hentry (hentries agent mem_cons_self)
    | some untilMs =>
      by_cases hruns : nowMs < untilMs
      · have hrunning : tracker.running nowMs (agentKey phase agent) ≠ none := by simp [running, hentry, Option.filter, hruns]
        have hpositive : 0 < untilMs - nowMs := by omega
        cases best with
        | none =>
          simp only [hruns, if_true]
          rw [ih _ (by rintro ms ⟨⟩; exact hpositive) hrest]
          simp [hrunning]
        | some ms =>
          have hms := hbest ms rfl
          have hleast : 0 < if untilMs - nowMs < ms then untilMs - nowMs else ms := by split <;> omega
          simp only [hruns, if_true]
          rw [ih _ (by rintro least ⟨⟩; exact hleast) hrest]
          simp
      · have hrunning : tracker.running nowMs (agentKey phase agent) = none := by simp [running, hentry, Option.filter, hruns]
        simp only [hruns, if_false]
        rw [ih best hbest hrest]
        simp [hrunning]

end AgentUnavailabilityTracker

/-! ## Sessions that differ in their prunes -/

/-- Some of the other session's entries, and the same cooldowns running. -/
structure Pruned (s base : CooldownSession) : Prop where
  nowMs : s.nowMs = base.nowMs
  policy : s.tracker.backoffPolicy = base.tracker.backoffPolicy
  attempts : s.tracker.backoffAttempts = base.tracker.backoffAttempts
  entries : ∀ key, s.tracker.unavailableUntilMs.get? key = base.tracker.unavailableUntilMs.get? key ∨
    s.tracker.unavailableUntilMs.get? key = none
  running : ∀ key, s.tracker.running s.nowMs key = base.tracker.running base.nowMs key

namespace Pruned

variable {s base : CooldownSession}

theorem refl (s : CooldownSession) : Pruned s s := ⟨rfl, rfl, rfl, fun _ => .inl rfl, fun _ => rfl⟩

theorem running_prune (tracker : AgentUnavailabilityTracker) (nowMs : Int) (key : String) :
    (tracker.pruneExpired nowMs).running nowMs key = tracker.running nowMs key := by
  unfold AgentUnavailabilityTracker.running
  rw [AgentUnavailabilityTracker.get?_pruneExpired, Option.filter_filter]
  simp

theorem running_later (tracker : AgentUnavailabilityTracker) {nowMs laterMs : Int} (hlater : nowMs ≤ laterMs) (key : String) :
    tracker.running laterMs key = (tracker.running nowMs key).filter fun untilMs => laterMs < untilMs := by
  unfold AgentUnavailabilityTracker.running
  rw [Option.filter_filter]
  congr 1
  funext untilMs
  by_cases hruns : laterMs < untilMs
  · have hruns' : nowMs < untilMs := by omega
    simp [hruns, hruns']
  · simp [hruns]

section

variable (h : Pruned s base)
include h

theorem prune : Pruned (s.step .pruneExpired) base where
  nowMs := h.nowMs
  policy := h.policy
  attempts := h.attempts
  entries key := by
    have hget := s.tracker.get?_pruneExpired s.nowMs key
    show (s.tracker.pruneExpired s.nowMs).unavailableUntilMs.get? key = _ ∨ (s.tracker.pruneExpired s.nowMs).unavailableUntilMs.get? key = _
    rw [hget]
    cases hentry : s.tracker.unavailableUntilMs.get? key with
    | none => exact .inr rfl
    | some untilMs =>
      by_cases hruns : s.nowMs < untilMs
      · refine .inl ?_
        rcases h.entries key with hsame | hnone
        · rw [← hsame, hentry]
          simp [Option.filter, hruns]
        · rw [hentry] at hnone
          cases hnone
      · exact .inr (by simp [Option.filter, hruns])
  running key := (running_prune s.tracker s.nowMs key).trans (h.running key)

theorem markUnavailable (phase agent : String) (reason : Option UnavailabilityReason) :
    Pruned (s.step (.markUnavailable phase agent reason)) (base.step (.markUnavailable phase agent reason)) := by
  obtain ⟨hnow, hpolicy, hattempts, -, hrunning⟩ := h
  -- the prunes that the call makes itself leave the same entries
  have hkept : ∀ key, (s.tracker.pruneExpired s.nowMs).unavailableUntilMs.get? key =
      (base.tracker.pruneExpired base.nowMs).unavailableUntilMs.get? key := by
    intro key
    rw [AgentUnavailabilityTracker.get?_pruneExpired, AgentUnavailabilityTracker.get?_pruneExpired]
    exact hrunning key
  have hset : ∀ key, (s.step (.markUnavailable phase agent reason)).tracker.unavailableUntilMs.get? key =
      (base.step (.markUnavailable phase agent reason)).tracker.unavailableUntilMs.get? key := by
    intro key
    simp only [step, AgentUnavailabilityTracker.markUnavailable, Dict.get?_set, hkept]
    simp only [AgentUnavailabilityTracker.pruneExpired, hpolicy, hattempts, hnow]
  refine ⟨hnow, hpolicy, ?_, fun key => .inl (hset key), fun key => ?_⟩
  · simp only [step, AgentUnavailabilityTracker.markUnavailable, AgentUnavailabilityTracker.pruneExpired, hattempts]
  · have hnow' : (s.step (.markUnavailable phase agent reason)).nowMs = (base.step (.markUnavailable phase agent reason)).nowMs := hnow
    simp only [AgentUnavailabilityTracker.running, hset, hnow']

theorem resetBackoff (phase agent : String) : Pruned (s.step (.resetBackoff phase agent)) (base.step (.resetBackoff phase agent)) where
  nowMs := h.nowMs
  policy := h.policy
  attempts := by simp only [step, AgentUnavailabilityTracker.resetBackoff, h.attempts]
  entries key := by
    simp only [step, AgentUnavailabilityTracker.resetBackoff, Dict.get?_erase]
    by_cases hkey : key = agentKey phase agent
    · simp [hkey]
    · simp only [hkey, if_false]
      exact h.entries key
  running key := by
    have hrunning := h.running key
    simp only [AgentUnavailabilityTracker.running, step, AgentUnavailabilityTracker.resetBackoff, Dict.get?_erase] at hrunning ⊢
    by_cases hkey : key = agentKey phase agent
    · simp [hkey]
    · simp only [hkey, if_false]
      exact hrunning

theorem wait (ms : Nat) : Pruned (s.step (.wait ms)) (base.step (.wait ms)) where
  nowMs := by simp only [step, h.nowMs]
  policy := h.policy
  attempts := h.attempts
  entries := h.entries
  running key := by
    show s.tracker.running (s.nowMs + ms) key = base.tracker.running (base.nowMs + ms) key
    rw [running_later s.tracker (show s.nowMs ≤ s.nowMs + ms by omega), running_later base.tracker (show base.nowMs ≤ base.nowMs + ms by omega),
      h.running key, h.nowMs]

theorem run (calls : List CooldownCall) : Pruned (s.run calls) (base.run (withoutPrunes calls)) := by
  induction calls generalizing s base with
  | nil => exact h
  | cons call calls ih =>
    cases call with
    | pruneExpired => exact ih h.prune
    | markUnavailable phase agent reason => exact ih (h.markUnavailable phase agent reason)
    | resetBackoff phase agent => exact ih (h.resetBackoff phase agent)
    | wait ms => exact ih (h.wait ms)

theorem isAvailable (phase agent : String) : s.isAvailable phase agent = base.isAvailable phase agent := by
  rw [Bool.eq_iff_iff]
  simp only [CooldownSession.isAvailable, AgentUnavailabilityTracker.isAvailable_iff, h.running]

theorem entry_of_running {key : String} (hruns : base.tracker.running base.nowMs key ≠ none) :
    s.tracker.unavailableUntilMs.get? key = base.tracker.unavailableUntilMs.get? key := by
  rcases h.entries key with hsame | hnone
  · exact hsame
  · refine absurd ?_ hruns
    rw [← h.running key, AgentUnavailabilityTracker.running, hnone]
    rfl

end

end Pruned

/-! ## What is to be seen of a prune -/

section Unobservable

variable (s : CooldownSession) (calls : List CooldownCall) (phase : String) (agents : List String)

/-- Prunes make no difference, and a wait of 0 says that some agent is available. -/
structure PrunesUnobservable : Prop where
  available : ∀ other, withoutPrunes other = withoutPrunes calls → ∀ phase agent,
    (s.run other).isAvailable phase agent = (s.run calls).isAvailable phase agent
  wait : ∀ other, withoutPrunes other = withoutPrunes calls →
    (s.run other).earliestUnavailableWaitMs phase agents = (s.run calls).earliestUnavailableWaitMs phase agents
  zero : (s.run calls).earliestUnavailableWaitMs phase agents = 0 ↔ ∃ agent ∈ agents, (s.run calls).isAvailable phase agent = true

/-- Every agent has an entry, one run out and one not. -/
def Mixed : Prop :=
  (∀ agent ∈ agents, (s.run (withoutPrunes calls)).tracker.unavailableUntilMs.get? (agentKey phase agent) ≠ none) ∧
    (∃ agent ∈ agents, (s.run (withoutPrunes calls)).isAvailable phase agent = true) ∧
    ∃ agent ∈ agents, (s.run (withoutPrunes calls)).isAvailable phase agent = false

variable {s calls phase agents}

theorem withoutPrunes_idem (calls : List CooldownCall) : withoutPrunes (withoutPrunes calls) = withoutPrunes calls := by
  simp [withoutPrunes, filter_filter]

theorem isAvailable_of_sameCalls {other : List CooldownCall} (hsame : withoutPrunes other = withoutPrunes calls) (phase agent : String) :
    (s.run other).isAvailable phase agent = (s.run calls).isAvailable phase agent := by
  rw [((Pruned.refl s).run other).isAvailable, ((Pruned.refl s).run calls).isAvailable, hsame]

theorem running_ne_none_iff (t : CooldownSession) (agent : String) :
    t.tracker.running t.nowMs (agentKey phase agent) ≠ none ↔ t.isAvailable phase agent = false := by
  rw [ne_eq, ← AgentUnavailabilityTracker.isAvailable_iff, Bool.not_eq_true]
  rfl

theorem wait_of_not_mixed (hagents : agents ≠ []) (hmixed : ¬ Mixed s calls phase agents) {other : List CooldownCall}
    (hsame : withoutPrunes other = withoutPrunes calls) :
    (s.run other).earliestUnavailableWaitMs phase agents = (s.run (withoutPrunes calls)).earliestUnavailableWaitMs phase agents ∧
      ((s.run other).earliestUnavailableWaitMs phase agents = 0 ↔ ∃ agent ∈ agents, (s.run other).isAvailable phase agent = true) := by
  have hpruned : Pruned (s.run other) (s.run (withoutPrunes calls)) := hsame ▸ (Pruned.refl s).run other
  simp only [hpruned.isAvailable]
  by_cases hentries : ∀ agent ∈ agents, (s.run (withoutPrunes calls)).tracker.unavailableUntilMs.get? (agentKey phase agent) ≠ none
  · by_cases hready : ∃ agent ∈ agents, (s.run (withoutPrunes calls)).isAvailable phase agent = true
    · -- all of them are ready
      have hall : ∀ agent ∈ agents, (s.run (withoutPrunes calls)).isAvailable phase agent = true := by
        intro agent hagent
        by_contra hbusy
        exact hmixed ⟨hentries, hready, agent, hagent, by simpa using hbusy⟩
      have hnone : ∀ agent ∈ agents, (s.run (withoutPrunes calls)).tracker.running (s.run (withoutPrunes calls)).nowMs (agentKey phase agent) = none :=
        fun agent hagent => (AgentUnavailabilityTracker.isAvailable_iff _ _ _ _).1 (hall agent hagent)
      have hbase : (s.run (withoutPrunes calls)).earliestUnavailableWaitMs phase agents = 0 :=
        (AgentUnavailabilityTracker.earliest_eq_zero_iff _ none (by simp) hentries).2 ⟨rfl, hnone⟩
      have hother : (s.run other).earliestUnavailableWaitMs phase agents = 0 := by
        by_cases hkept : ∀ agent ∈ agents, (s.run other).tracker.unavailableUntilMs.get? (agentKey phase agent) ≠ none
        · refine (AgentUnavailabilityTracker.earliest_eq_zero_iff _ none (by simp) hkept).2 ⟨rfl, fun agent hagent => ?_⟩
          rw [hpruned.running]
          exact hnone agent hagent
        · push Not at hkept
          exact AgentUnavailabilityTracker.earliest_of_missing _ none hkept
      exact ⟨hother.trans hbase.symm, iff_of_true hother hready⟩
    · -- none of them is
      have hruns : ∀ agent ∈ agents, (s.run (withoutPrunes calls)).tracker.running (s.run (withoutPrunes calls)).nowMs (agentKey phase agent) ≠ none := by
        intro agent hagent
        rw [running_ne_none_iff]
        by_contra hbusy
        exact hready ⟨agent, hagent, by simpa using hbusy⟩
      have hequal : (s.run other).earliestUnavailableWaitMs phase agents = (s.run (withoutPrunes calls)).earliestUnavailableWaitMs phase agents := by
        unfold CooldownSession.earliestUnavailableWaitMs
        rw [hpruned.nowMs]
        exact AgentUnavailabilityTracker.earliest_congr _ (fun agent hagent => hpruned.entry_of_running (hruns agent hagent)) none
      refine ⟨hequal, iff_of_false ?_ hready⟩
      rw [hequal]
      intro hzero
      obtain ⟨agent, hagent⟩ := exists_mem_of_ne_nil agents hagents
      exact hruns agent hagent (((AgentUnavailabilityTracker.earliest_eq_zero_iff _ none (by simp) hentries).1 hzero).2 agent hagent)
  · push Not at hentries
    obtain ⟨agent, hagent, hmissing⟩ := hentries
    have hother : (s.run other).tracker.unavailableUntilMs.get? (agentKey phase agent) = none := by
      rcases hpruned.entries (agentKey phase agent) with hsame | hnone
      · rw [hsame, hmissing]
      · exact hnone
    have hready : (s.run (withoutPrunes calls)).isAvailable phase agent = true := by
      simp [CooldownSession.isAvailable, AgentUnavailabilityTracker.isAvailable, hmissing]
    have hzero : (s.run other).earliestUnavailableWaitMs phase agents = 0 :=
      AgentUnavailabilityTracker.earliest_of_missing _ none ⟨agent, hagent, hother⟩
    have hbase : (s.run (withoutPrunes calls)).earliestUnavailableWaitMs phase agents = 0 :=
      AgentUnavailabilityTracker.earliest_of_missing _ none ⟨agent, hagent, hmissing⟩
    exact ⟨hzero.trans hbase.symm, iff_of_true hzero ⟨agent, hagent, hready⟩⟩

theorem wait_after_prune (hready : ∃ agent ∈ agents, (s.run calls).isAvailable phase agent = true) :
    (s.run (calls ++ [.pruneExpired])).earliestUnavailableWaitMs phase agents = 0 := by
  obtain ⟨agent, hagent, havailable⟩ := hready
  refine AgentUnavailabilityTracker.earliest_of_missing _ none ⟨agent, hagent, ?_⟩
  have hlast : s.run (calls ++ [.pruneExpired]) = (s.run calls).step .pruneExpired := by simp [CooldownSession.run]
  rw [hlast]
  exact ((s.run calls).tracker.get?_pruneExpired (s.run calls).nowMs (agentKey phase agent)).trans
    ((AgentUnavailabilityTracker.isAvailable_iff _ _ _ _).1 havailable)

/-- Prunes are unobservable exactly when the agents are not mixed. -/
theorem prunesUnobservable_iff (s : CooldownSession) (calls : List CooldownCall) (phase : String) (agents : List String) (hagents : agents ≠ []) :
    PrunesUnobservable s calls phase agents ↔ ¬ Mixed s calls phase agents := by
  constructor
  · rintro ⟨-, hwait, -⟩ ⟨hentries, hready, busy, hbusy, hunavailable⟩
    have hbase := hwait (withoutPrunes calls) (withoutPrunes_idem calls)
    have hpruned := hwait (withoutPrunes calls ++ [.pruneExpired]) (by simp [withoutPrunes, filter_filter])
    rw [← hbase, wait_after_prune hready] at hpruned
    have hall := ((AgentUnavailabilityTracker.earliest_eq_zero_iff _ none (by simp) hentries).1 hpruned.symm).2
    exact (running_ne_none_iff _ busy).2 hunavailable (hall busy hbusy)
  · intro hmixed
    refine ⟨fun other hsame phase agent => isAvailable_of_sameCalls hsame phase agent, fun other hsame => ?_, ?_⟩
    · rw [(wait_of_not_mixed hagents hmixed hsame).1, (wait_of_not_mixed hagents hmixed rfl).1]
    · exact (wait_of_not_mixed hagents hmixed rfl).2

/-- One agent is never of both kinds. -/
theorem prunesUnobservable_single : PrunesUnobservable {} [.markUnavailable "development" "claude" none, .wait 1000] "development" ["claude"] := by
  refine (prunesUnobservable_iff _ _ _ _ (by decide)).2 ?_
  rintro ⟨-, ⟨ready, hready, havailable⟩, busy, hbusy, hunavailable⟩
  rw [mem_singleton.1 hready] at havailable
  rw [mem_singleton.1 hbusy, havailable] at hunavailable
  cases hunavailable

def cooling : List CooldownCall :=
  [.markUnavailable "development" "claude" none, .markUnavailable "development" "codex" (some .outOfCredits), .wait 5000]

/-- The wait is for the second agent, though the first is available. -/
theorem expired_entry_waits : ¬ PrunesUnobservable {} cooling "development" ["claude", "codex"] := by
  intro h
  have hready : (({} : CooldownSession).run cooling).isAvailable "development" "claude" = true := by decide +kernel
  have hwaits : (({} : CooldownSession).run cooling).earliestUnavailableWaitMs "development" ["claude", "codex"] = 55000 := by decide +kernel
  have hzero := h.zero.2 ⟨"claude", by decide, hready⟩
  rw [hwaits] at hzero
  cases hzero

end Unobservable

end RalphWorkflow.Recovery
