import RalphWorkflow.Recovery.Controller
import Mathlib.Data.Int.ConditionallyCompleteOrder

/-! Asking for availability moves the clock on and changes nothing else, and the selected agent is one of the chain. Under
a clock that does not run backwards it is the first agent that is off cooldown and has allowance left. -/
namespace RalphWorkflow.Controller
open Lib Policy Recovery Pipeline

/-! ## Clock readings -/

def Reads (rc rc' : RecoveryController) : Prop := ∃ n, rc' = { rc with reads := rc.reads + n }

theorem Reads.refl (rc : RecoveryController) : Reads rc rc := ⟨0, rfl⟩

theorem Reads.trans {rc₁ rc₂ rc₃ : RecoveryController} (h : Reads rc₁ rc₂) (h' : Reads rc₂ rc₃) : Reads rc₁ rc₃ := by
  obtain ⟨m, rfl⟩ := h
  obtain ⟨n, rfl⟩ := h'
  exact ⟨m + n, by rw [Nat.add_assoc]⟩

theorem readClock_reads (rc : RecoveryController) : Reads rc rc.readClock.2 := ⟨1, rfl⟩

variable (rc : RecoveryController) (phase : String)

theorem isAgentAvailable_reads (agent : String) : Reads rc (rc.isAgentAvailable phase agent).2 := by
  unfold RecoveryController.isAgentAvailable
  split
  · exact Reads.refl rc
  · exact readClock_reads rc

theorem anyAgentAvailable_reads (agents : List String) : Reads rc (rc.anyAgentAvailable phase agents).2 := by
  induction agents generalizing rc with
  | nil => exact Reads.refl rc
  | cons agent rest ih =>
    have hread := isAgentAvailable_reads rc phase agent
    unfold RecoveryController.anyAgentAvailable
    dsimp only
    split
    · exact hread
    · exact hread.trans (ih _)

theorem agentsNowAvailable_reads (agents : List String) : Reads rc (rc.agentsNowAvailable phase agents).2 := by
  induction agents generalizing rc with
  | nil => exact Reads.refl rc
  | cons agent rest ih => exact (isAgentAvailable_reads rc phase agent).trans (ih _)

theorem earliestAvailableWaitMs_reads (agents : List String) : Reads rc (rc.earliestAvailableWaitMs phase agents).2 := by
  have hany := anyAgentAvailable_reads rc phase agents
  unfold RecoveryController.earliestAvailableWaitMs
  dsimp only
  split
  · exact hany
  · exact hany.trans (readClock_reads _)

theorem preferredAgentFrom_reads (nowMs : Int) (current : Option Nat) (spent : Bool) (agents : List String)
    (index : Nat) : Reads rc (rc.preferredAgentFrom phase nowMs current spent agents index).2 := by
  induction agents generalizing rc index with
  | nil => exact Reads.refl rc
  | cons agent rest ih => exact (isAgentAvailable_reads rc phase agent).trans (ih _ _)

theorem preferredAgentIndex_reads (agents : List String) (current : Option Nat) (spent : Bool) :
    Reads rc (rc.preferredAgentIndex phase agents current spent).2 :=
  (readClock_reads rc).trans (preferredAgentFrom_reads _ _ _ _ _ _ _)

/-! ## The selected agent -/

def cooldownMs (nowMs : Int) (agent : String) : Int :=
  match rc.tracker.unavailableUntilMs.get? (agentKey phase agent) with
  | some untilMs => max 0 (untilMs - nowMs)
  | none => 0

def selectable (nowMs : Int) (current : Option Nat) (spent : Bool) (agent : String) (index : Nat) : Bool :=
  (rc.isAgentAvailable phase agent).1 && decide (cooldownMs rc phase nowMs agent ≤ 0) &&
    !(decide (agent ∈ (rc.isAgentAvailable phase agent).2.spentAgents.getD phase []) ||
      (some index == current && spent))

theorem preferredAgentFrom_cons (nowMs : Int) (current : Option Nat) (spent : Bool) (agent : String) (rest : List String) (index : Nat) :
    (rc.preferredAgentFrom phase nowMs current spent (agent :: rest) index).1 =
      if selectable rc phase nowMs current spent agent index then some index
      else ((rc.isAgentAvailable phase agent).2.preferredAgentFrom phase nowMs current spent rest (index + 1)).1 := rfl

variable {nowMs : Int} {current : Option Nat} {spent : Bool} {agents : List String} {index selected : Nat} {agent : String}

theorem preferredAgentFrom_bounds (h : (rc.preferredAgentFrom phase nowMs current spent agents index).1 = some selected) :
    index ≤ selected ∧ selected < index + agents.length := by
  induction agents generalizing rc index with
  | nil => cases h
  | cons agent rest ih =>
    rw [preferredAgentFrom_cons] at h
    simp only [List.length_cons]
    split at h
    · cases h
      omega
    · have hlater := ih _ h
      omega

theorem preferredAgentIndex_lt (h : (rc.preferredAgentIndex phase agents current spent).1 = some selected) : selected < agents.length := by
  have hbounds := preferredAgentFrom_bounds _ phase h
  omega

/-! ## The first eligible agent -/

def offCooldown (nowMs : Int) (agent : String) : Bool :=
  match rc.tracker.unavailableUntilMs.get? (agentKey phase agent) with
  | some untilMs => decide (untilMs ≤ nowMs)
  | none => true

def eligible (nowMs : Int) (current : Option Nat) (spent : Bool) (agent : String) (index : Nat) : Bool :=
  offCooldown rc phase nowMs agent &&
    !(decide (agent ∈ rc.spentAgents.getD phase []) || (some index == current && spent))

theorem isAgentAvailable_eq (agent : String) : (rc.isAgentAvailable phase agent).1 = offCooldown rc phase (rc.clock rc.reads) agent := by
  unfold RecoveryController.isAgentAvailable offCooldown
  split <;> rename_i hentry <;> rw [hentry]
  rfl

variable {rc phase}

theorem offCooldown_eq_false_iff : offCooldown rc phase nowMs agent = false ↔
    ∃ untilMs, rc.tracker.unavailableUntilMs.get? (agentKey phase agent) = some untilMs ∧ nowMs < untilMs := by
  unfold offCooldown
  cases rc.tracker.unavailableUntilMs.get? (agentKey phase agent) with
  | none => simp
  | some untilMs => simp

theorem offCooldown_earlier {earlierMs : Int} (hle : earlierMs ≤ nowMs)
    (h : offCooldown rc phase nowMs agent = false) : offCooldown rc phase earlierMs agent = false := by
  obtain ⟨untilMs, hentry, hlt⟩ := offCooldown_eq_false_iff.mp h
  exact offCooldown_eq_false_iff.mpr ⟨untilMs, hentry, lt_of_le_of_lt hle hlt⟩

theorem offCooldown_congr {rc' : RecoveryController} (h : rc'.tracker = rc.tracker) :
    offCooldown rc' phase nowMs agent = offCooldown rc phase nowMs agent := by
  unfold offCooldown
  rw [h]

theorem Reads.eligible_eq {rc' : RecoveryController} (h : Reads rc rc') : eligible rc' phase = eligible rc phase := by
  obtain ⟨n, rfl⟩ := h
  rfl

theorem selectable_eq (hclock : nowMs ≤ rc.clock rc.reads) (current : Option Nat) (spent : Bool) (agent : String) (index : Nat) :
    selectable rc phase nowMs current spent agent index = eligible rc phase nowMs current spent agent index := by
  have hspent : (rc.isAgentAvailable phase agent).2.spentAgents = rc.spentAgents := by
    obtain ⟨n, hn⟩ := isAgentAvailable_reads rc phase agent
    rw [hn]
  unfold selectable eligible
  rw [hspent, isAgentAvailable_eq]
  congr 1
  unfold offCooldown cooldownMs
  cases rc.tracker.unavailableUntilMs.get? (agentKey phase agent) with
  | none => rfl
  | some untilMs =>
    dsimp only
    by_cases huntil : untilMs ≤ nowMs
    · have hlater : untilMs ≤ rc.clock rc.reads := le_trans huntil hclock
      simp [huntil, hlater]
    · simp [huntil]

theorem preferredAgentFrom_eq_some_iff (hclock : ∀ n, rc.reads ≤ n → nowMs ≤ rc.clock n) :
    (rc.preferredAgentFrom phase nowMs current spent agents index).1 = some selected ↔
      ∃ k agent, selected = index + k ∧ agents[k]? = some agent ∧ eligible rc phase nowMs current spent agent selected = true ∧
        ∀ j other, j < k → agents[j]? = some other → eligible rc phase nowMs current spent other (index + j) = false := by
  induction agents generalizing rc index with
  | nil =>
    constructor
    · intro h
      cases h
    · rintro ⟨k, agent, _, hget, _⟩
      cases hget
  | cons first rest ih =>
    rw [preferredAgentFrom_cons, selectable_eq (hclock _ (le_refl _))]
    have hreads := isAgentAvailable_reads rc phase first
    have hclock' : ∀ n, (rc.isAgentAvailable phase first).2.reads ≤ n → nowMs ≤ (rc.isAgentAvailable phase first).2.clock n := by
      obtain ⟨m, hm⟩ := hreads
      rw [hm]
      intro n hn
      exact hclock n (le_trans (Nat.le_add_right _ _) hn)
    split
    · rename_i heligible
      constructor
      · intro h
        cases h
        exact ⟨0, first, rfl, rfl, heligible, fun j other hj => absurd hj (Nat.not_lt_zero j)⟩
      · rintro ⟨k, agent, rfl, hget, _, hbefore⟩
        cases k with
        | zero => rfl
        | succ k =>
          have hfirst := hbefore 0 first (Nat.succ_pos k) rfl
          rw [Nat.add_zero, heligible] at hfirst
          cases hfirst
    · rename_i hineligible
      rw [ih hclock', hreads.eligible_eq]
      constructor
      · rintro ⟨k, agent, rfl, hget, heligible, hbefore⟩
        refine ⟨k + 1, agent, by omega, hget, heligible, ?_⟩
        intro j other hj hother
        cases j with
        | zero =>
          cases hother
          simpa using hineligible
        | succ j =>
          have hlater := hbefore j other (Nat.lt_of_succ_lt_succ hj) hother
          rwa [show index + (j + 1) = index + 1 + j by omega]
      · rintro ⟨k, agent, rfl, hget, heligible, hbefore⟩
        cases k with
        | zero =>
          cases hget
          exact absurd heligible hineligible
        | succ k =>
          refine ⟨k, agent, by omega, hget, heligible, ?_⟩
          intro j other hj hother
          have hlater := hbefore (j + 1) other (Nat.succ_lt_succ hj) hother
          rwa [show index + 1 + j = index + (j + 1) by omega]

theorem preferredAgentIndex_eq_some_iff (hclock : Monotone rc.clock) :
    (rc.preferredAgentIndex phase agents current spent).1 = some selected ↔ ∃ agent, agents[selected]? = some agent ∧
        eligible rc phase (rc.clock rc.reads) current spent agent selected = true ∧
        ∀ j other, j < selected → agents[j]? = some other →
          eligible rc phase (rc.clock rc.reads) current spent other j = false := by
  have hread : eligible rc.readClock.2 phase = eligible rc phase := (readClock_reads rc).eligible_eq
  have hfrom := @preferredAgentFrom_eq_some_iff rc.readClock.2 phase _ current spent agents 0 selected
    (fun n hn => hclock (le_trans (Nat.le_succ _) hn))
  rw [hread] at hfrom
  refine Iff.trans hfrom ?_
  constructor
  · rintro ⟨k, agent, rfl, hget, heligible, hbefore⟩
    simp only [Nat.zero_add] at hget heligible hbefore ⊢
    exact ⟨agent, hget, heligible, hbefore⟩
  · rintro ⟨agent, hget, heligible, hbefore⟩
    refine ⟨selected, agent, (Nat.zero_add _).symm, hget, heligible, ?_⟩
    intro j other hj hother
    rw [Nat.zero_add]
    exact hbefore j other hj hother

theorem preferredAgentIndex_eq_none_iff (hclock : Monotone rc.clock) : (rc.preferredAgentIndex phase agents current spent).1 = none ↔
      ∀ j agent, agents[j]? = some agent → eligible rc phase (rc.clock rc.reads) current spent agent j = false := by
  constructor
  · intro hnone j
    induction j using Nat.strong_induction_on with
    | _ j ih =>
      intro agent hget
      by_contra heligible
      have hselected := (preferredAgentIndex_eq_some_iff hclock).mpr
        ⟨agent, hget, by simpa using heligible, fun i other hi hother => ih i hi other hother⟩
      rw [hnone] at hselected
      cases hselected
  · intro hall
    cases hselected : (rc.preferredAgentIndex phase agents current spent).1 with
    | none => rfl
    | some selected =>
      obtain ⟨agent, hget, heligible, _⟩ := (preferredAgentIndex_eq_some_iff hclock).mp hselected
      rw [hall selected agent hget] at heligible
      cases heligible

/-! ## The preferred agent -/

def ready (rc : RecoveryController) (phase : String) (nowMs : Int) (agent : String) : Bool :=
  offCooldown rc phase nowMs agent && decide (agent ∉ rc.spentAgents.getD phase [])

def Preferred (rc : RecoveryController) (phase : String) (nowMs : Int) (agents : List String) (index : Nat) : Prop :=
  ∃ agent, agents[index]? = some agent ∧ ready rc phase nowMs agent = true ∧
    ∀ j other, j < index → agents[j]? = some other → ready rc phase nowMs other = false

theorem eligible_anew (nowMs : Int) (agent : String) (index : Nat) :
    eligible rc phase nowMs none false agent index = ready rc phase nowMs agent := by
  unfold eligible ready
  simp

theorem preferredAgentIndex_anew (hclock : Monotone rc.clock) (index : Nat) :
    (rc.preferredAgentIndex phase agents none false).1 = some index ↔ Preferred rc phase (rc.clock rc.reads) agents index := by
  rw [preferredAgentIndex_eq_some_iff hclock]
  simp only [eligible_anew]
  rfl

theorem preferredAgentIndex_anew_none (hclock : Monotone rc.clock) : (rc.preferredAgentIndex phase agents none false).1 = none ↔
      ∀ agent ∈ agents, ready rc phase (rc.clock rc.reads) agent = false := by
  rw [preferredAgentIndex_eq_none_iff hclock]
  simp only [eligible_anew]
  constructor
  · intro hall agent hmem
    obtain ⟨j, hget⟩ := List.getElem?_of_mem hmem
    exact hall j agent hget
  · intro hall j agent hget
    exact hall agent (List.mem_of_getElem? hget)

theorem Reads.ready_eq {rc' : RecoveryController} (h : Reads rc rc') : ready rc' phase = ready rc phase := by
  obtain ⟨n, rfl⟩ := h
  rfl

def PreferredBut (rc : RecoveryController) (phase : String) (nowMs : Int) (agents : List String) (barred : Option Nat) (index : Nat) : Prop :=
  ∃ agent, agents[index]? = some agent ∧ some index ≠ barred ∧ ready rc phase nowMs agent = true ∧
    ∀ j other, j < index → some j ≠ barred → agents[j]? = some other → ready rc phase nowMs other = false

theorem eligible_iff {current : Nat} : eligible rc phase nowMs (some current) spent agent index = true ↔
      ready rc phase nowMs agent = true ∧ some index ≠ if spent then some current else none := by
  unfold eligible ready
  cases spent with
  | false => simp
  | true => simp [and_assoc]

theorem selected_preferredBut {current : Nat} (hclock : Monotone rc.clock)
    (h : (rc.preferredAgentIndex phase agents (some current) spent).1 = some selected) :
    PreferredBut rc phase (rc.clock rc.reads) agents (if spent then some current else none) selected := by
  obtain ⟨agent, hget, heligible, hbefore⟩ := (preferredAgentIndex_eq_some_iff hclock).mp h
  obtain ⟨hready, hunbarred⟩ := eligible_iff.mp heligible
  refine ⟨agent, hget, hunbarred, hready, ?_⟩
  intro j other hj hfree hother
  have hineligible := hbefore j other hj hother
  by_contra hisReady
  have heligible := eligible_iff.mpr ⟨by simpa using hisReady, hfree⟩
  rw [hineligible] at heligible
  cases heligible

theorem PreferredBut.unbarred {current : Nat} (hnoted : ∀ agent, agents[current]? = some agent → ready rc phase nowMs agent = false)
    (h : PreferredBut rc phase nowMs agents (some current) index) : PreferredBut rc phase nowMs agents none index := by
  obtain ⟨agent, hget, _, hready, hbefore⟩ := h
  refine ⟨agent, hget, Option.some_ne_none _, hready, ?_⟩
  intro j other hj _ hother
  by_cases hcurrent : j = current
  · rw [hcurrent] at hother
    exact hnoted other hother
  · exact hbefore j other hj (fun hsame => hcurrent (Option.some.inj hsame)) hother

theorem noteRetryExhaustion_mem (rc : RecoveryController) (phase agent : String) :
    agent ∈ (rc.noteRetryExhaustion phase agent).spentAgents.getD phase [] := by
  unfold RecoveryController.noteRetryExhaustion
  dsimp only
  rw [Dict.getD_set, if_pos rfl]
  split
  · assumption
  · exact List.mem_append_right _ (List.mem_singleton_self agent)

theorem ready_of_spent (h : agent ∈ rc.spentAgents.getD phase []) : ready rc phase nowMs agent = false := by
  unfold ready
  simp [h]

end RalphWorkflow.Controller
