import RalphWorkflow.Lib.Run
import RalphWorkflow.Policy.Default
import RalphWorkflow.Proof.AgentChains
import RalphWorkflow.Proof.Controller.Returns
import RalphWorkflow.Proof.WaysOut

/-! Every failure of a phase charges the agent whose turn it is or moves on to another one. With an agent off cooldown, a
number of failures that depends on the length of the chain and on the budgets is enough to give the phase up. -/
namespace RalphWorkflow.SamePhaseRecovery
open Lib Lib.Descent Policy Recovery Controller List Option RecoveryController
open Movement WaysOut AgentChains Pipeline

/-! ## Failures of one phase -/

structure Fault where
  raw : RawFailure
  retryInSession : Bool := false
  classified : Option ClassifiedFailure := none

def contextOf (s : PipelineState) (fault : Fault) : FailureContext where
  phase := s.phase
  agent := s.currentAgent
  retryInSession := fault.retryInSession
  classifiedFailure := fault.classified

def failureOf (b : Bench) (fault : Fault) : ClassifiedFailure :=
  classified b.controller b.state fault.raw (contextOf b.state fault)

def courseOf (b : Bench) (fault : Fault) : Course :=
  course b.controller b.state fault.raw (contextOf b.state fault)

def struck (b : Bench) (fault : Fault) : Bench := perform b (.fails fault.raw (contextOf b.state fault))

def afterFaults (b : Bench) (faults : Nat → Fault) : Nat → Bench
  | 0 => b
  | n + 1 => struck (afterFaults b faults n) (faults n)

/-- The failure leaves agents available, and an exit at the cap may be given. -/
structure Ordinary (b : Bench) (fault : Fault) : Prop where
  available : (failureOf b fault).isUnavailable = false
  charges : (failureOf b fault).category = .agent → (failureOf b fault).countsAgainstBudget = true ∨
    ∀ name, b.state.currentAgent = some name → b.controller.registry.get? (b.state.phase, name) = none
  speakable : Speakable b.controller (failureOf b fault) b.state.recoveryCycleCount

/-! ## What a failure charges -/

section

variable {rc rc₁ : RecoveryController} {s : PipelineState} {raw : RawFailure} {context : FailureContext}
  {maxRetries : Nat} {useBudget : Bool}

structure SameBench (rc rc' : RecoveryController) : Prop where
  bundle : rc'.policyBundle = rc.policyBundle
  cap : rc'.cap = rc.cap
  technical : rc'.technicalRetryCap = rc.technicalRetryCap
  clock : rc'.clock = rc.clock
  reads : rc'.reads = rc.reads
  tracker : rc'.tracker = rc.tracker
  spent : rc'.spentAgents = rc.spentAgents

def chargedRegistry (rc : RecoveryController) (failure : ClassifiedFailure) (context : FailureContext) : Dict (String × String) BudgetState :=
  match context.agent with
  | some agent => debitBudget rc.registry context.phase agent failure
  | none => rc.registry

variable (rc context) in
theorem chargeAgent_steady {failure : ClassifiedFailure} (hstays : failure.isUnavailable = false) : SameBench rc (rc.chargeAgent failure context) ∧
      (rc.chargeAgent failure context).registry = chargedRegistry rc failure context := by
  unfold chargeAgent chargedRegistry
  cases context.agent with
  | none => exact ⟨⟨rfl, rfl, rfl, rfl, rfl, rfl, rfl⟩, rfl⟩
  | some agent =>
    dsimp only
    rw [if_neg (by simp [hstays])]
    unfold debitAgent
    dsimp only
    split <;> exact ⟨⟨rfl, rfl, rfl, rfl, rfl, rfl, rfl⟩, rfl⟩

theorem progression_steady (hstays : (classified rc s raw context).isUnavailable = false)
    (h : progression rc s raw context = some (rc₁, maxRetries, useBudget)) :
    SameBench rc rc₁ ∧
      (rc₁.registry = rc.registry ∧ maxRetries = rc.technicalRetryCap ∧ useBudget = false ∨
        (classified rc s raw context).category = .agent ∧
        rc₁.registry = chargedRegistry rc (classified rc s raw context) context ∧
        maxRetries = rc.getMaxRetriesForChain context.phase ∧ useBudget = true) := by
  obtain ⟨broken, shape, hrc₁⟩ := progression_charged h
  unfold charged at hrc₁
  unfold progression at h
  dsimp only at h
  split at h
  · rename_i htechnical
    cases h
    exact ⟨⟨rfl, rfl, rfl, rfl, rfl, rfl, rfl⟩, .inl ⟨rfl, rfl, rfl⟩⟩
  · rename_i htechnical
    rw [if_neg htechnical] at hrc₁
    split at h
    · cases h
    · rename_i hconfig
      obtain ⟨hsame, hregistry⟩ := chargeAgent_steady rc context hstays
      have hagent : (classified rc s raw context).category = .agent := by
        cases hcategory : (classified rc s raw context).category with
        | agent => rfl
        | userConfig => exact absurd hcategory hconfig
        | environmental | artifactValidation | ambiguous =>
          rw [hcategory] at htechnical
          exact absurd rfl htechnical
      split at h
      · cases h
      · rename_i rc₂ hbound
        obtain ⟨rfl, rfl, rfl⟩ : rc₁ = rc₂ ∧ maxRetries = rc₂.getMaxRetriesForChain context.phase ∧ useBudget = true := by
          cases h
          exact ⟨rfl, rfl, rfl⟩
        rw [hrc₁]
        refine ⟨⟨hsame.bundle, hsame.cap, hsame.technical, hsame.clock, hsame.reads, hsame.tracker, hsame.spent⟩,
          .inr ⟨hagent, hregistry, ?_, rfl⟩⟩
        unfold getMaxRetriesForChain chainConfigForPhase
        dsimp only
        rw [hsame.bundle]

end

/-! ## The attempts that are left -/

def consumedIn (registry : Dict (String × String) BudgetState) (phase agent : String) : Nat :=
  ((registry.get? (phase, agent)).map BudgetState.consumed).getD 0

/-- Attempts that the current agent may still get: retries below the limit and budget below the ceiling. -/
def attemptsLeft (limit ceiling : Nat) (registry : Dict (String × String) BudgetState) (phase : String) (chain : AgentChainState) : Nat :=
  (limit - chain.retries) +
    (ceiling - match chain.currentAgent with
      | some agent => consumedIn registry phase agent
      | none => 0)

theorem attemptsLeft_le (limit ceiling : Nat) (registry : Dict (String × String) BudgetState) (phase : String)
    (chain : AgentChainState) : attemptsLeft limit ceiling registry phase chain ≤ limit + ceiling :=
  Nat.add_le_add (Nat.sub_le _ _) (Nat.sub_le _ _)

/-- The turns that an agent may still get: one while it is not spent, one when it comes off cooldown. -/
def turnsOf (rc : RecoveryController) (phase : String) (agent : String) : Nat :=
  (if agent ∈ rc.spentAgents.getD phase [] then 0 else 1) +
    (if offCooldown rc phase (rc.clock rc.reads) agent then 0 else 1)

def behind (rc : RecoveryController) (phase : String) (chain : AgentChainState) : Nat :=
  if chain.agents.findIdx? (ready rc phase (rc.clock rc.reads)) = some chain.currentIndex then 0 else 1

def rank (limit ceiling : Nat) (rc : RecoveryController) (phase : String) (chain : AgentChainState) : Nat :=
  (2 * (chain.agents.map (turnsOf rc phase)).sum + behind rc phase chain) * (limit + ceiling + 1) +
    attemptsLeft limit ceiling rc.registry phase chain

theorem turns_le (rc : RecoveryController) (phase : String) (agents : List String) : (agents.map (turnsOf rc phase)).sum ≤ 2 * agents.length := by
  induction agents with
  | nil => exact le_refl _
  | cons agent rest ih =>
    have hturns : turnsOf rc phase agent ≤ 2 := by
      unfold turnsOf
      split <;> split <;> omega
    simp only [map_cons, sum_cons, length_cons]
    omega

theorem behind_le (rc : RecoveryController) (phase : String) (chain : AgentChainState) : behind rc phase chain ≤ 1 := by
  unfold behind
  split <;> omega

theorem rank_lt (limit ceiling : Nat) (rc : RecoveryController) (phase : String) (chain : AgentChainState) :
    rank limit ceiling rc phase chain < (4 * chain.agents.length + 2) * (limit + ceiling + 1) := by
  have hturns := turns_le rc phase chain.agents
  have hbehind := behind_le rc phase chain
  have hleft := attemptsLeft_le limit ceiling rc.registry phase chain
  have hrounds : (2 * (chain.agents.map (turnsOf rc phase)).sum + behind rc phase chain) * (limit + ceiling + 1) ≤
      (4 * chain.agents.length + 1) * (limit + ceiling + 1) := Nat.mul_le_mul_right _ (by omega)
  have hsplit : (4 * chain.agents.length + 2) * (limit + ceiling + 1) =
      (4 * chain.agents.length + 1) * (limit + ceiling + 1) + (limit + ceiling + 1) := by
    rw [← Nat.succ_mul]
  unfold rank
  omega

theorem turns_descend {width turns turns' left left' : Nat} (hleft : left' ≤ width) (h : turns' < turns ∨ turns' = turns ∧ left' < left) :
    turns' * (width + 1) + left' < turns * (width + 1) + left := by
  rcases h with hturns | ⟨rfl, hattempts⟩
  · have hrounds : (turns' + 1) * (width + 1) ≤ turns * (width + 1) := Nat.mul_le_mul_right _ hturns
    rw [Nat.succ_mul] at hrounds
    omega
  · omega

section

variable {rc rc₁ : RecoveryController} {s : PipelineState} {raw : RawFailure} {context : FailureContext}
  {failure : ClassifiedFailure} {chain : AgentChainState} {phase agent : String} {limit ceiling maxRetries : Nat}

theorem allowance_limit (h : rc.allowanceSpent phase chain (some agent) maxRetries false = false) : chain.retries < maxRetries := by
  unfold allowanceSpent at h
  simpa using h

theorem debit_wears (hregistry : rc₁.registry = debitBudget rc.registry phase agent failure)
    (hcounts : failure.countsAgainstBudget = true) (hfloor : 3 ≤ ceiling)
    (hbudgets : ∀ budget, rc.registry.get? (phase, agent) = some budget → budget.maxRetries ≤ ceiling)
    (h : rc₁.allowanceSpent phase chain (some agent) maxRetries true = false) :
    consumedIn rc₁.registry phase agent = consumedIn rc.registry phase agent + 1 ∧
      consumedIn rc₁.registry phase agent < ceiling := by
  have hentry : rc₁.registry.get? (phase, agent) = some { rc.registry.getD (phase, agent) { maxRetries := 3 } with
        consumed := (rc.registry.getD (phase, agent) { maxRetries := 3 }).consumed + 1 } := by
    rw [hregistry]
    unfold debitBudget
    rw [if_pos hcounts]
    dsimp only
    rw [Dict.get?_set, if_pos rfl]
  have hunspent : (rc.registry.getD (phase, agent) { maxRetries := 3 }).consumed + 1 <
      (rc.registry.getD (phase, agent) { maxRetries := 3 }).maxRetries := by
    unfold allowanceSpent at h
    rw [if_pos rfl, bind_some, hentry] at h
    unfold BudgetState.exhausted at h
    simpa using h
  unfold consumedIn
  rw [hentry]
  unfold Dict.getD at hunspent ⊢
  cases hbudget : rc.registry.get? (phase, agent) with
  | none =>
    rw [hbudget] at hunspent
    simp only [getD_none] at hunspent
    simp only [map_some, getD_some, getD_none, map_none, true_and]
    omega
  | some budget =>
    have hceiling := hbudgets budget hbudget
    rw [hbudget] at hunspent
    simp only [getD_some] at hunspent
    simp only [map_some, getD_some, true_and]
    omega

theorem retry_wears (hstays : (classified rc s raw context).isUnavailable = false) {useBudget : Bool}
    (hprogression : progression rc s raw context = some (rc₁, maxRetries, useBudget))
    (hagent : context.agent = some agent)
    (hcharges : (classified rc s raw context).category = .agent →
      (classified rc s raw context).countsAgainstBudget = true ∨ rc.registry.get? (context.phase, agent) = none)
    (htechnical : rc.technicalRetryCap ≤ limit) (hlimit : rc.getMaxRetriesForChain context.phase ≤ limit)
    (hfloor : 3 ≤ ceiling)
    (hbudgets : ∀ budget, rc.registry.get? (context.phase, agent) = some budget → budget.maxRetries ≤ ceiling)
    (hunspent : rc₁.allowanceSpent context.phase chain (some agent) maxRetries useBudget = false) :
    (limit - (chain.retries + 1)) + (ceiling - consumedIn rc₁.registry context.phase agent) <
      (limit - chain.retries) + (ceiling - consumedIn rc.registry context.phase agent) := by
  obtain ⟨_, ⟨hregistry, rfl, rfl⟩ | ⟨hcategory, hregistry, rfl, rfl⟩⟩ := progression_steady hstays hprogression
  · have hretries := allowance_limit hunspent
    rw [hregistry]
    omega
  · have hdebit : rc₁.registry = debitBudget rc.registry context.phase agent (classified rc s raw context) := by
      rw [hregistry]
      unfold chargedRegistry
      rw [hagent]
    by_cases hcounts : (classified rc s raw context).countsAgainstBudget = true
    · obtain ⟨hconsumed, hroom⟩ := debit_wears hdebit hcounts hfloor hbudgets hunspent
      omega
    · have hsame : rc₁.registry = rc.registry := by
        rw [hdebit]
        unfold debitBudget
        rw [if_neg hcounts]
      have hnone := (hcharges hcategory).resolve_left hcounts
      have hretries : chain.retries < rc.getMaxRetriesForChain context.phase := by
        unfold allowanceSpent at hunspent
        rw [if_pos rfl, bind_some, hsame, hnone] at hunspent
        simpa using hunspent
      rw [hsame]
      omega

end

/-! ## Turns are used up -/

section

variable {rc rc' : RecoveryController} {phase : String} {agents : List String}

/-- The cooldowns are the same, the clock has gone on, and spent agents stay spent. -/
structure Onward (rc rc' : RecoveryController) (phase : String) : Prop where
  tracker : rc'.tracker = rc.tracker
  clock : rc'.clock = rc.clock
  reads : rc.reads ≤ rc'.reads
  spent : ∀ agent, agent ∈ rc.spentAgents.getD phase [] → agent ∈ rc'.spentAgents.getD phase []

theorem Onward.offCooldown_mono (h : Onward rc rc' phase) (hclock : Monotone rc.clock) {agent : String}
    (hoff : offCooldown rc phase (rc.clock rc.reads) agent = true) :
    offCooldown rc' phase (rc'.clock rc'.reads) agent = true := by
  have hlater : rc.clock rc.reads ≤ rc'.clock rc'.reads := by
    rw [h.clock]
    exact hclock h.reads
  rw [offCooldown_congr h.tracker]
  by_contra hon
  have hwas := offCooldown_earlier hlater (by simpa using hon)
  rw [hoff] at hwas
  cases hwas

theorem turn_le {p q : Prop} [Decidable p] [Decidable q] (h : q → p) : (if p then 0 else 1) ≤ if q then 0 else 1 := by
  by_cases hq : q
  · simp [hq, h hq]
  · by_cases hp : p <;> simp [hp, hq]

theorem turn_eq_iff {p q : Prop} [Decidable p] [Decidable q] : ((if p then 0 else 1) = if q then 0 else 1) ↔ (p ↔ q) := by
  by_cases hp : p <;> by_cases hq : q <;> simp [hp, hq]

theorem Onward.turnsOf_le (h : Onward rc rc' phase) (hclock : Monotone rc.clock) (agent : String) :
    turnsOf rc' phase agent ≤ turnsOf rc phase agent :=
  Nat.add_le_add (turn_le (h.spent agent)) (turn_le (h.offCooldown_mono hclock))

theorem Onward.ready_same (h : Onward rc rc' phase) (hclock : Monotone rc.clock) {agent : String}
    (hsame : turnsOf rc' phase agent = turnsOf rc phase agent) :
    ready rc' phase (rc.clock rc.reads) agent = ready rc phase (rc.clock rc.reads) agent ∧
      ready rc' phase (rc'.clock rc'.reads) agent = ready rc phase (rc.clock rc.reads) agent := by
  have hunspent := turn_le (h.spent agent)
  have hcooling := turn_le (@Onward.offCooldown_mono _ _ _ h hclock agent)
  unfold turnsOf at hsame
  have hspent : agent ∈ rc'.spentAgents.getD phase [] ↔ agent ∈ rc.spentAgents.getD phase [] :=
    turn_eq_iff.mp (by omega)
  have hoff : offCooldown rc' phase (rc'.clock rc'.reads) agent = offCooldown rc phase (rc.clock rc.reads) agent :=
    Bool.eq_iff_iff.mpr (turn_eq_iff.mp (by omega))
  unfold ready
  rw [hoff, offCooldown_congr h.tracker]
  simp only [hspent, and_self]

variable (agents) in
theorem Onward.turns (h : Onward rc rc' phase) (hclock : Monotone rc.clock) :
    (agents.map (turnsOf rc' phase)).sum < (agents.map (turnsOf rc phase)).sum ∨
      (agents.map (turnsOf rc' phase)).sum = (agents.map (turnsOf rc phase)).sum ∧
      ∀ agent ∈ agents, ready rc' phase (rc.clock rc.reads) agent = ready rc phase (rc.clock rc.reads) agent ∧
        ready rc' phase (rc'.clock rc'.reads) agent = ready rc phase (rc.clock rc.reads) agent := by
  refine (sum_lt_or_eq fun agent _ => h.turnsOf_le hclock agent).imp_right fun hsame => ⟨?_, ?_⟩
  · exact congrArg List.sum (map_congr_left hsame)
  · exact fun agent hmem => h.ready_same hclock (hsame agent hmem)

theorem preferred_findIdx {nowMs : Int} {index : Nat} (h : PreferredBut rc phase nowMs agents none index) :
    agents.findIdx? (ready rc phase nowMs) = some index := by
  obtain ⟨agent, hget, _, hready, hbefore⟩ := h
  obtain ⟨hlt, hagent⟩ := List.getElem?_eq_some_iff.mp hget
  rw [List.findIdx?_eq_some_iff_getElem]
  refine ⟨hlt, by rw [hagent]; exact hready, ?_⟩
  intro j hj
  have hother := hbefore j agents[j] hj (some_ne_none j) (List.getElem?_eq_getElem (lt_trans hj hlt))
  simp [hother]

theorem findIdx_congr {p q : String → Bool} (h : ∀ agent ∈ agents, p agent = q agent) : agents.findIdx? p = agents.findIdx? q := by
  induction agents with
  | nil => rfl
  | cons agent rest ih =>
    rw [List.findIdx?_cons, List.findIdx?_cons, h agent mem_cons_self,
      ih fun other hmem => h other (mem_cons_of_mem _ hmem)]

variable {chain : AgentChainState} {index limit ceiling : Nat}

theorem behind_eq_zero {rc : RecoveryController} {chain : AgentChainState}
    (h : chain.agents.findIdx? (ready rc phase (rc.clock rc.reads)) = some chain.currentIndex) :
    behind rc phase chain = 0 := if_pos h

theorem rank_retries (h : Onward rc rc' phase) (hclock : Monotone rc.clock)
    (hpreferred : PreferredBut rc' phase (rc.clock rc.reads) chain.agents none chain.currentIndex)
    (hwears : attemptsLeft limit ceiling rc'.registry phase chain.withRetryIncrement <
      attemptsLeft limit ceiling rc.registry phase chain) :
    rank limit ceiling rc' phase chain.withRetryIncrement < rank limit ceiling rc phase chain := by
  refine turns_descend (attemptsLeft_le _ _ _ _ _) ?_
  have hbehind := behind_le rc' phase chain.withRetryIncrement
  rcases h.turns chain.agents hclock with hfewer | ⟨hsame, hready⟩
  · left
    show 2 * (chain.agents.map (turnsOf rc' phase)).sum + _ < _
    omega
  · right
    have hfound := preferred_findIdx hpreferred
    have hafter : behind rc' phase chain.withRetryIncrement = 0 := behind_eq_zero (by
      show chain.agents.findIdx? _ = some chain.currentIndex
      rw [← hfound]
      exact findIdx_congr fun agent hmem => (hready agent hmem).2.trans (hready agent hmem).1.symm)
    have hbefore : behind rc phase chain = 0 := behind_eq_zero (by
      rw [← hfound]
      exact findIdx_congr fun agent hmem => (hready agent hmem).1.symm)
    refine ⟨?_, hwears⟩
    show 2 * (chain.agents.map (turnsOf rc' phase)).sum + _ = _
    omega

theorem rank_fallsOver (h : Onward rc rc' phase) (hclock : Monotone rc.clock)
    (hpreferred : PreferredBut rc' phase (rc.clock rc.reads) chain.agents none index)
    (hother : index ≠ chain.currentIndex) :
    rank limit ceiling rc' phase { agents := chain.agents, currentIndex := index, retries := 0 } <
      rank limit ceiling rc phase chain := by
  refine turns_descend (attemptsLeft_le _ _ _ _ _) (.inl ?_)
  have hbehind := behind_le rc' phase { agents := chain.agents, currentIndex := index, retries := 0 }
  rcases h.turns chain.agents hclock with hfewer | ⟨hsame, hready⟩
  · show 2 * (chain.agents.map (turnsOf rc' phase)).sum + _ < _
    omega
  · have hfound := preferred_findIdx hpreferred
    have hafter : behind rc' phase { agents := chain.agents, currentIndex := index, retries := 0 } = 0 :=
      behind_eq_zero (by
        rw [← hfound]
        exact findIdx_congr fun agent hmem => (hready agent hmem).2.trans (hready agent hmem).1.symm)
    have hbefore : behind rc phase chain = 1 := if_neg (by
      rw [← findIdx_congr fun agent hmem => (hready agent hmem).1, hfound]
      exact fun hcurrent => hother (Option.some.inj hcurrent))
    show 2 * (chain.agents.map (turnsOf rc' phase)).sum + _ < _
    omega

end

/-! ## One failure -/

section

variable {rc : RecoveryController} {phase : String} {chain : AgentChainState} {maxRetries : Nat} {useBudget : Bool}

theorem anyAgentAvailable_of_off {agents : List String} (nowMs : Int) (hclock : ∀ n, rc.reads ≤ n → nowMs ≤ rc.clock n)
    (h : ∃ agent ∈ agents, offCooldown rc phase nowMs agent = true) : (rc.anyAgentAvailable phase agents).1 = true := by
  induction agents generalizing rc with
  | nil =>
    obtain ⟨agent, hmem, _⟩ := h
    cases hmem
  | cons first rest ih =>
    unfold anyAgentAvailable
    dsimp only
    split
    · rfl
    · rename_i hunavailable
      have hreads := isAgentAvailable_reads rc phase first
      apply ih
      · intro n hn
        rw [hreads.later.clock]
        exact hclock n (le_trans hreads.later.reads hn)
      · obtain ⟨agent, hmem, hoff⟩ := h
        rw [isAgentAvailable_eq] at hunavailable
        rcases mem_cons.mp hmem with rfl | hrest
        · have hwas := offCooldown_earlier (hclock rc.reads (le_refl _)) (by simpa using hunavailable)
          rw [hoff] at hwas
          cases hwas
        · refine ⟨agent, hrest, ?_⟩
          rw [offCooldown_congr hreads.later.tracker]
          exact hoff

theorem selectAgent_keeps (rc : RecoveryController) (phase : String) (chain : AgentChainState) (agent : Option String)
    (maxRetries : Nat) (useBudget : Bool) :
    (rc.selectAgent phase chain agent maxRetries useBudget).2.registry = rc.registry ∧
      (rc.selectAgent phase chain agent maxRetries useBudget).2.technicalRetryCap = rc.technicalRetryCap ∧
      (rc.selectAgent phase chain agent maxRetries useBudget).2.policyBundle = rc.policyBundle ∧
      ∀ name, name ∈ rc.spentAgents.getD phase [] →
        name ∈ (rc.selectAgent phase chain agent maxRetries useBudget).2.spentAgents.getD phase [] := by
  unfold selectAgent
  dsimp only
  generalize rc.allowanceSpent phase chain agent maxRetries useBudget = spent
  obtain ⟨n, hn⟩ := preferredAgentIndex_reads (rc.noteIfSpent phase agent spent) phase chain.agents
    (some chain.currentIndex) spent
  rw [hn]
  dsimp only
  unfold noteIfSpent
  cases agent with
  | none => exact ⟨rfl, rfl, rfl, fun _ h => h⟩
  | some name =>
    dsimp only
    split
    · refine ⟨rfl, rfl, rfl, ?_⟩
      intro other hother
      unfold noteRetryExhaustion
      dsimp only
      rw [Dict.getD_set, if_pos rfl]
      split
      · exact hother
      · exact mem_append_left _ hother
    · exact ⟨rfl, rfl, rfl, fun _ h => h⟩

theorem selectAgent_notes {agent : String} (h : rc.allowanceSpent phase chain (some agent) maxRetries useBudget = true) :
    agent ∈ (rc.selectAgent phase chain (some agent) maxRetries useBudget).2.spentAgents.getD phase [] := by
  unfold selectAgent
  dsimp only
  rw [h]
  obtain ⟨n, hn⟩ := preferredAgentIndex_reads (rc.noteIfSpent phase (some agent) true) phase chain.agents
    (some chain.currentIndex) true
  rw [hn]
  exact noteRetryExhaustion_mem rc phase agent

theorem firstAgent_current (chain : AgentChainState) :
    handleRetryProgression.firstAgent chain.currentAgent chain = chain.currentAgent := by
  unfold handleRetryProgression.firstAgent
  cases hcurrent : chain.currentAgent with
  | none => rfl
  | some name =>
    dsimp only
    split <;> rfl

end

/-- A phase at work: its chain is tracked, an agent is off cooldown, and limit and ceiling bound its retries. -/
structure Working (limit ceiling : Nat) (chain : AgentChainState) (b : Bench) : Prop where
  tracked : b.state.chainForPhase b.state.phase = some chain
  bundle : b.controller.policyBundle.isSome
  clock : Monotone b.controller.clock
  available : ∃ agent ∈ chain.agents,
    offCooldown b.controller b.state.phase (b.controller.clock b.controller.reads) agent = true
  technical : b.controller.technicalRetryCap ≤ limit
  retries : b.controller.getMaxRetriesForChain b.state.phase ≤ limit
  floor : 3 ≤ ceiling
  budgets : ∀ agent ∈ chain.agents, ∀ budget, b.controller.registry.get? (b.state.phase, agent) = some budget →
    budget.maxRetries ≤ ceiling

section

variable {limit ceiling : Nat} {chain : AgentChainState} {b : Bench} {fault : Fault}

theorem Working.agent (h : Working limit ceiling chain b) (fault : Fault) : (contextOf b.state fault).agent = chain.currentAgent := by
  unfold contextOf PipelineState.currentAgent
  dsimp only
  rw [h.tracked]
  rfl

theorem Working.budgets_charged (h : Working limit ceiling chain b) {failure : ClassifiedFailure} {agent : String}
    (hmem : agent ∈ chain.agents) {budget : BudgetState}
    (hbudget : (chargedRegistry b.controller failure (contextOf b.state fault)).get? (b.state.phase, agent) =
      some budget) : budget.maxRetries ≤ ceiling := by
  unfold chargedRegistry at hbudget
  split at hbudget
  · rename_i current hcurrent
    unfold debitBudget at hbudget
    split at hbudget
    · dsimp only at hbudget
      rw [Dict.get?_set] at hbudget
      split at hbudget
      · rename_i hsame
        cases hbudget
        unfold Dict.getD
        cases hentry : b.controller.registry.get? ((contextOf b.state fault).phase, current) with
        | none => exact h.floor
        | some entry =>
          obtain ⟨-, rfl⟩ := Prod.mk.inj hsame
          exact h.budgets agent hmem entry hentry
      · exact h.budgets agent hmem budget hbudget
    · exact h.budgets agent hmem budget hbudget
  · exact h.budgets agent hmem budget hbudget

structure Attempts (chain : AgentChainState) (b : Bench) (fault : Fault) (index : Nat) : Prop where
  onward : Onward b.controller (struck b fault).controller b.state.phase
  preferred : PreferredBut (struck b fault).controller b.state.phase (b.controller.clock b.controller.reads)
    chain.agents none index
  bundle : (struck b fault).controller.policyBundle = b.controller.policyBundle
  technical : (struck b fault).controller.technicalRetryCap = b.controller.technicalRetryCap
  registry : (struck b fault).controller.registry = b.controller.registry ∨
    (struck b fault).controller.registry = chargedRegistry b.controller (failureOf b fault) (contextOf b.state fault)
  wears : index = chain.currentIndex → ∀ limit ceiling, Working limit ceiling chain b →
    attemptsLeft limit ceiling (struck b fault).controller.registry b.state.phase chain.withRetryIncrement <
      attemptsLeft limit ceiling b.controller.registry b.state.phase chain

section

variable (h : Working limit ceiling chain b)
include h

theorem Working.attempts (hordinary : Ordinary b fault) {c : Course} {index : Nat}
    (hcourse : courseOf b fault = c) (hindex : nextIndex chain c = some index) : Attempts chain b fault index := by
  have hattempts : c = .retries ∨ ∃ index, c = .fallsOver index := by
    cases c with
    | retries => exact .inl rfl
    | fallsOver index => exact .inr ⟨index, rfl⟩
    | fails | untracked | exhausts | waits => cases hindex
  obtain ⟨rc₁, maxRetries, useBudget, tracked, hprogression, htracked, hselected⟩ := course_selected hcourse hattempts
  have hsameChain : tracked = chain := by
    rw [show b.state.chainForPhase (contextOf b.state fault).phase = some chain from h.tracked] at htracked
    exact (Option.some.inj htracked).symm
  subst hsameChain
  rw [hindex] at hselected
  have hcontroller : (struck b fault).controller = _ := handle_selected hprogression htracked hselected
  rw [h.agent fault, firstAgent_current, show (contextOf b.state fault).phase = b.state.phase from rfl]
    at hselected hcontroller
  obtain ⟨hsame, hregistry⟩ := progression_steady hordinary.available hprogression
  have hclock₁ : Monotone rc₁.clock := by
    rw [hsame.clock]
    exact h.clock
  obtain ⟨barred, hpreferred, hbarred⟩ := selectAgent_preferredBut hclock₁ hselected
  have hunbarred : barred = none := hbarred.resolve_right fun hblamed => hblamed.2 rfl
  obtain ⟨hkeepsRegistry, hkeepsTechnical, hkeepsBundle, hkeepsSpent⟩ := selectAgent_keeps rc₁ b.state.phase tracked
    tracked.currentAgent maxRetries useBudget
  have hlater := (selectAgent_later rc₁ b.state.phase tracked tracked.currentAgent maxRetries useBudget).1
  rw [hunbarred, hsame.clock, hsame.reads] at hpreferred
  have hpreferred' : PreferredBut (struck b fault).controller b.state.phase (b.controller.clock b.controller.reads) tracked.agents none index := by
    rw [hcontroller]
    exact hpreferred
  refine ⟨⟨?_, ?_, ?_, ?_⟩, hpreferred', ?_, ?_, ?_, ?_⟩
  · rw [hcontroller]
    exact hlater.tracker.trans hsame.tracker
  · rw [hcontroller]
    exact hlater.clock.trans hsame.clock
  · rw [hcontroller, ← hsame.reads]
    exact hlater.reads
  · intro name hname
    rw [hcontroller]
    rw [← hsame.spent] at hname
    exact hkeepsSpent name hname
  · rw [hcontroller]
    exact hkeepsBundle.trans hsame.bundle
  · rw [hcontroller]
    exact hkeepsTechnical.trans hsame.technical
  · rw [hcontroller]
    rcases hregistry with ⟨htechnical, _⟩ | ⟨_, hcharged, _⟩
    · exact .inl (hkeepsRegistry.trans htechnical)
    · exact .inr (hkeepsRegistry.trans hcharged)
  · intro hcurrent limit ceiling hworking
    obtain ⟨agent, hget, _, hready, _⟩ := hpreferred
    rw [hcurrent] at hget
    have hagent : tracked.currentAgent = some agent := hget
    have hunspent : rc₁.allowanceSpent b.state.phase tracked (some agent) maxRetries useBudget = false := by
      by_contra hspent
      have hnoted := selectAgent_notes (by simpa using hspent)
      rw [hagent, ready_of_spent hnoted] at hready
      cases hready
    have hwears := retry_wears hordinary.available hprogression ((hworking.agent fault).trans hagent)
      (fun hcategory => (hordinary.charges hcategory).imp_right fun hnone =>
        hnone agent ((hworking.agent fault).trans hagent))
      hworking.technical hworking.retries hworking.floor
      (fun budget hbudget => hworking.budgets agent (mem_of_getElem? hget) budget hbudget) hunspent
    rw [hcontroller, hkeepsRegistry]
    unfold attemptsLeft
    rw [show tracked.withRetryIncrement.currentAgent = some agent from hagent, hagent]
    exact hwears

theorem Working.returns (hordinary : Ordinary b fault) : ∃ effects, (b.controller.handle b.state fault.raw (contextOf b.state fault)).result =
      .ok ((struck b fault).state, effects) := by
  obtain ⟨bundle, hbundle⟩ := isSome_iff_exists.mp h.bundle
  obtain ⟨⟨s', effects⟩, hresult⟩ := handle_returns hbundle hordinary.speakable
  refine ⟨effects, ?_⟩
  have hstate : (struck b fault).state = s' := by
    unfold struck perform
    dsimp only
    rw [hresult]
    rfl
  rw [hstate]
  exact hresult

theorem Working.course_decided (hordinary : Ordinary b fault)
    (hkept : gaveUp (courseOf b fault) = false) : ∃ index, nextIndex chain (courseOf b fault) = some index := by
  unfold courseOf course at hkept ⊢
  cases hprogression : progression b.controller b.state fault.raw (contextOf b.state fault) with
  | none =>
    rw [hprogression] at hkept
    cases hkept
  | some start =>
    obtain ⟨rc₁, maxRetries, useBudget⟩ := start
    rw [hprogression] at hkept
    unfold trackedCourse selectionCourse at hkept ⊢
    rw [show b.state.chainForPhase (contextOf b.state fault).phase = some chain from h.tracked] at hkept ⊢
    dsimp only at hkept ⊢
    have hsame := (progression_steady hordinary.available hprogression).1
    have hlater := (selectAgent_later rc₁ (contextOf b.state fault).phase chain
      (handleRetryProgression.firstAgent (contextOf b.state fault).agent chain) maxRetries
      useBudget).1
    generalize rc₁.selectAgent (contextOf b.state fault).phase chain
      (handleRetryProgression.firstAgent (contextOf b.state fault).agent chain) maxRetries
      useBudget = selection at hkept hlater ⊢
    obtain ⟨picked, rc₂⟩ := selection
    cases picked with
    | some index =>
      dsimp only
      split
      · exact ⟨_, rfl⟩
      · exact ⟨_, rfl⟩
    | none =>
      obtain ⟨agent, hmem, hoff⟩ := h.available
      have havailable : (rc₂.anyAgentAvailable (contextOf b.state fault).phase chain.agents).1 = true := by
        refine anyAgentAvailable_of_off (b.controller.clock b.controller.reads) ?_ ⟨agent, hmem, ?_⟩
        · intro n hn
          rw [hlater.clock, hsame.clock]
          exact h.clock (le_trans (le_of_eq hsame.reads.symm) (le_trans hlater.reads hn))
        · rw [offCooldown_congr (hlater.tracker.trans hsame.tracker)]
          exact hoff
      dsimp only at hkept
      rw [if_pos havailable] at hkept
      cases hkept

theorem Working.step (hordinary : Ordinary b fault) (hkept : gaveUp (courseOf b fault) = false) :
    ∃ chain', chain'.agents = chain.agents ∧ Working limit ceiling chain' (struck b fault) ∧ Kept b.state (struck b fault).state ∧
      (struck b fault).controller.policyBundle = b.controller.policyBundle ∧ rank limit ceiling (struck b fault).controller b.state.phase chain' <
        rank limit ceiling b.controller b.state.phase chain := by
  obtain ⟨index, hindex⟩ := h.course_decided hordinary hkept
  have hattempts := h.attempts hordinary rfl hindex
  obtain ⟨effects, hresult⟩ := h.returns hordinary
  have hensues := handle_ensues hresult
  rw [← courseOf] at hensues
  have hworking : ∀ chain', chain'.agents = chain.agents → (struck b fault).state.phase = b.state.phase →
      (struck b fault).state.chainForPhase b.state.phase = some chain' →
      Working limit ceiling chain' (struck b fault) := by
    intro chain' hagents hphase htracked
    obtain ⟨agent, hmem, hoff⟩ := h.available
    refine ⟨by rw [hphase]; exact htracked, by rw [hattempts.bundle]; exact h.bundle,
      by rw [hattempts.onward.clock]; exact h.clock, ⟨agent, by rw [hagents]; exact hmem, ?_⟩,
      by rw [hattempts.technical]; exact h.technical, ?_, h.floor, ?_⟩
    · rw [hphase]
      exact hattempts.onward.offCooldown_mono h.clock hoff
    · rw [hphase]
      unfold getMaxRetriesForChain chainConfigForPhase
      rw [hattempts.bundle]
      exact h.retries
    · intro other hother budget hbudget
      rw [hphase] at hbudget
      rw [hagents] at hother
      rcases hattempts.registry with hsame | hcharged
      · rw [hsame] at hbudget
        exact h.budgets other hother budget hbudget
      · rw [hcharged] at hbudget
        exact h.budgets_charged hother hbudget
  generalize courseOf b fault = c at hindex hkept hensues
  cases hensues with
  | fails | exhausts => cases hkept
  | untracked | waits => cases hindex
  | @retries _ tracked kept htracked chains =>
    rw [show b.state.chainForPhase (contextOf b.state fault).phase = some chain from h.tracked] at htracked
    cases htracked
    cases hindex
    have hphase : (struck b fault).state.phase = b.state.phase := kept_phase kept
    refine ⟨chain.withRetryIncrement, rfl, hworking _ rfl hphase (chainForPhase_set chains), kept, hattempts.bundle, ?_⟩
    exact rank_retries hattempts.onward h.clock hattempts.preferred (hattempts.wears rfl limit ceiling h)
  | @fallsOver _ tracked next kept htracked other valid chains =>
    rw [show b.state.chainForPhase (contextOf b.state fault).phase = some chain from h.tracked] at htracked
    cases htracked
    cases hindex
    have hphase : (struck b fault).state.phase = b.state.phase := kept_phase kept
    refine ⟨⟨chain.agents, index, 0⟩, rfl, hworking _ rfl hphase (chainForPhase_set chains), kept, hattempts.bundle, ?_⟩
    exact rank_fallsOver hattempts.onward h.clock hattempts.preferred other

end

end

/-! ## Failure after failure -/

def retryLimit (rc : RecoveryController) (phase : String) : Nat :=
  max rc.technicalRetryCap (rc.getMaxRetriesForChain phase)

def budgetCeiling (rc : RecoveryController) (phase : String) : List String → Nat
  | [] => 3
  | agent :: rest =>
    max (((rc.registry.get? (phase, agent)).map BudgetState.maxRetries).getD 3) (budgetCeiling rc phase rest)

def callBound (rc : RecoveryController) (phase : String) (chain : AgentChainState) : Nat :=
  (4 * chain.agents.length + 2) * (retryLimit rc phase + budgetCeiling rc phase chain.agents + 1)

theorem budgetCeiling_floor (rc : RecoveryController) (phase : String) (agents : List String) : 3 ≤ budgetCeiling rc phase agents := by
  induction agents with
  | nil => exact le_refl _
  | cons agent rest ih => exact le_trans ih (le_max_right _ _)

theorem le_budgetCeiling {rc : RecoveryController} {phase agent : String} {agents : List String} {budget : BudgetState}
    (hmem : agent ∈ agents) (hbudget : rc.registry.get? (phase, agent) = some budget) :
    budget.maxRetries ≤ budgetCeiling rc phase agents := by
  induction agents with
  | nil => cases hmem
  | cons first rest ih =>
    unfold budgetCeiling
    rcases mem_cons.mp hmem with rfl | hrest
    · rw [hbudget]
      exact le_max_left _ _
    · exact le_trans (ih hrest) (le_max_right _ _)

def givesUpAt (b : Bench) (faults : Nat → Fault) (n : Nat) : Bool := gaveUp (courseOf (afterFaults b faults n) (faults n))

section

variable {b : Bench} {faults : Nat → Fault} {limit ceiling : Nat} {chain : AgentChainState}

theorem working_until (hworking : Working limit ceiling chain b)
    (hordinary : ∀ n, (∀ m < n, givesUpAt b faults m = false) → Ordinary (afterFaults b faults n) (faults n)) (n : Nat)
    (hkept : ∀ m < n, givesUpAt b faults m = false) :
    Kept b.state (afterFaults b faults n).state ∧
      (afterFaults b faults n).controller.policyBundle = b.controller.policyBundle ∧
      ∃ chain', chain'.agents = chain.agents ∧ Working limit ceiling chain' (afterFaults b faults n) := by
  induction n with
  | zero => exact ⟨⟨rfl, rfl, rfl⟩, rfl, chain, rfl, hworking⟩
  | succ n ih =>
    have hbefore : ∀ m < n, givesUpAt b faults m = false := fun m hm => hkept m (Nat.lt_succ_of_lt hm)
    obtain ⟨hsame, hbundle, chain', hagents, hnow⟩ := ih hbefore
    obtain ⟨next, hnext, hafter, hkeeps, hkeepsBundle, _⟩ :=
      hnow.step (hordinary n hbefore) (hkept n (Nat.lt_succ_self n))
    exact ⟨⟨hkeeps.same.trans hsame.same, hkeeps.count.trans hsame.count, hkeeps.epoch.trans hsame.epoch⟩,
      hkeepsBundle.trans hbundle, next, hnext.trans hagents, hafter⟩

def rankAt (limit ceiling : Nat) (phase : String) (b : Bench) : Nat :=
  match b.state.chainForPhase phase with
  | some chain => rank limit ceiling b.controller phase chain
  | none => 0

theorem Working.rankAt_eq (h : Working limit ceiling chain b) {phase : String} (hphase : b.state.phase = phase) :
    rankAt limit ceiling phase b = rank limit ceiling b.controller phase chain := by
  subst hphase
  unfold rankAt
  rw [h.tracked]

theorem rank_descends (hworking : Working limit ceiling chain b)
    (hordinary : ∀ n, (∀ m < n, givesUpAt b faults m = false) → Ordinary (afterFaults b faults n) (faults n)) {n : Nat}
    (hkept : ∀ m ≤ n, ¬ givesUpAt b faults m = true) :
    rankAt limit ceiling b.state.phase (afterFaults b faults (n + 1)) <
      rankAt limit ceiling b.state.phase (afterFaults b faults n) := by
  have hbefore : ∀ m < n, givesUpAt b faults m = false := fun m hm => by simpa using hkept m (le_of_lt hm)
  obtain ⟨hsame, _, chain', _, hnow⟩ := working_until hworking hordinary n hbefore
  obtain ⟨next, _, hafter, hkeeps, _, hrank⟩ :=
    hnow.step (hordinary n hbefore) (by simpa [givesUpAt] using hkept n (le_refl n))
  have hphase := kept_phase hsame
  rw [show afterFaults b faults (n + 1) = struck (afterFaults b faults n) (faults n) from rfl, hnow.rankAt_eq hphase,
    hafter.rankAt_eq ((kept_phase hkeeps).trans hphase)]
  rw [hphase] at hrank
  exact hrank

theorem gives_up_in_time (hworking : Working limit ceiling chain b)
    (hordinary : ∀ n, (∀ m < n, givesUpAt b faults m = false) → Ordinary (afterFaults b faults n) (faults n)) :
    ∃ n, n < (4 * chain.agents.length + 2) * (limit + ceiling + 1) ∧ givesUpAt b faults n = true ∧
      ∀ m < n, givesUpAt b faults m = false := by
  obtain ⟨n, hn, hgave, hkept⟩ := exists_first_of_descends (fun n => rankAt limit ceiling b.state.phase (afterFaults b faults n))
    fun n hquiet => rank_descends hworking hordinary hquiet
  refine ⟨n, ?_, hgave, fun m hm => by simpa using hkept m hm⟩
  have hstart := rank_lt limit ceiling b.controller b.state.phase chain
  rw [show rankAt limit ceiling b.state.phase (afterFaults b faults 0) = _ from hworking.rankAt_eq rfl] at hn
  omega

end

/-- After some failures the run is in the failure phase, a cycle counted if the chain was exhausted. -/
theorem recovery_within_a_phase_ends (b : Bench) (faults : Nat → Fault) (chain : AgentChainState) (bundle : PolicyBundle)
    (hbundle : b.controller.policyBundle = some bundle)
    (hchain : b.state.chainForPhase b.state.phase = some chain) (hclock : Monotone b.controller.clock)
    (havailable : ∃ agent ∈ chain.agents,
      offCooldown b.controller b.state.phase (b.controller.clock b.controller.reads) agent = true)
    (hordinary : ∀ n, (∀ m < n, givesUpAt b faults m = false) → Ordinary (afterFaults b faults n) (faults n)) :
    ∃ n, n < callBound b.controller b.state.phase chain ∧
      (∀ m ≤ n, (afterFaults b faults m).state.phase = b.state.phase ∧
        (afterFaults b faults m).state.recoveryCycleCount = b.state.recoveryCycleCount) ∧
      (afterFaults b faults (n + 1)).state.phase = bundle.pipeline.recovery.failedRoute ∧
      (courseOf (afterFaults b faults n) (faults n) = .exhausts ∧
          (afterFaults b faults (n + 1)).state.recoveryCycleCount = b.state.recoveryCycleCount + 1 ∨
        progression (afterFaults b faults n).controller (afterFaults b faults n).state (faults n).raw
            (contextOf (afterFaults b faults n).state (faults n)) = none ∧
          (afterFaults b faults (n + 1)).state.recoveryCycleCount = b.state.recoveryCycleCount) := by
  have hworking : Working (retryLimit b.controller b.state.phase) (budgetCeiling b.controller b.state.phase chain.agents) chain b :=
    ⟨hchain, by rw [hbundle]; rfl, hclock, havailable, le_max_left _ _, le_max_right _ _, budgetCeiling_floor _ _ _,
      fun agent hmem budget hbudget => le_budgetCeiling hmem hbudget⟩
  obtain ⟨n, hn, hgave, hkept⟩ := gives_up_in_time hworking hordinary
  refine ⟨n, hn, ?_, ?_⟩
  · intro m hm
    obtain ⟨hsame, _⟩ := working_until hworking hordinary m fun i hi => hkept i (lt_of_lt_of_le hi hm)
    exact ⟨kept_phase hsame, hsame.count⟩
  · obtain ⟨hsame, hpolicy, chain', _, hnow⟩ := working_until hworking hordinary n hkept
    obtain ⟨effects, hresult⟩ := hnow.returns (hordinary n hkept)
    have hensues := handle_ensues hresult
    obtain ⟨other, hother, hlanded⟩ := givenUp_phase (ensues_gaveUp hensues hgave)
    rw [hpolicy, hbundle] at hother
    cases hother
    refine ⟨hlanded, ?_⟩
    unfold givesUpAt courseOf at hgave
    generalize hcourse : course (afterFaults b faults n).controller (afterFaults b faults n).state (faults n).raw
      (contextOf (afterFaults b faults n).state (faults n)) = c at hgave hensues
    cases hensues with
    | untracked | retries | fallsOver | waits => cases hgave
    | exhausts _ count => exact .inl ⟨hcourse, count.trans (congrArg (· + 1) hsame.count)⟩
    | fails _ count => exact .inr ⟨course_fails hcourse, count.trans hsame.count⟩

/-! ## Failures without an end -/

def classedAs (category : FailureCategory) (counts : Bool) (reason : String) : Fault where
  raw := .message reason
  classified := some { category := category, reason := reason, countsAgainstBudget := counts }

def stillController (budget reads : Nat) (cooldowns : Dict String Int) : RecoveryController where
  cap := ⟨200, one_le_cycleCap⟩
  classify := fun _ _ _ _ => { category := .ambiguous, reason := "", countsAgainstBudget := false }
  clock := fun _ => 0
  reads := reads
  policyBundle := some { pipeline := Default.pipeline }
  registry := Dict.ofList [(("development", "claude"), { maxRetries := budget })]
  tracker := { unavailableUntilMs := cooldowns }

/-- One agent with a budget of its own, retried `n` times after agent failures. -/
def retried (budget n : Nat) : Bench where
  state :=
    { phase := "development"
      phaseChains := Dict.ofList [("development", { agents := ["claude"], retries := n })]
      lastFailureCategory := some "agent" }
  controller := stillController budget n ∅

def cooling (reads : Nat) : Bench where
  state :=
    { phase := "development"
      phaseChains := Dict.ofList [("development", { agents := ["claude"] })]
      lastFailureCategory := some "environmental"
      lastError := some "all agents unavailable (last reason: unknown); waiting for cooldown expiry"
      lastRetryDelayMs := 60000
      isWaitingState := true }
  controller := stillController 3 reads (Dict.ofList [("development:claude", 60000)])

def timedOut : Fault := classedAs .agent true "Agent fault: timed out"

theorem retried_ends : ∃ n, n < callBound (retried 1 0).controller "development" { agents := ["claude"] } ∧
    (afterFaults (retried 1 0) (fun _ => timedOut) (n + 1)).state.phase = "failed_terminal" := by
  have hgave : givesUpAt (retried 1 0) (fun _ => timedOut) 0 = true := by decide +kernel
  have hordinary : ∀ n, (∀ m < n, givesUpAt (retried 1 0) (fun _ => timedOut) m = false) →
      Ordinary (afterFaults (retried 1 0) (fun _ => timedOut) n) timedOut := by
    intro n hkept
    cases n with
    | zero =>
      refine ⟨rfl, fun _ => .inl rfl, ?_, ?_⟩
      · exact fun hexceeded => absurd hexceeded (by decide)
      · exact fun hexceeded => absurd hexceeded (by decide)
    | succ n =>
      rw [hkept 0 (Nat.succ_pos n)] at hgave
      cases hgave
  obtain ⟨n, hn, _, hlanded, _⟩ := recovery_within_a_phase_ends (retried 1 0) (fun _ => timedOut)
    { agents := ["claude"] } { pipeline := Default.pipeline } rfl rfl (fun _ _ _ => le_refl _) (by decide +kernel)
    hordinary
  exact ⟨n, hn, hlanded⟩

def conflictAttempt : Fault := classedAs .agent false "Agent fault: conflict attempt failed"

def offline : Fault := classedAs .environmental false "Environmental fault: connection refused"

theorem uncounted_retries (n : Nat) : afterFaults (retried 3 0) (fun _ => conflictAttempt) n = retried 3 n := by
  induction n with
  | zero => rfl
  | succ n ih =>
    unfold afterFaults
    rw [ih]
    rfl

theorem cooling_waits (n : Nat) : afterFaults (cooling 0) (fun _ => offline) n = cooling (5 * n) := by
  induction n with
  | zero => rfl
  | succ n ih =>
    unfold afterFaults
    rw [ih]
    rfl

/-- Without end: a failure that does not count, a wait while the clock stands still. -/
theorem recovery_without_end : (∀ n, (afterFaults (retried 3 0) (fun _ => conflictAttempt) n).state.phase = "development") ∧
      (∀ n, (afterFaults (cooling 0) (fun _ => offline) n).state.phase = "development") ∧
      (struck (retried 3 0) (classedAs .userConfig false "Configuration fault: no such agent")).state.phase =
        "failed_terminal" ∧
      (struck (retried 3 0) (classedAs .userConfig false "Configuration fault: no such agent")).state.recoveryCycleCount =
        0 := by
  refine ⟨fun n => ?_, fun n => ?_, rfl, rfl⟩
  · rw [uncounted_retries]
    rfl
  · rw [cooling_waits]
    rfl

end RalphWorkflow.SamePhaseRecovery
