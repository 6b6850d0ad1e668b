import Mathlib.Data.Prod.Lex
import RalphWorkflow.Proof.Termination.Advance

/-! The rank of a state: the cycles left in the budget, the ranks of the planning and the development loop, and what is left to do inside the phase.
A pass charged at its gate is not charged again on its loopback, so a charged state ranks one loop higher. -/
namespace RalphWorkflow.Termination
open Lib Policy Pipeline Pipeline.Reducer List AnalysisLoopCounter

/-! ## The rank -/

def passesLeft (s : PipelineState) (field : String) (cap : Nat) : Nat := ((cap : Int) - s.getLoopIteration field).toNat

def cyclesLeft (s : PipelineState) : Nat := (s.getBudgetRemaining "iteration").toNat

def planRank (s : PipelineState) : Nat :=
  let left := passesLeft s "planning_analysis_iteration" 3
  if s.phase = "planning" then 2 * left + 1 + (if s.executionCycleCharged then 2 else 0)
  else if s.phase = "planning_analysis" then (if s.executionCycleCharged then 2 * left + 2 else 2 * max 1 left)
  else 0

def devRank (s : PipelineState) : Nat :=
  let left := passesLeft s "development_analysis_iteration" 5
  let charge := if s.executionCycleCharged then 4 else 0
  if s.phase = "development" then 4 * left + 5 + charge
  else if s.phase = "development_commit_cleanup" then 4 * left + 4 + charge
  else if s.phase = "development_commit" then 4 * left + 3 + charge
  else if s.phase = "development_analysis" then (if s.executionCycleCharged then 4 * left + 6 else 4 * max 1 left + 2)
  else if s.phase = "development_final_commit_cleanup" then 2
  else if s.phase = "development_final_commit" then 1
  else 0

def phaseRank (s : PipelineState) : Nat :=
  if s.phase = "development_commit_cleanup" ∨ s.phase = "development_final_commit_cleanup" then
    passesLeft s "commit_cleanup_iteration" 3
  else if s.phase = "development_commit" ∨ s.phase = "development_final_commit" then
    (if s.commit.agentInvoked then 0 else 1)
  else 0

/-- The measure: remaining budget, remaining loop passes, position in the phase graph. -/
def rank (s : PipelineState) : ℕ ×ₗ ℕ ×ₗ ℕ ×ₗ ℕ :=
  toLex (cyclesLeft s, toLex (planRank s, toLex (devRank s, phaseRank s)))

theorem rank_lt_iff (s s' : PipelineState) : rank s' < rank s ↔ cyclesLeft s' < cyclesLeft s ∨ cyclesLeft s' = cyclesLeft s ∧
      (planRank s' < planRank s ∨ planRank s' = planRank s ∧
        (devRank s' < devRank s ∨ devRank s' = devRank s ∧ phaseRank s' < phaseRank s)) := by
  simp only [rank, Prod.Lex.toLex_lt_toLex]

def chargeRank (s : PipelineState) : Nat := if s.executionCycleCharged then 1 else 0

variable {s s' s₁ : PipelineState} {t : String}

theorem planRank_planning (h : s.phase = "planning") : planRank s = 2 * passesLeft s "planning_analysis_iteration" 3 + 1 + 2 * chargeRank s := by
  cases hc : s.executionCycleCharged <;> simp [planRank, chargeRank, h, hc]

theorem planRank_analysis (h : s.phase = "planning_analysis") :
    planRank s = if s.executionCycleCharged then 2 * passesLeft s "planning_analysis_iteration" 3 + 2
      else 2 * max 1 (passesLeft s "planning_analysis_iteration" 3) := by
  simp [planRank, h]

theorem planRank_later (h : s.phase ≠ "planning") (h' : s.phase ≠ "planning_analysis") : planRank s = 0 := by
  simp [planRank, h, h']

theorem devRank_development (h : s.phase = "development") :
    devRank s = 4 * passesLeft s "development_analysis_iteration" 5 + 5 + 4 * chargeRank s := by
  cases hc : s.executionCycleCharged <;> simp [devRank, chargeRank, h, hc]

theorem devRank_cleanup (h : s.phase = "development_commit_cleanup") :
    devRank s = 4 * passesLeft s "development_analysis_iteration" 5 + 4 + 4 * chargeRank s := by
  cases hc : s.executionCycleCharged <;> simp [devRank, chargeRank, h, hc]

theorem devRank_commit (h : s.phase = "development_commit") :
    devRank s = 4 * passesLeft s "development_analysis_iteration" 5 + 3 + 4 * chargeRank s := by
  cases hc : s.executionCycleCharged <;> simp [devRank, chargeRank, h, hc]

theorem devRank_analysis (h : s.phase = "development_analysis") :
    devRank s = if s.executionCycleCharged then 4 * passesLeft s "development_analysis_iteration" 5 + 6
      else 4 * max 1 (passesLeft s "development_analysis_iteration" 5) + 2 := by
  simp [devRank, h]

theorem devRank_finalCleanup (h : s.phase = "development_final_commit_cleanup") : devRank s = 2 := by
  simp [devRank, h]

theorem devRank_finalCommit (h : s.phase = "development_final_commit") : devRank s = 1 := by
  simp [devRank, h]

theorem phaseRank_cleanup (h : s.phase = "development_commit_cleanup" ∨ s.phase = "development_final_commit_cleanup") :
    phaseRank s = passesLeft s "commit_cleanup_iteration" 3 := by
  simp [phaseRank, h]

theorem phaseRank_commit (h : s.phase = "development_commit" ∨ s.phase = "development_final_commit") :
    phaseRank s = if s.commit.agentInvoked then 0 else 1 := by
  rcases h with h | h <;> simp [phaseRank, h]

/-! ## Steps that leave a phase behind -/

def workingPhases : List String :=
  ["planning", "planning_analysis", "development", "development_commit_cleanup", "development_commit",
    "development_analysis", "development_final_commit_cleanup", "development_final_commit"]

theorem rank_pos (h : s.phase ∈ workingPhases) : 0 < planRank s ∨ 0 < devRank s := by
  simp only [workingPhases, mem_cons, not_mem_nil, or_false] at h
  rcases h with h | h | h | h | h | h | h | h
  · rw [planRank_planning h]
    omega
  · rw [planRank_analysis h]
    split <;> omega
  · rw [devRank_development h]
    omega
  · rw [devRank_cleanup h]
    omega
  · rw [devRank_commit h]
    omega
  · rw [devRank_analysis h]
    split <;> omega
  · rw [devRank_finalCleanup h]
    omega
  · rw [devRank_finalCommit h]
    omega

theorem rank_lt_terminal (hs : s.phase ∈ workingPhases)
    (hs' : s'.phase = "complete" ∨ s'.phase = "failed_terminal") (hcycles : cyclesLeft s' ≤ cyclesLeft s) :
    rank s' < rank s := by
  have hplan : planRank s' = 0 := by rcases hs' with h | h <;> simp [planRank, h]
  have hdev : devRank s' = 0 := by rcases hs' with h | h <;> simp [devRank, h]
  have hpos := rank_pos hs
  rw [rank_lt_iff, hplan, hdev]
  omega

theorem rank_lt_leave_planning (hcycles : cyclesLeft s' = cyclesLeft s)
    (hs : s.phase = "planning" ∨ s.phase = "planning_analysis") (hs' : s'.phase ≠ "planning")
    (hs'' : s'.phase ≠ "planning_analysis") : rank s' < rank s := by
  have hpos : 0 < planRank s := by
    rcases hs with h | h
    · rw [planRank_planning h]
      omega
    · rw [planRank_analysis h]
      split <;> omega
  rw [rank_lt_iff, planRank_later hs' hs'']
  omega

theorem rank_lt_finalize (hcycles : cyclesLeft s' = cyclesLeft s) (hplan : planRank s = 0) (hdev : 2 < devRank s)
    (hs' : s'.phase = "development_final_commit_cleanup" ∨ s'.phase = "development_final_commit") : rank s' < rank s := by
  have hplan' : planRank s' = 0 := by rcases hs' with h | h <;> simp [planRank, h]
  have hdev' : devRank s' ≤ 2 := by
    rcases hs' with h | h
    · rw [devRank_finalCleanup h]
    · rw [devRank_finalCommit h]
      omega
  rw [rank_lt_iff, hplan, hplan']
  omega

/-! ## Steps along the loops -/

theorem Lands.cyclesLeft_eq (h : Lands s t s') : cyclesLeft s' = cyclesLeft s := by
  unfold cyclesLeft PipelineState.getBudgetRemaining
  rw [h.budgetCaps, h.outerProgress]

theorem KeepsLoops.passesLeft_eq {fields : List String} (h : KeepsLoops s s' fields)
    (field : String) (hfield : field ∉ fields) (cap : Nat) : passesLeft s' field cap = passesLeft s field cap := by
  unfold passesLeft
  rw [h field hfield]

theorem Lands.chargeRank_kept (h : Lands s t s')
    (hrole : phaseHasRole Default.pipeline s'.phase .execution = false) : chargeRank s' = chargeRank s := by
  have hcharged := h.charged
  rw [hrole] at hcharged
  unfold chargeRank
  rw [hcharged]
  rfl

theorem Lands.charged_kept (h : Lands s t s') (hrole : phaseHasRole Default.pipeline s'.phase .execution = false) :
    s'.executionCycleCharged = s.executionCycleCharged := by
  have hcharged := h.charged
  rw [hrole] at hcharged
  exact hcharged

theorem Lands.charged_cleared (h : Lands s t s') (hrole : phaseHasRole Default.pipeline s'.phase .execution = true) : chargeRank s' = 0 := by
  have hcharged := h.charged
  rw [hrole] at hcharged
  unfold chargeRank
  rw [hcharged]
  rfl

theorem step_planning (hs : s.phase = "planning") (h : Lands s "planning_analysis" s') : rank s' < rank s := by
  have hcycles := h.cyclesLeft_eq
  rcases h.place with ⟨hphase, hkept⟩ | ⟨hpass, _⟩
  · obtain ⟨hopen, hloops⟩ := hkept (by simp [LeavesForward, hs])
    have hleft := hloops.passesLeft_eq "planning_analysis_iteration" not_mem_nil 3
    have hpos : 0 < passesLeft s "planning_analysis_iteration" 3 := by
      have hlt := hopen "planning_analysis_iteration" 3 rfl
      unfold passesLeft
      omega
    have hcharged := h.charged_kept (by rw [hphase]; rfl)
    rw [rank_lt_iff, planRank_planning hs, planRank_analysis hphase, hleft, hcharged]
    unfold chargeRank
    split <;> omega
  · simp [passes] at hpass
    refine rank_lt_leave_planning hcycles (.inl hs) ?_ ?_ <;> rcases hpass with h | h <;> rw [h] <;> decide

theorem step_planningAnalysis_forward (hs : s.phase = "planning_analysis") (hcycles : cyclesLeft s' = cyclesLeft s)
    (hs' : s'.phase = "development" ∨ ("development", s'.phase) ∈ passes) : rank s' < rank s := by
  refine rank_lt_leave_planning hcycles (.inr hs) ?_ ?_ <;> rcases hs' with h | h
  · rw [h]; decide
  · simp [passes] at h; rcases h with h | h <;> rw [h] <;> decide
  · rw [h]; decide
  · simp [passes] at h; rcases h with h | h <;> rw [h] <;> decide

/-- The counter after a loopback, unless the pass was charged at its gate. -/
def LoopsBack (s s₁ : PipelineState) (field : String) (cap : Nat) : Prop :=
  s₁.getLoopIteration field =
    if s.executionCycleCharged then s.getLoopIteration field
    else (mk (s.getLoopIteration field) cap).nextCompleted

theorem passesLeft_loopsBack {field : String} {cap : Nat} (h : LoopsBack s s₁ field cap) :
    if s.executionCycleCharged then passesLeft s₁ field cap = passesLeft s field cap
    else passesLeft s₁ field cap + 1 ≤ max 1 (passesLeft s field cap) := by
  unfold LoopsBack at h
  unfold passesLeft
  rw [h]
  split
  · rfl
  · unfold nextCompleted
    dsimp only
    omega

theorem step_planningAnalysis_back (hs : s.phase = "planning_analysis")
    (hs₁ : s₁.phase = "planning_analysis") (hcycles : cyclesLeft s₁ = cyclesLeft s)
    (hback : LoopsBack s s₁ "planning_analysis_iteration" 3) (h : Lands s₁ "planning" s') : rank s' < rank s := by
  have hcycles' := h.cyclesLeft_eq
  rcases h.place with ⟨hphase, hkept⟩ | ⟨hpass, _⟩
  · obtain ⟨_, hloops⟩ := hkept (by simp [LeavesForward, hs₁])
    have hleft := hloops.passesLeft_eq "planning_analysis_iteration" not_mem_nil 3
    have hcharged := h.charged_cleared (by rw [hphase]; rfl)
    have hbound := passesLeft_loopsBack hback
    rw [rank_lt_iff, planRank_planning hphase, planRank_analysis hs, hleft, hcharged]
    cases hc : s.executionCycleCharged <;> simp only [hc, Bool.false_eq_true, if_true, if_false] at hbound ⊢ <;> omega
  · simp [passes] at hpass

theorem step_development (hs : s.phase = "development") (h : Lands s "development_commit_cleanup" s') : rank s' < rank s := by
  have hcycles := h.cyclesLeft_eq
  have hplan : planRank s = 0 := by simp [planRank, hs]
  rcases h.place with ⟨hphase, hkept⟩ | ⟨hpass, hkeeps⟩
  · obtain ⟨_, hloops⟩ := hkept (by simp [LeavesForward, hs])
    have hleft := hloops.passesLeft_eq "development_analysis_iteration" not_mem_nil 5
    have hcharge := h.chargeRank_kept (by rw [hphase]; rfl)
    have hplan' : planRank s' = 0 := by simp [planRank, hphase]
    rw [rank_lt_iff, hplan, hplan', devRank_development hs, devRank_cleanup hphase, hleft, hcharge]
    omega
  · simp [passes] at hpass
    have hleft := (hkeeps rfl).passesLeft_eq "development_analysis_iteration" (by decide) 5
    have hcharge := h.chargeRank_kept (by rw [hpass]; rfl)
    have hplan' : planRank s' = 0 := by simp [planRank, hpass]
    rw [rank_lt_iff, hplan, hplan', devRank_development hs, devRank_commit hpass, hleft, hcharge]
    omega

theorem step_cleanup (hs : s.phase = "development_commit_cleanup") (h : Lands s "development_commit" s') : rank s' < rank s := by
  have hcycles := h.cyclesLeft_eq
  have hplan : planRank s = 0 := by simp [planRank, hs]
  rcases h.place with ⟨hphase, hkept⟩ | ⟨hpass, _⟩
  · obtain ⟨_, hloops⟩ := hkept (by simp [LeavesForward, hs])
    have hleft := hloops.passesLeft_eq "development_analysis_iteration" not_mem_nil 5
    have hcharge := h.chargeRank_kept (by rw [hphase]; rfl)
    have hplan' : planRank s' = 0 := by simp [planRank, hphase]
    rw [rank_lt_iff, hplan, hplan', devRank_cleanup hs, devRank_commit hphase, hleft, hcharge]
    omega
  · simp [passes] at hpass

theorem step_cleanup_back (s₁ : PipelineState) (hs : s.phase = "development_commit_cleanup")
    (hs₁ : s₁.phase = s.phase) (hcycles : cyclesLeft s₁ = cyclesLeft s) (hcharge : chargeRank s₁ = chargeRank s)
    (hkeep : KeepsLoops s s₁ ["commit_cleanup_iteration"]) (hnext : s₁.getLoopIteration "commit_cleanup_iteration" =
      (mk (s.getLoopIteration "commit_cleanup_iteration") 3).nextCompleted)
    (h : Lands s₁ "development_commit_cleanup" s') : rank s' < rank s := by
  have hcycles' := h.cyclesLeft_eq
  have hdev := hkeep.passesLeft_eq "development_analysis_iteration" (by decide) 5
  have hplan : planRank s = 0 := by simp [planRank, hs]
  rcases h.place with ⟨hphase, hkept⟩ | ⟨hpass, hkeeps⟩
  · obtain ⟨hopen, hloops⟩ := hkept (by simp [LeavesForward, hs₁, hs])
    have hleft := hloops.passesLeft_eq "development_analysis_iteration" not_mem_nil 5
    have hcleanup := hloops.passesLeft_eq "commit_cleanup_iteration" not_mem_nil 3
    have hcharge' := h.chargeRank_kept (by rw [hphase]; rfl)
    have hplan' : planRank s' = 0 := by simp [planRank, hphase]
    have hfewer : passesLeft s₁ "commit_cleanup_iteration" 3 < passesLeft s "commit_cleanup_iteration" 3 := by
      have hlt := hopen "commit_cleanup_iteration" 3 rfl
      unfold passesLeft
      rw [hnext] at hlt ⊢
      unfold nextCompleted at hlt ⊢
      dsimp only at hlt ⊢
      omega
    rw [rank_lt_iff, hplan, hplan', devRank_cleanup hs, devRank_cleanup hphase, hleft, hcharge', hcharge, hdev,
      phaseRank_cleanup (.inl hs), phaseRank_cleanup (.inl hphase), hcleanup]
    omega
  · simp [passes] at hpass
    have hleft := (hkeeps rfl).passesLeft_eq "development_analysis_iteration" (by decide) 5
    have hcharge' := h.chargeRank_kept (by rw [hpass]; rfl)
    have hplan' : planRank s' = 0 := by simp [planRank, hpass]
    rw [rank_lt_iff, hplan, hplan', devRank_cleanup hs, devRank_commit hpass, hleft, hcharge', hcharge, hdev]
    omega

theorem step_invoked (hs : s.phase = "development_commit" ∨ s.phase = "development_final_commit") (hinvoked : s.commit.agentInvoked = false)
    (hs' : s' = { s with commit := { s.commit with agentInvoked := true }, lastRetryDelayMs := s'.lastRetryDelayMs }) :
    rank s' < rank s := by
  have hphase : s'.phase = s.phase := by rw [hs']
  have hcycles : cyclesLeft s' = cyclesLeft s := by rw [hs']; rfl
  have hplan : planRank s' = planRank s := by rw [hs']; rfl
  have hdev : devRank s' = devRank s := by rw [hs']; rfl
  have hinvoked' : s'.commit.agentInvoked = true := by rw [hs']
  rw [rank_lt_iff, hcycles, hplan, hdev, phaseRank_commit hs, phaseRank_commit (by rw [hphase]; exact hs), hinvoked,
    hinvoked']
  simp

theorem step_commit (hs : s.phase = "development_commit") (h : Lands s "development_analysis" s') : rank s' < rank s := by
  have hcycles := h.cyclesLeft_eq
  have hplan : planRank s = 0 := by simp [planRank, hs]
  rcases h.place with ⟨hphase, hkept⟩ | ⟨hpass, _⟩
  · obtain ⟨hopen, hloops⟩ := hkept (by simp [LeavesForward, hs])
    have hleft := hloops.passesLeft_eq "development_analysis_iteration" not_mem_nil 5
    have hplan' : planRank s' = 0 := by simp [planRank, hphase]
    have hpos : 0 < passesLeft s "development_analysis_iteration" 5 := by
      have hlt := hopen "development_analysis_iteration" 5 rfl
      unfold passesLeft
      omega
    have hcharged := h.charged_kept (by rw [hphase]; rfl)
    rw [rank_lt_iff, hplan, hplan', devRank_commit hs, devRank_analysis hphase, hleft, hcharged]
    unfold chargeRank
    split <;> omega
  · simp [passes] at hpass
    refine rank_lt_finalize hcycles hplan ?_ hpass
    rw [devRank_commit hs]
    omega

theorem step_commit_gated (hs : s.phase = "development_commit") (h : Lands s "development_analysis" s₁) (hs₁ : s₁.phase = "development_analysis")
    (hs' : s' = { s₁.withLoopIteration "development_analysis_iteration"
        (mk (s₁.getLoopIteration "development_analysis_iteration") 5).nextCompleted with
      executionCycleCharged := true }) : rank s' < rank s := by
  have hcycles : cyclesLeft s' = cyclesLeft s := by rw [hs', ← h.cyclesLeft_eq]; rfl
  have hplan : planRank s = 0 := by simp [planRank, hs]
  have hphase : s'.phase = "development_analysis" := by rw [hs']; exact hs₁
  have hplan' : planRank s' = 0 := by simp [planRank, hphase]
  have hcharged : s'.executionCycleCharged = true := by rw [hs']
  rcases h.place with ⟨_, hkept⟩ | ⟨hpass, _⟩
  · obtain ⟨hopen, hloops⟩ := hkept (by simp [LeavesForward, hs])
    have hsame := hloops "development_analysis_iteration" not_mem_nil
    have hlt := hopen "development_analysis_iteration" 5 rfl
    have hcount : s'.getLoopIteration "development_analysis_iteration" =
        (mk (s.getLoopIteration "development_analysis_iteration") 5).nextCompleted := by
      rw [hs', ← hsame]
      simp [PipelineState.getLoopIteration, PipelineState.withLoopIteration]
    have hfewer : passesLeft s' "development_analysis_iteration" 5 < passesLeft s "development_analysis_iteration" 5 := by
      unfold passesLeft
      rw [hcount]
      unfold nextCompleted
      dsimp only
      omega
    rw [rank_lt_iff, hplan, hplan', devRank_commit hs, devRank_analysis hphase, hcharged, if_pos rfl]
    omega
  · rw [hs₁] at hpass
    exact absurd hpass (by decide)

theorem step_developmentAnalysis_forward (hs : s.phase = "development_analysis") (hcycles : cyclesLeft s' = cyclesLeft s)
    (hs' : s'.phase = "development_final_commit_cleanup" ∨
      ("development_final_commit_cleanup", s'.phase) ∈ passes) : rank s' < rank s := by
  refine rank_lt_finalize hcycles (by simp [planRank, hs]) ?_ ?_
  · rw [devRank_analysis hs]
    split <;> omega
  · rcases hs' with h | h
    · exact .inl h
    · simp [passes] at h
      exact .inr h

theorem step_developmentAnalysis_back (hs : s.phase = "development_analysis")
    (hs₁ : s₁.phase = "development_analysis") (hcycles : cyclesLeft s₁ = cyclesLeft s)
    (hback : LoopsBack s s₁ "development_analysis_iteration" 5) (h : Lands s₁ "development" s') : rank s' < rank s := by
  have hcycles' := h.cyclesLeft_eq
  have hplan : planRank s = 0 := by simp [planRank, hs]
  rcases h.place with ⟨hphase, hkept⟩ | ⟨hpass, _⟩
  · obtain ⟨_, hloops⟩ := hkept (by simp [LeavesForward, hs₁])
    have hleft := hloops.passesLeft_eq "development_analysis_iteration" not_mem_nil 5
    have hcharged := h.charged_cleared (by rw [hphase]; rfl)
    have hbound := passesLeft_loopsBack hback
    have hplan' : planRank s' = 0 := by simp [planRank, hphase]
    rw [rank_lt_iff, hplan, hplan', devRank_development hphase, devRank_analysis hs, hleft, hcharged]
    cases hc : s.executionCycleCharged <;>
      simp only [hc, Bool.false_eq_true, if_true, if_false, true_and] at hbound ⊢ <;> omega
  · simp [passes] at hpass
    refine rank_lt_finalize (hcycles'.trans hcycles) hplan ?_ hpass
    rw [devRank_analysis hs]
    split <;> omega

theorem step_finalCleanup (hs : s.phase = "development_final_commit_cleanup") (h : Lands s "development_final_commit" s') : rank s' < rank s := by
  have hcycles := h.cyclesLeft_eq
  rcases h.place with ⟨hphase, _⟩ | ⟨hpass, _⟩
  · have hplan : planRank s = 0 := by simp [planRank, hs]
    have hplan' : planRank s' = 0 := by simp [planRank, hphase]
    rw [rank_lt_iff, hplan, hplan', devRank_finalCleanup hs, devRank_finalCommit hphase]
    omega
  · simp [passes] at hpass

theorem step_finalCleanup_back (s₁ : PipelineState) (hs : s.phase = "development_final_commit_cleanup")
    (hs₁ : s₁.phase = s.phase) (hcycles : cyclesLeft s₁ = cyclesLeft s)
    (hnext : s₁.getLoopIteration "commit_cleanup_iteration" =
      (mk (s.getLoopIteration "commit_cleanup_iteration") 3).nextCompleted)
    (h : Lands s₁ "development_final_commit_cleanup" s') : rank s' < rank s := by
  have hcycles' := h.cyclesLeft_eq
  have hplan : planRank s = 0 := by simp [planRank, hs]
  rcases h.place with ⟨hphase, hkept⟩ | ⟨hpass, _⟩
  · obtain ⟨hopen, hloops⟩ := hkept (by simp [LeavesForward, hs₁, hs])
    have hcleanup := hloops.passesLeft_eq "commit_cleanup_iteration" not_mem_nil 3
    have hplan' : planRank s' = 0 := by simp [planRank, hphase]
    have hfewer : passesLeft s₁ "commit_cleanup_iteration" 3 < passesLeft s "commit_cleanup_iteration" 3 := by
      have hlt := hopen "commit_cleanup_iteration" 3 rfl
      unfold passesLeft
      rw [hnext] at hlt ⊢
      unfold nextCompleted at hlt ⊢
      dsimp only at hlt ⊢
      omega
    rw [rank_lt_iff, hplan, hplan', devRank_finalCleanup hs, devRank_finalCleanup hphase,
      phaseRank_cleanup (.inr hs), phaseRank_cleanup (.inr hphase), hcleanup]
    omega
  · simp [passes] at hpass
    have hplan' : planRank s' = 0 := by simp [planRank, hpass]
    rw [rank_lt_iff, hplan, hplan', devRank_finalCleanup hs, devRank_finalCommit hpass]
    omega

end RalphWorkflow.Termination
