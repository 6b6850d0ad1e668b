import Mathlib.Data.List.Basic
import RalphWorkflow.Lib.Run

/-! `_SaturatedDispatch` (`server/_saturated_dispatch.py`) and the calls of `submit` that are under way: each is in one of its phases, and any of
them, or a change of the executor, may go next. An executor that is shut down takes no work, and a future that runs cannot be cancelled. -/
namespace RalphWorkflow.SaturatedDispatch
open Lib List

inductive Phase where
  /-- before `_ensure_executor` -/
  | entered
  /-- behind the test in `_ensure_executor`, before its last read of the executor -/
  | ensured
  /-- with the executor that was read, before the slot is taken -/
  | holding (executor : Option Nat)
  /-- `SaturatedResponse`, no slot being free -/
  | saturated
  /-- with a slot, before `executor.submit` -/
  | admitted (generation : Nat) (executor : Option Nat)
  | queued (generation : Nat)
  | running (generation : Nat)
  | finished
  /-- cancelled before it started -/
  | cancelled (generation : Nat)
  /-- `executor.submit` raised `RuntimeError` -/
  | refused
  /-- no executor was there to submit to, and the `AttributeError` went to the caller -/
  | stranded (generation : Nat)
  deriving DecidableEq

structure System where
  maxWorkers : Nat
  /-- as `ThreadPoolExecutor` demands it -/
  some_worker : 0 < maxWorkers
  executor : Option Nat := none
  inflight : Nat := 0
  generation : Nat := 0
  /-- the number of the next executor -/
  executors : Nat := 0
  /-- the executors that are shut down -/
  down : List Nat := []
  calls : List Phase := []

namespace System

variable (s : System)

def setPhase (i : Nat) (phase : Phase) : System := { s with calls := s.calls.set i phase }

def releaseSlot (generation : Nat) : System :=
  if generation = s.generation then { s with inflight := s.inflight - 1 } else s

def ensureExecutor : System :=
  if s.executor = none then { s with executor := some s.executors, executors := s.executors + 1 } else s

def takeSlot (i : Nat) (executor : Option Nat) : System :=
  if s.maxWorkers ≤ s.inflight then s.setPhase i .saturated
  else { s.setPhase i (.admitted s.generation executor) with inflight := s.inflight + 1 }

def cancelFuture (i : Nat) : System :=
  match s.calls[i]? with
  | some (.queued generation) => s.setPhase i (.cancelled generation)
  | _ => s

def installExecutor (maxWorkers : Nat) (some_worker : 0 < maxWorkers) : System :=
  { s with maxWorkers, some_worker, executor := some s.executors, executors := s.executors + 1, inflight := 0, generation := s.generation + 1 }

def shutdown : System := { s with executor := none, inflight := 0, generation := s.generation + 1 }

def reset : System :=
  { s with executor := some s.executors, executors := s.executors + 1, inflight := 0, generation := s.generation + 1 }

end System

inductive Move where
  /-- a caller calls `submit` -/
  | enter
  | ensure (i : Nat)
  | read (i : Nat)
  | take (i : Nat)
  /-- `executor.submit`; `accepts` unless it raises `RuntimeError` -/
  | hand (i : Nat) (accepts : Bool)
  /-- a worker takes the call from the queue -/
  | start (i : Nat)
  /-- the callable returns or raises, and `_tracked` with it -/
  | finish (i : Nat)
  /-- `future.result` times out, or there is no deadline to wait for -/
  | timeOut (i : Nat)
  /-- the future is cancelled by another party -/
  | cancel (i : Nat)
  | install (maxWorkers : Nat) (some_worker : 0 < maxWorkers)
  | shutdown
  | reset
  /-- an executor that was put aside is shut down -/
  | bringDown (executor : Nat)

def step (s : System) : Move → Option System
  | .enter => some { s with calls := s.calls ++ [.entered] }
  | .ensure i => if s.calls[i]? = some .entered then some (s.ensureExecutor.setPhase i .ensured) else none
  | .read i => if s.calls[i]? = some .ensured then some (s.setPhase i (.holding s.executor)) else none
  | .take i =>
    match s.calls[i]? with
    | some (.holding executor) => some (s.takeSlot i executor)
    | _ => none
  | .hand i accepts =>
    match s.calls[i]? with
    | some (.admitted generation none) => some (s.setPhase i (.stranded generation))
    | some (.admitted generation (some executor)) =>
      if accepts then
        if executor ∈ s.down then none else some (s.setPhase i (.queued generation))
      else some ((s.releaseSlot generation).setPhase i .refused)
    | _ => none
  | .start i =>
    match s.calls[i]? with
    | some (.queued generation) => some (s.setPhase i (.running generation))
    | _ => none
  | .finish i =>
    match s.calls[i]? with
    | some (.running generation) => some ((s.releaseSlot generation).setPhase i .finished)
    | _ => none
  | .timeOut i => some (s.cancelFuture i)
  | .cancel i => some (s.cancelFuture i)
  | .install maxWorkers some_worker => some (s.installExecutor maxWorkers some_worker)
  | .shutdown => some s.shutdown
  | .reset => some s.reset
  | .bringDown executor => some { s with down := executor :: s.down }

def initial (maxWorkers : Nat) (some_worker : 0 < maxWorkers) : System := { maxWorkers, some_worker }

/-! ## Slots -/

def Phase.isLive (generation : Nat) : Phase → Bool
  | .admitted own _ => own == generation
  | .queued own => own == generation
  | .running own => own == generation
  | _ => false

def Phase.isStuck (generation : Nat) : Phase → Bool
  | .cancelled own => own == generation
  | .stranded own => own == generation
  | _ => false

def Phase.slot : Phase → Option Nat
  | .admitted own _ => some own
  | .queued own => some own
  | .running own => some own
  | .cancelled own => some own
  | .stranded own => some own
  | _ => none

namespace System

variable {s t : System} {i : Nat} {old new : Phase}

def live (s : System) : Nat := s.calls.countP (·.isLive s.generation)

/-- The calls of the current generation that will never run. -/
def stuck (s : System) : Nat := s.calls.countP (·.isStuck s.generation)

def held (s : System) : Nat := s.calls.countP (·.slot == some s.generation)

/-- The count is that of the live calls, within the bound, and with no live work the next call is admitted. -/
def SlotsFollow (s : System) : Prop :=
  s.inflight ≤ s.maxWorkers ∧ s.inflight = s.live ∧
    (s.live = 0 → ∀ i executor, (s.takeSlot i executor).calls = s.calls.set i (.admitted s.generation executor))

/-- No call of the current generation was cancelled before it started, and none found no executor to submit to. -/
def NoneStuck (s : System) : Prop := ∀ phase ∈ s.calls, phase.isStuck s.generation = false

theorem held_eq (s : System) : s.held = s.live + s.stuck := by
  unfold held live stuck
  induction s.calls with
  | nil => rfl
  | cons phase calls ih =>
    have hone : (phase.slot == some s.generation) = (phase.isLive s.generation || phase.isStuck s.generation) ∧
        ¬ (phase.isLive s.generation = true ∧ phase.isStuck s.generation = true) := by
      cases phase <;> simp [Phase.slot, Phase.isLive, Phase.isStuck]
    rw [countP_cons, countP_cons, countP_cons, ih, hone.1]
    cases hlive : phase.isLive s.generation <;> cases hstuck : phase.isStuck s.generation
    · simp
    · simp; omega
    · simp; omega
    · exact absurd ⟨hlive, hstuck⟩ hone.2

theorem stuck_eq_zero_iff (s : System) : s.stuck = 0 ↔ s.NoneStuck := by
  unfold stuck NoneStuck
  rw [countP_eq_zero]
  simp

/-- The count is that of the calls with a slot, and no slot is of a generation to come. -/
structure Accounted (s : System) : Prop where
  inflight : s.inflight = s.held
  bounded : s.inflight ≤ s.maxWorkers
  past : ∀ phase ∈ s.calls, ∀ own, phase.slot = some own → own ≤ s.generation

theorem countP_set_add {α : Type} (p : α → Bool) {l : List α} {old : α} (hold : l[i]? = some old) (new : α) :
    (l.set i new).countP p + (if p old then 1 else 0) = l.countP p + (if p new then 1 else 0) := by
  induction l generalizing i with
  | nil => simp at hold
  | cons a l ih =>
    cases i with
    | zero =>
      rw [List.getElem?_cons_zero, Option.some.injEq] at hold
      subst hold
      rw [set_cons_zero, countP_cons, countP_cons]
      omega
    | succ i =>
      rw [List.getElem?_cons_succ] at hold
      have := ih hold
      rw [set_cons_succ, countP_cons, countP_cons]
      omega

section

variable (h : s.Accounted)
include h

theorem Accounted.past_set (hnew : ∀ own, new.slot = some own → own ≤ s.generation) :
    ∀ phase ∈ s.calls.set i new, ∀ own, phase.slot = some own → own ≤ s.generation := by
  intro phase hphase
  rcases mem_or_eq_of_mem_set hphase with hmem | rfl
  · exact h.past phase hmem
  · exact hnew

theorem Accounted.keep (hold : s.calls[i]? = some old) (hsame : new.slot = old.slot) : (s.setPhase i new).Accounted := by
  have hcount := countP_set_add (fun phase : Phase => phase.slot == some s.generation) hold new
  rw [hsame] at hcount
  have hheld : (s.setPhase i new).held = s.held := by
    unfold held setPhase
    dsimp only
    omega
  refine ⟨h.inflight.trans hheld.symm, h.bounded, h.past_set fun own hown => ?_⟩
  exact h.past old (mem_of_getElem? hold) own (hsame ▸ hown)

theorem Accounted.release {own : Nat} (hold : s.calls[i]? = some old) (hslot : old.slot = some own)
    (hnew : new.slot = none) : ((s.releaseSlot own).setPhase i new).Accounted := by
  have hcount := countP_set_add (fun phase : Phase => phase.slot == some s.generation) hold new
  have hinflight := h.inflight
  have hbounded := h.bounded
  have hpast : ∀ phase ∈ s.calls.set i new, ∀ own, phase.slot = some own → own ≤ s.generation :=
    h.past_set fun own hown => by simp [hnew] at hown
  unfold releaseSlot
  unfold held at hinflight
  by_cases hown : own = s.generation
  · rw [if_pos hown]
    simp only [hslot, hown, hnew, beq_self_eq_true, if_true, Option.none_beq_some, Bool.false_eq_true, if_false] at hcount
    refine ⟨?_, ?_, hpast⟩
    · unfold held setPhase
      dsimp only
      omega
    · unfold setPhase
      dsimp only
      omega
  · rw [if_neg hown]
    have hother : (some own == some s.generation) = false := by simpa using hown
    simp only [hslot, hother, hnew, Option.none_beq_some, Bool.false_eq_true, if_false] at hcount
    refine ⟨?_, hbounded, hpast⟩
    unfold held setPhase
    dsimp only
    omega

theorem Accounted.takeSlot {executor : Option Nat} (hold : s.calls[i]? = some (.holding executor)) : (s.takeSlot i executor).Accounted := by
  unfold System.takeSlot
  by_cases hfull : s.maxWorkers ≤ s.inflight
  · rw [if_pos hfull]
    exact h.keep hold rfl
  · rw [if_neg hfull]
    have hcount := countP_set_add (fun phase : Phase => phase.slot == some s.generation) hold (.admitted s.generation executor)
    have hinflight := h.inflight
    unfold held at hinflight
    have hheld : ((Phase.admitted s.generation executor).slot == some s.generation) = true := beq_self_eq_true _
    have hfree : ((Phase.holding executor).slot == some s.generation) = false := rfl
    simp only [hheld, hfree, if_true, Bool.false_eq_true, if_false] at hcount
    refine ⟨?_, ?_, h.past_set fun own hown => ?_⟩
    · unfold held setPhase
      dsimp only
      omega
    · unfold setPhase
      dsimp only
      omega
    · cases hown
      exact le_refl _

theorem Accounted.cancelFuture : (s.cancelFuture i).Accounted := by
  unfold System.cancelFuture
  split
  next hold => exact h.keep hold rfl
  next => exact h

theorem Accounted.renew (hinflight : t.inflight = 0) (hgeneration : t.generation = s.generation + 1)
    (hcalls : t.calls = s.calls) : t.Accounted := by
  have hheld : t.held = 0 := by
    unfold held
    rw [countP_eq_zero, hcalls, hgeneration]
    intro phase hphase
    rw [beq_iff_eq]
    intro hslot
    have := h.past phase hphase _ hslot
    omega
  refine ⟨hinflight.trans hheld.symm, by omega, fun phase hphase own hown => ?_⟩
  rw [hcalls] at hphase
  have := h.past phase hphase own hown
  omega

theorem Accounted.step {move : Move} (hstep : SaturatedDispatch.step s move = some t) : t.Accounted := by
  cases move with
  | enter =>
    cases hstep
    refine ⟨?_, h.bounded, fun phase hphase => ?_⟩
    · rw [h.inflight]
      simp [held, Phase.slot]
    · rcases mem_append.mp hphase with hmem | hnew
      · exact h.past phase hmem
      · cases mem_singleton.mp hnew
        nofun
  | ensure i =>
    simp only [SaturatedDispatch.step, Option.ite_none_right_eq_some, Option.some.injEq] at hstep
    obtain ⟨hold, rfl⟩ := hstep
    unfold ensureExecutor
    split
    · exact Accounted.keep ⟨h.inflight, h.bounded, h.past⟩ hold rfl
    · exact h.keep hold rfl
  | read i =>
    simp only [SaturatedDispatch.step, Option.ite_none_right_eq_some, Option.some.injEq] at hstep
    obtain ⟨hold, rfl⟩ := hstep
    exact h.keep hold rfl
  | take i =>
    simp only [SaturatedDispatch.step] at hstep
    split at hstep
    next hold =>
      cases hstep
      exact h.takeSlot hold
    next => cases hstep
  | hand i accepts =>
    simp only [SaturatedDispatch.step] at hstep
    split at hstep
    next hold =>
      cases hstep
      exact h.keep hold rfl
    next hold =>
      split_ifs at hstep
      · cases hstep
        exact h.keep hold rfl
      · cases hstep
        exact h.release hold rfl rfl
    next => cases hstep
  | start i =>
    simp only [SaturatedDispatch.step] at hstep
    split at hstep
    next hold =>
      cases hstep
      exact h.keep hold rfl
    next => cases hstep
  | finish i =>
    simp only [SaturatedDispatch.step] at hstep
    split at hstep
    next hold =>
      cases hstep
      exact h.release hold rfl rfl
    next => cases hstep
  | timeOut i =>
    cases hstep
    exact h.cancelFuture
  | cancel i =>
    cases hstep
    exact h.cancelFuture
  | install maxWorkers some_worker =>
    cases hstep
    exact h.renew rfl rfl rfl
  | shutdown =>
    cases hstep
    exact h.renew rfl rfl rfl
  | reset =>
    cases hstep
    exact h.renew rfl rfl rfl
  | bringDown executor =>
    cases hstep
    exact ⟨h.inflight, h.bounded, h.past⟩

end

theorem Accounted.follows_iff (h : s.Accounted) : s.SlotsFollow ↔ s.NoneStuck := by
  have hcount := h.inflight.trans s.held_eq
  rw [← stuck_eq_zero_iff]
  constructor
  · rintro ⟨-, hlive, -⟩
    omega
  · intro hstuck
    refine ⟨h.bounded, by omega, fun hlive i executor => ?_⟩
    have hsome := s.some_worker
    have hfree : ¬ s.maxWorkers ≤ s.inflight := by omega
    rw [System.takeSlot, if_neg hfree]
    rfl

end System

/-! ## Runs -/

theorem accounted_initial (maxWorkers : Nat) (some_worker : 0 < maxWorkers) : (initial maxWorkers some_worker).Accounted :=
  ⟨rfl, Nat.zero_le _, nofun⟩

/-- The count is that of the live calls exactly when no call of the current generation is stuck. -/
theorem slots_follow_iff {maxWorkers : Nat} {some_worker : 0 < maxWorkers} {moves : List Move} {s : System}
    (hrun : Run.run step (initial maxWorkers some_worker) moves = some s) : s.SlotsFollow ↔ s.NoneStuck := by
  have haccounted : s.Accounted :=
    Run.invariant (fun _ _ _ h hstep => h.step hstep) (accounted_initial maxWorkers some_worker) hrun
  exact haccounted.follows_iff

def served : List Move := [.enter, .ensure 0, .read 0, .take 0, .hand 0 true, .start 0, .finish 0]

def abandoned : List Move := [.enter, .ensure 0, .read 0, .take 0, .hand 0 true, .timeOut 0]

def afterServed : System :=
  { maxWorkers := 1, some_worker := Nat.one_pos, executor := some 0, executors := 1, calls := [.finished] }

def afterAbandoned : System :=
  { maxWorkers := 1, some_worker := Nat.one_pos, executor := some 0, inflight := 1, executors := 1, calls := [.cancelled 0] }

theorem served_follows : afterServed.SlotsFollow ↔ afterServed.NoneStuck :=
  slots_follow_iff (show Run.run step (initial 1 Nat.one_pos) served = some afterServed from rfl)

/-- The slot of the abandoned call is never given back. -/
theorem abandoned_leaks : Run.run step (initial 1 Nat.one_pos) abandoned = some afterAbandoned ∧ ¬ afterAbandoned.SlotsFollow :=
  ⟨rfl, fun hfollow => absurd hfollow.2.1 (by decide)⟩

end RalphWorkflow.SaturatedDispatch
