import Mathlib.Data.PNat.Notation
import RalphWorkflow.Lib.Deque

/-! `ralph/agents/invoke/_bounded_lines_queue.py`: a queue of lines that drops the oldest when it is full, and hands what it drops to a
sink. What is put in, read and handed on is kept beside it, to be told apart afterwards. -/
namespace RalphWorkflow.Agents.LinesQueue
open List
open Lib.Deque (push newest foldl_push newest_of_fits length_newest)

universe u v

variable {α : Type u} {ε : Type v} {maxlen : ℕ+}

abbrev Sink (ε : Type v) (α : Type u) := List α → α → Except ε Unit

/-- A `deque` with a maximal length. -/
structure Deque (α : Type u) (maxlen : ℕ+) where
  lines : List α := []
  fits : lines.length ≤ maxlen := by simp

@[ext]
theorem Deque.ext {deque other : Deque α maxlen} (h : deque.lines = other.lines) : deque = other := by
  cases deque
  cases other
  cases h
  rfl

/-- The oldest goes when there is no room. -/
def Deque.append (deque : Deque α maxlen) (line : α) : Deque α maxlen where
  lines := push maxlen deque.lines line
  fits := by
    unfold push
    rw [length_drop, length_append, length_singleton]
    omega

def Deque.extend (deque : Deque α maxlen) (lines : List α) : Deque α maxlen := lines.foldl Deque.append deque

def Deque.popleft (deque : Deque α maxlen) : Option (α × Deque α maxlen) :=
  match deque with
  | ⟨[], _⟩ => none
  | ⟨line :: rest, hfits⟩ => some (line, ⟨rest, Nat.le_of_succ_le hfits⟩)

structure BoundedLinesQueue (α : Type u) (maxlen : ℕ+) where
  deque : Deque α maxlen := {}
  /-- What the sink was handed. -/
  handed : List α := []
  put : List α := []
  popped : List α := []

/-- Whatever is raised is suppressed. -/
def notify (sink : Sink ε α) (handed : List α) (line : α) : List α :=
  match sink handed line with
  | .ok () => handed ++ [line]
  | .error _ => handed ++ [line]

/-- What the incoming lines will displace, of the queue and of themselves. -/
def evictFor (sink : Option (Sink ε α)) (queue : BoundedLinesQueue α maxlen) (incoming : List α) : List α :=
  match sink with
  | none => queue.handed
  | some sink =>
    if incoming.isEmpty then queue.handed
    else
      let overflow := queue.deque.lines.length + incoming.length - maxlen
      ((queue.deque.lines ++ incoming).take overflow).foldl (notify sink) queue.handed

inductive Call (α : Type u)
  | append (line : α)
  | extend (lines : List α)
  | popleft
  | snapshot

def step (sink : Option (Sink ε α)) (queue : BoundedLinesQueue α maxlen) : Call α → BoundedLinesQueue α maxlen
  | .append line =>
    { queue with handed := evictFor sink queue [line], deque := queue.deque.append line, put := queue.put ++ [line] }
  | .extend lines =>
    { queue with handed := evictFor sink queue lines, deque := queue.deque.extend lines, put := queue.put ++ lines }
  | .popleft =>
    match queue.deque.popleft with
    | none => queue
    | some (line, deque) => { queue with deque, popped := queue.popped ++ [line] }
  | .snapshot => queue

def after (sink : Option (Sink ε α)) (maxlen : ℕ+) (calls : List (Call α)) : BoundedLinesQueue α maxlen :=
  calls.foldl (step sink) {}

/-! ## One call -/

variable {queue : BoundedLinesQueue α maxlen} {sink : Sink ε α}

theorem notify_eq (handed : List α) (line : α) : notify sink handed line = handed ++ [line] := by
  unfold notify
  cases sink handed line <;> rfl

theorem notify_all (lines handed : List α) : lines.foldl (notify sink) handed = handed ++ lines := by
  induction lines generalizing handed with
  | nil => rw [foldl_nil, append_nil]
  | cons line rest ih => rw [foldl_cons, ih, notify_eq, append_assoc, singleton_append]

theorem Deque.extend_lines (deque : Deque α maxlen) (lines : List α) : (deque.extend lines).lines = newest maxlen (deque.lines ++ lines) := by
  have hone (lines : List α) (deque : Deque α maxlen) : (lines.foldl Deque.append deque).lines = lines.foldl (push maxlen) deque.lines := by
    induction lines generalizing deque with
    | nil => rfl
    | cons line rest ih => exact ih (deque.append line)
  calc (deque.extend lines).lines = lines.foldl (push maxlen) (newest maxlen deque.lines) := by rw [newest_of_fits deque.fits, ← hone, extend]
    _ = newest maxlen (deque.lines ++ lines) := foldl_push _ _ _

theorem evicted_append_kept (queue : BoundedLinesQueue α maxlen) (sink : Sink ε α) (lines : List α) :
    ∃ displaced, evictFor (some sink) queue lines = queue.handed ++ displaced ∧
      displaced ++ (queue.deque.extend lines).lines = queue.deque.lines ++ lines ∧
      (displaced ≠ [] → (queue.deque.extend lines).lines.length = maxlen) := by
  refine ⟨(queue.deque.lines ++ lines).take (queue.deque.lines.length + lines.length - maxlen), ?_, ?_, ?_⟩
  · have hfits := queue.deque.fits
    cases lines with
    | nil =>
      have hroom : queue.deque.lines.length + 0 - maxlen = 0 := Nat.sub_eq_zero_of_le hfits
      rw [length_nil, hroom, take_zero, append_nil]
      rfl
    | cons line rest => exact notify_all _ _
  · rw [Deque.extend_lines, newest, length_append, take_append_drop]
  · intro hdisplaced
    have hoverflow : queue.deque.lines.length + lines.length - maxlen ≠ 0 := by
      intro hzero
      rw [hzero, take_zero] at hdisplaced
      exact hdisplaced rfl
    rw [Deque.extend_lines, length_newest, length_append]
    omega

/-! ## A run of calls -/

inductive Exit
  | sink
  | popleft
  deriving DecidableEq

/-- Every line put in has left by one of the two ways, each way in order, or is queued after all that left. -/
def Conserved (queue : BoundedLinesQueue α maxlen) : Prop :=
  ∃ gone : List (α × Exit), queue.put = gone.map Prod.fst ++ queue.deque.lines ∧
    queue.handed = (gone.filter (·.2 = .sink)).map Prod.fst ∧ queue.popped = (gone.filter (·.2 = .popleft)).map Prod.fst

/-- The sink is handed lines only when the queue is full of newer ones. -/
def HandsOver (queue next : BoundedLinesQueue α maxlen) : Prop :=
  ∃ displaced, next.handed = queue.handed ++ displaced ∧
    (displaced ≠ [] → next.deque.lines.length = maxlen ∧ displaced ++ next.deque.lines <:+ next.put)

theorem filter_leaving (gone : List α) (exit other : Exit) :
    ((gone.map fun line => (line, exit)).filter (·.2 = other)).map Prod.fst = if exit = other then gone else [] := by
  induction gone with
  | nil => simp
  | cons line rest ih =>
    by_cases hsame : exit = other
    · simpa [hsame] using ih
    · simp [hsame]

theorem Conserved.leave (h : Conserved queue) {next : BoundedLinesQueue α maxlen} (exit : Exit) (gone kept lines : List α)
    (hsplit : gone ++ kept = queue.deque.lines ++ lines) (hput : next.put = queue.put ++ lines)
    (hkept : next.deque.lines = kept)
    (hhanded : next.handed = queue.handed ++ if exit = .sink then gone else [])
    (hpopped : next.popped = queue.popped ++ if exit = .popleft then gone else []) : Conserved next := by
  obtain ⟨earlier, hearlier, hsink, hpop⟩ := h
  refine ⟨earlier ++ gone.map fun line => (line, exit), ?_, ?_, ?_⟩
  · rw [hput, hearlier, append_assoc, ← hsplit, hkept]
    simp [Function.comp_def]
  · rw [hhanded, hsink, filter_append, map_append, filter_leaving]
  · rw [hpopped, hpop, filter_append, map_append, filter_leaving]

section

variable (sink : Sink ε α)

theorem step_extend (lines : List α) (h : Conserved queue) :
    Conserved (step (some sink) queue (.extend lines)) ∧ HandsOver queue (step (some sink) queue (.extend lines)) := by
  obtain ⟨displaced, hhanded, hsplit, hfull⟩ := evicted_append_kept queue sink lines
  refine ⟨h.leave .sink displaced _ lines hsplit rfl rfl hhanded (by simp [step]), displaced, hhanded, fun hdisplaced => ?_⟩
  refine ⟨hfull hdisplaced, ?_⟩
  obtain ⟨gone, hput, -, -⟩ := h
  refine ⟨gone.map Prod.fst, ?_⟩
  calc gone.map Prod.fst ++ (displaced ++ (queue.deque.extend lines).lines) = gone.map Prod.fst ++ (queue.deque.lines ++ lines) := by rw [hsplit]
    _ = queue.put ++ lines := by rw [hput, append_assoc]

theorem step_append (sink : Option (Sink ε α)) (queue : BoundedLinesQueue α maxlen) (line : α) :
    step sink queue (.append line) = step sink queue (.extend [line]) := rfl

theorem step_popleft (h : Conserved queue) : Conserved (step (some sink) queue .popleft) ∧ HandsOver queue (step (some sink) queue .popleft) := by
  obtain ⟨⟨lines, hfits⟩, handed, put, popped⟩ := queue
  cases lines with
  | nil => exact ⟨h, [], (append_nil _).symm, fun hnone => absurd rfl hnone⟩
  | cons line rest =>
    refine ⟨h.leave .popleft [line] rest [] ?_ ?_ rfl ?_ rfl, [], ?_, ?_⟩
    · simp
    · simp [step, Deque.popleft]
    · simp [step, Deque.popleft]
    · simp [step, Deque.popleft]
    · exact fun hnone => absurd rfl hnone

theorem step_conserves (call : Call α) (h : Conserved queue) :
    Conserved (step (some sink) queue call) ∧ HandsOver queue (step (some sink) queue call) := by
  cases call with
  | append line =>
    rw [step_append]
    exact step_extend sink [line] h
  | extend lines => exact step_extend sink lines h
  | popleft => exact step_popleft sink h
  | snapshot => exact ⟨h, [], (append_nil _).symm, fun hnone => absurd rfl hnone⟩

theorem conserved_after (calls : List (Call α)) (h : Conserved queue) : Conserved (calls.foldl (step (some sink)) queue) := by
  induction calls generalizing queue with
  | nil => exact h
  | cons call rest ih => exact ih (step_conserves sink call h).1

theorem step_sink {ζ : Type v} (other : Sink ζ α) (queue : BoundedLinesQueue α maxlen) (call : Call α) :
    step (some sink) queue call = step (some other) queue call := by
  have hevict (lines : List α) : evictFor (some sink) queue lines = evictFor (some other) queue lines := by
    unfold evictFor
    simp only [notify_all]
  cases call with
  | append line => simp only [step, hevict]
  | extend lines => simp only [step, hevict]
  | popleft => rfl
  | snapshot => rfl

end

end RalphWorkflow.Agents.LinesQueue
