import Mathlib.Data.List.Basic

/-! What is put at the end of a full deque takes the place of what is first. -/
namespace RalphWorkflow.Lib.Deque
open List

universe u

variable {α : Type u} {maxlen : Nat} {xs : List α}

def push (maxlen : Nat) (xs : List α) (x : α) : List α := (xs ++ [x]).drop (xs.length + 1 - maxlen)

def newest (maxlen : Nat) (xs : List α) : List α := xs.drop (xs.length - maxlen)

theorem length_newest (maxlen : Nat) (xs : List α) : (newest maxlen xs).length = min maxlen xs.length := by
  unfold newest
  rw [length_drop]
  omega

theorem newest_of_fits (h : xs.length ≤ maxlen) : newest maxlen xs = xs := by
  unfold newest
  rw [Nat.sub_eq_zero_of_le h, drop_zero]

theorem push_newest (maxlen : Nat) (xs : List α) (x : α) : push maxlen (newest maxlen xs) x = newest maxlen (xs ++ [x]) := by
  have hgone : xs.length - maxlen ≤ xs.length := Nat.sub_le _ _
  unfold push newest
  rw [← drop_append_of_le_length hgone, drop_drop, length_drop, length_append, length_singleton]
  congr 1
  omega

theorem foldl_push (maxlen : Nat) (xs ys : List α) : ys.foldl (push maxlen) (newest maxlen xs) = newest maxlen (xs ++ ys) := by
  induction ys generalizing xs with
  | nil => rw [foldl_nil, append_nil]
  | cons y ys ih => rw [foldl_cons, push_newest, ih, append_assoc, singleton_append]

end RalphWorkflow.Lib.Deque
