import RalphWorkflow.Lib.Run

/-! `fast_forward_target` of `ralph/pipeline/auto_integrate_ff.py`, cut at its git commands: between two of them other agents may run theirs. A
command computes from the ref at that moment, and one that raises may have done its work before; reclaiming a worktree leaves the target ref where
it is. -/
namespace RalphWorkflow.Pipeline.AutoIntegrate
open Lib

universe u v

def targetMissing : String := "target branch missing at fast-forward time"
def targetQueryFailed : String := "target branch could not be read at fast-forward time"
def targetNotAncestor : String := "target advanced concurrently (not an ancestor of feature)"
def targetCasMismatch : String := "target advanced concurrently (CAS mismatch)"
def targetWorktreeQueryFailed : String := "target worktree lookup failed"
def targetCheckedOutRefused : String :=
  "target is checked out in a sibling worktree that refused merge --ff-only; " ++
    "shared ref left untouched, next clean seam will retry"

/-! ## The commands that move the ref -/

section Commands

variable {α : Type u} [Preorder α] [DecidableEq α] [DecidableLE α]

/-- `git merge --ff-only` where the target is checked out; a contained commit counts as up to date. -/
def mergeFfOnly (ref : Option α) (feature : α) : Option (Option α) :=
  match ref with
  | none => some (some feature)
  | some sha => if sha ≤ feature then some (some feature) else if feature ≤ sha then some (some sha) else none

def compareAndSwap (ref : Option α) (expected new : α) : Option (Option α) :=
  if ref = some expected then some (some new) else none

end Commands

/-! ## One call -/

inductive Call (α : Type u)
  | gateObserve
  | gateAncestor (observed : α)
  | findMainWorktree
  | worktreeLookup
  | worktreeMerge
  | reclaim
  | worktreeRetry
  | casObserve
  | casAncestor (observed : α)
  | compareAndSwap (expected : α)
  | returned (fastForwarded : Bool) (reason : String)
  | raised
  deriving DecidableEq

inductive Answer
  | works
  | fails
  /-- The worktree list names a worktree for the target, or none. -/
  | found | notCheckedOut
  /-- An exception, after the command did its work or instead of it. -/
  | raises (done : Bool)
  deriving DecidableEq

section Call

variable {α : Type u} [Preorder α] [DecidableEq α] [DecidableLE α]

def observed (ref : Option α) (next : α → Call α) : Call α :=
  match ref with
  | none => .returned false targetMissing
  | some sha => next sha

def moved (ref : Option α) (result : Option (Option α)) (refused : Call α) : Option α × Call α :=
  match result with
  | some ref' => (ref', .returned true "")
  | none => (ref, refused)

def Call.next (reclaimTargetWorktree : Bool) (feature : α) (ref : Option α) : Call α → Answer → Option (Option α × Call α)
  | .gateObserve, .works => some (ref, observed ref .gateAncestor)
  | .gateObserve, .fails => some (ref, .returned false targetQueryFailed)
  | .gateAncestor sha, .works =>
    some (ref, if sha ≤ feature then .findMainWorktree else .returned false targetNotAncestor)
  | .gateAncestor _, .fails => some (ref, .returned false targetNotAncestor)
  | .findMainWorktree, .works => some (ref, .worktreeLookup)
  | .worktreeLookup, .fails => some (ref, .returned false targetWorktreeQueryFailed)
  | .worktreeLookup, .found => some (ref, .worktreeMerge)
  | .worktreeLookup, .notCheckedOut => some (ref, .casObserve)
  | .worktreeMerge, .works => some (moved ref (mergeFfOnly ref feature) refused)
  | .worktreeMerge, .fails => some (ref, refused)
  | .reclaim, .works => some (ref, .worktreeRetry)
  | .reclaim, .fails => some (ref, .returned false targetCheckedOutRefused)
  | .worktreeRetry, .works => some (moved ref (mergeFfOnly ref feature) (.returned false targetCheckedOutRefused))
  | .worktreeRetry, .fails => some (ref, .returned false targetCheckedOutRefused)
  | .casObserve, .works => some (ref, observed ref .casAncestor)
  | .casObserve, .fails => some (ref, .returned false targetQueryFailed)
  | .casAncestor sha, .works =>
    some (ref, if sha ≤ feature then .compareAndSwap sha else .returned false targetNotAncestor)
  | .casAncestor _, .fails => some (ref, .returned false targetNotAncestor)
  | .compareAndSwap expected, .works =>
    some (moved ref (AutoIntegrate.compareAndSwap ref expected feature) (.returned false targetCasMismatch))
  | .compareAndSwap _, .fails => some (ref, .returned false targetCasMismatch)
  | .returned .., _ => none
  | .raised, _ => none
  | _, .raises false => some (ref, .raised)
  | .worktreeMerge, .raises true => some ((moved ref (mergeFfOnly ref feature) .raised).1, .raised)
  | .worktreeRetry, .raises true => some ((moved ref (mergeFfOnly ref feature) .raised).1, .raised)
  | .compareAndSwap expected, .raises true =>
    some ((moved ref (AutoIntegrate.compareAndSwap ref expected feature) .raised).1, .raised)
  | _, _ => none
where
  refused : Call α := if reclaimTargetWorktree then .reclaim else .returned false targetCheckedOutRefused

end Call

/-! ## Agents that share a target -/

structure Landing (α : Type u) where
  feature : α
  reclaimTargetWorktree : Bool := true

structure Fleet (ι : Type v) (α : Type u) where
  ref : Option α
  calls : ι → Call α

inductive Move (ι : Type v) (α : Type u)
  | command (agent : ι) (answer : Answer)
  /-- Someone else fast-forwards the target. -/
  | other (sha : α)

section Fleet

variable {ι : Type v} {α : Type u} [DecidableEq ι] [Preorder α] [DecidableEq α] [DecidableLE α]

def Fleet.start (ref : Option α) : Fleet ι α := { ref := ref, calls := fun _ => .gateObserve }

def Fleet.step (landings : ι → Landing α) (fleet : Fleet ι α) : Move ι α → Option (Fleet ι α)
  | .command agent answer =>
    ((fleet.calls agent).next (landings agent).reclaimTargetWorktree (landings agent).feature fleet.ref answer).map
      fun (ref, call) => { ref := ref, calls := Function.update fleet.calls agent call }
  | .other sha =>
    match fleet.ref with
    | none => none
    | some current => if current ≤ sha then some { fleet with ref := some sha } else none

end Fleet

end RalphWorkflow.Pipeline.AutoIntegrate
