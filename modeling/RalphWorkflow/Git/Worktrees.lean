import Mathlib.Logic.Function.Basic

/-! What a rebase, a merge and their aborts change: where the branches are, what each worktree has checked out, and the operation in progress there.
A rebase that stops on the way is several commands. -/
namespace RalphWorkflow.Git

structure Commit where
  sha : String
  deriving DecidableEq

inductive Head
  | branch (name : String)
  | detached (commit : Commit)
  deriving DecidableEq

/-- `head-name` and `orig-head`: the branch a rebase was started on, and where it was. -/
structure RebaseInProgress where
  headName : String
  origHead : Commit
  deriving DecidableEq

structure Checkout where
  head : Head
  rebase : Option RebaseInProgress := none
  /-- There is a `MERGE_HEAD`. -/
  merge : Bool := false
  deriving DecidableEq

def Checkout.idle (checkout : Checkout) : Bool := checkout.rebase.isNone && !checkout.merge

structure Repository where
  tips : String → Option Commit
  checkouts : String → Checkout

namespace Repository

def setTip (repo : Repository) (name : String) (tip : Option Commit) : Repository :=
  { repo with tips := Function.update repo.tips name tip }

def setCheckout (repo : Repository) (worktree : String) (checkout : Checkout) : Repository :=
  { repo with checkouts := Function.update repo.checkouts worktree checkout }

section

variable (repo : Repository)

@[simp] theorem setTip_checkouts (name : String) (tip : Option Commit) : (repo.setTip name tip).checkouts = repo.checkouts := rfl

@[simp] theorem setCheckout_tips (worktree : String) (checkout : Checkout) : (repo.setCheckout worktree checkout).tips = repo.tips := rfl

@[simp] theorem setTip_tips_self (name : String) (tip : Option Commit) : (repo.setTip name tip).tips name = tip := by simp [setTip]

theorem setTip_tips_of_ne {name other : String} (tip : Option Commit) (h : other ≠ name) :
    (repo.setTip name tip).tips other = repo.tips other := by simp [setTip, h]

@[simp] theorem setCheckout_checkouts_self (worktree : String) (checkout : Checkout) :
    (repo.setCheckout worktree checkout).checkouts worktree = checkout := by simp [setCheckout]

end

variable {worktree : String} {repo : Repository}

theorem setCheckout_checkouts_of_ne (repo : Repository) {other : String} (checkout : Checkout)
    (h : other ≠ worktree) : (repo.setCheckout worktree checkout).checkouts other = repo.checkouts other := by
  simp [setCheckout, h]

/-- The commit that `HEAD` names; a branch that was never committed to has none. -/
def headCommit (repo : Repository) (worktree : String) : Option Commit :=
  match (repo.checkouts worktree).head with
  | .branch name => repo.tips name
  | .detached commit => some commit

/-! ## Commands -/

/-- `git reset --hard`: moves whatever `HEAD` is, and forgets a merge. -/
def resetHard (repo : Repository) (worktree : String) (commit : Commit) : Repository :=
  let checkout := repo.checkouts worktree
  match checkout.head with
  | .branch name => (repo.setTip name (some commit)).setCheckout worktree { checkout with merge := false }
  | .detached _ => repo.setCheckout worktree { checkout with head := .detached commit, merge := false }

/-- `git rebase --abort`: the branch goes back to where it was and is checked out again. -/
def abortRebase (repo : Repository) (worktree : String) : Repository :=
  match (repo.checkouts worktree).rebase with
  | none => repo
  | some rebase =>
    (repo.setTip rebase.headName (some rebase.origHead)).setCheckout worktree { head := .branch rebase.headName }

def abortMerge (repo : Repository) (worktree : String) : Repository :=
  repo.setCheckout worktree { repo.checkouts worktree with merge := false }

def forgetRebase (repo : Repository) (worktree : String) : Repository :=
  repo.setCheckout worktree { repo.checkouts worktree with rebase := none }

/-- `git checkout`: of a branch that exists; a merge is not carried over. -/
def checkout (repo : Repository) (worktree name : String) : Option Repository :=
  if (repo.tips name).isSome then
    some (repo.setCheckout worktree { repo.checkouts worktree with head := .branch name, merge := false })
  else none

/-- What a rebase or a merge does on its way, as far as other processes can see it. -/
inductive Change
  /-- `HEAD` is detached at the upstream. -/
  | startRebase (upstream : Commit)
  | pick (commit : Commit)
  /-- The branch is moved to the replayed commits; then it is checked out again and the state directory removed. -/
  | landRebase
  | finishRebase
  | abortRebase
  | startMerge
  | commitMerge (commit : Commit)
  | abortMerge
  deriving DecidableEq

def apply (repo : Repository) (worktree : String) : Change → Option Repository
  | .startRebase upstream =>
    match (repo.checkouts worktree).head with
    | .detached _ => none
    | .branch name =>
      if (repo.checkouts worktree).idle then
        (repo.tips name).map fun tip =>
          repo.setCheckout worktree { head := .detached upstream, rebase := some { headName := name, origHead := tip } }
      else none
  | .pick commit =>
    match repo.checkouts worktree with
    | { head := .detached _, rebase := some rebase, merge } =>
      some (repo.setCheckout worktree { head := .detached commit, rebase := some rebase, merge })
    | _ => none
  | .landRebase =>
    match repo.checkouts worktree with
    | { head := .detached commit, rebase := some rebase, .. } => some (repo.setTip rebase.headName (some commit))
    | _ => none
  | .finishRebase =>
    match repo.checkouts worktree with
    | { head := .detached _, rebase := some rebase, .. } =>
      some (repo.setCheckout worktree { head := .branch rebase.headName })
    | _ => none
  | .abortRebase => if (repo.checkouts worktree).rebase.isSome then some (repo.abortRebase worktree) else none
  | .startMerge =>
    if (repo.checkouts worktree).idle then
      some (repo.setCheckout worktree { repo.checkouts worktree with merge := true })
    else none
  | .commitMerge commit =>
    match repo.checkouts worktree with
    | { head := .branch name, rebase := none, merge := true } =>
      some ((repo.setTip name (some commit)).setCheckout worktree { head := .branch name })
    | _ => none
  | .abortMerge => if (repo.checkouts worktree).merge then some (repo.abortMerge worktree) else none

/-! ## What the commands leave alone -/

def StartsNoRebase (before after : Repository) : Prop :=
  ∀ worktree, (after.checkouts worktree).rebase = (before.checkouts worktree).rebase ∨
    (after.checkouts worktree).rebase = none

theorem setCheckout_startsNoRebase {before : Repository} {checkout : Checkout} (hsame : repo.checkouts = before.checkouts)
    (h : checkout.rebase = (before.checkouts worktree).rebase ∨ checkout.rebase = none) :
    StartsNoRebase before (repo.setCheckout worktree checkout) := by
  intro other
  by_cases hother : other = worktree
  · subst hother
    rw [setCheckout_checkouts_self]
    exact h
  · rw [setCheckout_checkouts_of_ne _ _ hother, hsame]
    exact .inl rfl

theorem abortRebase_of_none (h : (repo.checkouts worktree).rebase = none) : repo.abortRebase worktree = repo := by
  simp only [abortRebase, h]

theorem abortRebase_tips {branch name : String}
    (h : ∀ rebase, (repo.checkouts worktree).rebase = some rebase → rebase.headName = branch) (hname : name ≠ branch) :
    (repo.abortRebase worktree).tips name = repo.tips name := by
  unfold abortRebase
  split
  · rfl
  · rename_i rebase hrebase
    rw [setCheckout_tips, setTip_tips_of_ne]
    rw [h rebase hrebase]
    exact hname

theorem abortRebase_startsNoRebase (repo : Repository) (worktree : String) : StartsNoRebase repo (repo.abortRebase worktree) := by
  unfold abortRebase
  split
  · exact fun _ => .inl rfl
  · exact setCheckout_startsNoRebase (setTip_checkouts ..) (.inr rfl)

theorem resetHard_tips {name : String} (commit : Commit) (h : (repo.checkouts worktree).head ≠ .branch name) :
    (repo.resetHard worktree commit).tips name = repo.tips name := by
  unfold resetHard
  dsimp only
  split
  · rename_i other hother
    rw [setCheckout_tips, setTip_tips_of_ne]
    rintro rfl
    exact h hother
  · rfl

theorem resetHard_startsNoRebase (repo : Repository) (worktree : String) (commit : Commit) :
    StartsNoRebase repo (repo.resetHard worktree commit) := by
  unfold resetHard
  dsimp only
  split
  · exact setCheckout_startsNoRebase (setTip_checkouts ..) (.inl rfl)
  · exact setCheckout_startsNoRebase rfl (.inl rfl)

end Repository

end RalphWorkflow.Git
