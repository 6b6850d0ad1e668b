import RalphWorkflow.Pipeline.AutoIntegrate.CrashRecovery
import RalphWorkflow.Proof.Integration.Landing

/-!
# The commands of a recovery
-/

/-! ## What a recovery may move, and what it relies on

A recovery that works on a record moves the branch of the interrupted attempt, and the target only to the integrated commit. The invariant says what
each point of an attempt or a recovery has found out. -/

namespace RalphWorkflow.Integration

open Git Lib Pipeline Pipeline.AutoIntegrate Pipeline.AutoIntegrate.CrashRecovery


/-! ## Landing forward -/

section Ref

universe u

variable {α : Type u}

/-- The target was seen, unless nothing was read yet or nothing will be done any more. -/
def Seen (ref : Option α) : Call α → Prop
  | .gateObserve | .returned .. | .raised => True
  | _ => ref.isSome = true

theorem Seen.of_isSome {ref : Option α} (h : ref.isSome = true) (call : Call α) : Seen ref call := by
  cases call with
  | gateObserve | returned | raised => trivial
  | _ => exact h

theorem moved_fst (ref : Option α) (result : Option (Option α)) (refused : Call α) :
    (moved ref result refused).1 = ref ∨ result = some (moved ref result refused).1 := by
  cases result with
  | none => exact .inl rfl
  | some after => exact .inr rfl

variable [Preorder α] [DecidableEq α] [DecidableLE α]

theorem next_ref {reclaim : Bool} {feature : α} {ref ref' : Option α} {call call' : Call α} {answer : Answer}
    (hnext : call.next reclaim feature ref answer = some (ref', call')) :
    ref' = ref ∨ mergeFfOnly ref feature = some ref' ∨
      ∃ expected, call = .compareAndSwap expected ∧ AutoIntegrate.compareAndSwap ref expected feature = some ref' := by
  unfold Call.next at hnext
  split at hnext
  all_goals first
    | contradiction
    | obtain rfl := congrArg Prod.fst (Option.some.inj hnext)
  all_goals first
    | exact .inl rfl
    | exact (moved_fst ref _ _).imp_right .inl
    | exact (moved_fst ref _ _).imp_right fun h => .inr ⟨_, rfl, h⟩

theorem next_of_none {reclaim : Bool} {feature : α} {ref' : Option α} {call call' : Call α} {answer : Answer}
    (hseen : Seen none call) (hnext : call.next reclaim feature none answer = some (ref', call')) :
    ref' = none ∧ Seen none call' := by
  cases call with
  | gateObserve =>
    cases answer with
    | works | fails =>
      cases hnext
      exact ⟨rfl, trivial⟩
    | found | notCheckedOut => cases hnext
    | raises done =>
      cases done with
      | true => cases hnext
      | false =>
        cases hnext
        exact ⟨rfl, trivial⟩
  | returned | raised => cases hnext
  | _ => exact absurd hseen (by simp [Seen])

theorem next_forward {reclaim : Bool} {feature : α} {ref ref' : Option α} {call call' : Call α} {answer : Answer}
    (hsane : Sane feature ref call) (hseen : Seen ref call) (hnext : call.next reclaim feature ref answer = some (ref', call')) :
    (ref' = ref ∨ ref' = some feature ∧ ∃ old, ref = some old ∧ old ≤ feature) ∧ Sane feature ref' call' ∧ Seen ref' call' := by
  obtain ⟨hadv, hsane'⟩ := next_lands hsane hnext
  cases ref with
  | none =>
    obtain ⟨rfl, hseen'⟩ := next_of_none hseen hnext
    exact ⟨.inl rfl, hsane', hseen'⟩
  | some old =>
    obtain ⟨sha, hsha, -⟩ := hadv old rfl
    refine ⟨?_, hsane', Seen.of_isSome (by rw [hsha]; rfl) call'⟩
    rcases next_ref hnext with hsame | hmerge | ⟨expected, rfl, hswap⟩
    · exact .inl hsame
    · simp only [mergeFfOnly] at hmerge
      split at hmerge
      · rename_i hle
        cases hmerge
        exact .inr ⟨rfl, old, rfl, hle⟩
      · split at hmerge
        · cases hmerge
          exact .inl rfl
        · cases hmerge
    · obtain ⟨hexpected, hafter⟩ := Option.ite_none_right_eq_some.mp hswap
      cases hafter
      cases hexpected
      exact .inr ⟨rfl, old, rfl, hsane⟩

end Ref

/-! ## What is asked of a recovery -/

/-- The branch is checked out, or `HEAD` is detached in a rebase. -/
def onBranch (branch : String) (checkout : Checkout) : Bool :=
  match checkout.head with
  | .branch name => name = branch
  | .detached _ => checkout.rebase.isSome

def recordedCommit (record : IntegrationRecord) : Option String :=
  match record.phase with
  | .integrating => some record.preFeatureSha
  | .integrated => record.integratedFeatureSha

structure Restored (ws : Workspace) (branch : String) (record : IntegrationRecord) (repo : Repository) : Prop where
  idle : (repo.checkouts (operationRoot ws record)).idle = true
  commit : ∃ sha, recordedCommit record = some sha ∧ repo.tips branch = some ⟨sha⟩

section Exact

variable [Preorder Commit]

/-- The step moves the target of a complete integration forward. -/
def ForwardToIntegrated (s t : State) (name : String) : Prop :=
  ∃ record featureSha old, s.record = some record ∧ record.phase = .integrated ∧
    record.integratedFeatureSha = some featureSha ∧ name = record.target ∧ s.repo.tips name = some old ∧
    old ≤ ⟨featureSha⟩ ∧ t.repo.tips name = some ⟨featureSha⟩

structure Exact (ws : Workspace) (s t : State) : Prop where
  branches : ∀ name, name ≠ s.branch → t.repo.tips name = s.repo.tips name ∨ ForwardToIntegrated s t name
  cleared : ∀ record, s.record = some record → t.record = none → Restored ws s.branch record t.repo

def RecoversExactly (ws : Workspace) (s : State) (action : Action) (t : State) : Prop :=
  ∀ pc answer text, s.process = .recovery pc → action = .command answer text → Exact ws s t

end Exact

/-- A `reset_hard` finds the interrupted attempt's branch checked out, or `HEAD` detached in its rebase. -/
def resetsItsOwn (ws : Workspace) (s : State) : Action → Bool
  | .command .. =>
    match s.process with
    | .recovery (.resetHard record _) => onBranch s.branch (s.repo.checkouts (operationRoot ws record))
    | _ => true
  | _ => true

/-! ## The invariant -/

def Owns (branch : String) (checkout : Checkout) : Prop :=
  ∀ rebase, checkout.rebase = some rebase → rebase.headName = branch

structure Integrated (ws : Workspace) (repo : Repository) (branch worktree : String) (record : IntegrationRecord) : Prop where
  root : worktree = ws.root
  target : record.target ≠ branch
  idle : (repo.checkouts ws.root).idle = true
  tip : ∃ featureSha, record.integratedFeatureSha = some featureSha ∧ repo.tips branch = some ⟨featureSha⟩

structure Describes (ws : Workspace) (repo : Repository) (branch worktree : String) (record : IntegrationRecord) : Prop where
  root : operationRoot ws record = worktree
  integrated : record.phase = .integrated → Integrated ws repo branch worktree record

structure OnTheWay {α : Type} [Preorder α] (feature : α) (ref : Option α) (call : Call α) : Prop where
  pending : call ≠ .raised ∧ ∀ fastForwarded reason, call ≠ .returned fastForwarded reason
  sane : Sane feature ref call
  seen : Seen ref call

section Invariant

variable [Preorder Commit] (ws : Workspace) (repo : Repository) (disk : Option IntegrationRecord) (branch worktree : String)

def RecoveryOk : Recovery → Prop
  | .rebaseInProgress record | .abortRebase record | .mergeState record _ | .abortMerge record _
  | .mergeStateAfterAbort record _ => disk = some record
  | .targetSha record _ | .resetHard record _ => disk = some record ∧ record.phase = .integrating
  | .rebaseGone record =>
    disk = some record ∧ record.phase = .integrating ∧ onBranch branch (repo.checkouts worktree) = true
  | .mergeGone record =>
    disk = some record ∧ record.phase = .integrating ∧ onBranch branch (repo.checkouts worktree) = true ∧
      (repo.checkouts worktree).rebase = none
  | .headMatches record =>
    disk = some record ∧ record.phase = .integrating ∧ onBranch branch (repo.checkouts worktree) = true ∧
      (repo.checkouts worktree).idle = true
  | .refreshTarget record featureSha | .targetLanded record featureSha _ | .targetIsAncestor record featureSha _ =>
    disk = some record ∧ record.phase = .integrated ∧ record.integratedFeatureSha = some featureSha
  | .landing record featureSha _ call =>
    disk = some record ∧ record.phase = .integrated ∧ record.integratedFeatureSha = some featureSha ∧
      OnTheWay ⟨featureSha⟩ (repo.tips record.target) call
  | .verifyMarkers record _ _ | .verifyHead record _ _ => disk = some record ∧ record.phase = .integrated
  | .clearRecord _ => ∀ record, disk = some record → Restored ws branch record repo
  | _ => True

structure Started (record : IntegrationRecord) : Prop where
  root : operationRoot ws record = worktree
  phase : record.phase = .integrating
  head : onBranch branch (repo.checkouts worktree) = true
  target : record.operationKind = .featureIntegrate → record.target ≠ branch

def AttemptOk : AttemptPoint → Prop
  | .recording record => Started ws repo branch worktree record
  | .working record =>
    Started ws repo branch worktree record ∧ ∃ current, disk = some current ∧ current.phase = .integrating
  | .flipping record => Describes ws repo branch worktree record ∧ record.phase = .integrated
  | .landing record _ _ => record.target ≠ branch
  | .ending => True

def ProcessOk : Process → Prop
  | .none => True
  | .attempt point => AttemptOk ws repo disk branch worktree point
  | .recovery pc => RecoveryOk ws repo disk branch worktree pc

end Invariant

structure Sound [Preorder Commit] (ws : Workspace) (s : State) : Prop where
  owned : ∀ worktree, worktree = ws.root ∨ worktree = s.worktree → Owns s.branch (s.repo.checkouts worktree)
  record : ∀ record, s.record = some record → Describes ws s.repo s.branch s.worktree record
  process : ProcessOk ws s.repo s.record s.branch s.worktree s.process

end RalphWorkflow.Integration

namespace RalphWorkflow.Integration

open Git Lib Pipeline Pipeline.AutoIntegrate Pipeline.AutoIntegrate.CrashRecovery Repository Recovery


/-! ## Commands of a recovery -/

section Recovery

variable {ws : Workspace} {repo : Repository} {disk : Option IntegrationRecord} {branch worktree : String}

variable {checkout : Checkout} {record : IntegrationRecord}

theorem idle_rebase (h : checkout.idle = true) : checkout.rebase = none := by
  simp only [Checkout.idle, Bool.and_eq_true, Option.isNone_iff_eq_none] at h
  exact h.1

theorem idle_of_parts (hrebase : checkout.rebase = none) (hmerge : checkout.merge = false) : checkout.idle = true := by
  simp [Checkout.idle, hrebase, hmerge]

theorem onBranch_head (h : onBranch branch checkout = true) (hrebase : checkout.rebase = none) : checkout.head = .branch branch := by
  unfold onBranch at h
  split at h
  · rename_i name hhead
    rw [hhead, of_decide_eq_true h]
  · rw [hrebase] at h
    cases h

theorem onBranch_ne {name : String} (h : onBranch branch checkout = true) (hname : name ≠ branch) : checkout.head ≠ .branch name := by
  intro hhead
  simp only [onBranch, hhead, decide_eq_true_eq] at h
  exact hname h

theorem Integrated.frame {after : Repository} (h : Integrated ws repo branch worktree record)
    (htips : after.tips branch = repo.tips branch) (hidle : (after.checkouts ws.root).idle = true) :
    Integrated ws after branch worktree record where
  root := h.root
  target := h.target
  idle := hidle
  tip := by rw [htips]; exact h.tip

theorem resetHard_onBranch (commit : Commit) (h : onBranch branch (repo.checkouts worktree) = true) :
    onBranch branch ((repo.resetHard worktree commit).checkouts worktree) = true := by
  cases hhead : (repo.checkouts worktree).head with
  | branch name =>
    simp only [onBranch, hhead] at h
    simp only [Repository.resetHard, hhead, setCheckout_checkouts_self, onBranch]
    exact h
  | detached old =>
    simp only [onBranch, hhead] at h
    simp only [Repository.resetHard, hhead, setCheckout_checkouts_self, onBranch]
    exact h

structure Harmless (ws : Workspace) (repo : Repository) (disk : Option IntegrationRecord) (branch worktree : String)
    (after : Repository) : Prop where
  tips : ∀ name, name ≠ branch → after.tips name = repo.tips name
  rebases : repo.StartsNoRebase after
  record : ∀ record, disk = some record → Describes ws after branch worktree record

theorem Harmless.refl (hrecord : ∀ record, disk = some record → Describes ws repo branch worktree record) :
    Harmless ws repo disk branch worktree repo where
  tips := fun _ _ => rfl
  rebases := fun _ => .inl rfl
  record := hrecord

theorem Describes.survives {after : Repository} (h : Describes ws repo branch worktree record)
    (hquiet : (repo.checkouts ws.root).idle = true → worktree = ws.root →
      after.tips branch = repo.tips branch ∧ (after.checkouts ws.root).idle = true) :
    Describes ws after branch worktree record where
  root := h.root
  integrated := fun hphase => by
    have hdone := h.integrated hphase
    obtain ⟨htip, hidle⟩ := hquiet hdone.idle hdone.root
    exact hdone.frame htip hidle

theorem abortRebase_harmless {place : String} (hplace : place = ws.root ∨ place = worktree) (howned : Owns branch (repo.checkouts place))
    (hrecord : ∀ record, disk = some record → Describes ws repo branch worktree record) :
    Harmless ws repo disk branch worktree (repo.abortRebase place) where
  tips := fun name hname => abortRebase_tips howned hname
  rebases := repo.abortRebase_startsNoRebase place
  record := fun record hdisk => (hrecord record hdisk).survives fun hidle hroot => by
    have hroot' : place = ws.root := hplace.elim id fun h => h.trans hroot
    rw [hroot', abortRebase_of_none (idle_rebase hidle)]
    exact ⟨rfl, hidle⟩

theorem endsOperation_harmless {place : String} (hrebase : checkout.rebase = (repo.checkouts place).rebase ∨ checkout.rebase = none)
    (hmerge : checkout.merge = (repo.checkouts place).merge ∨ checkout.merge = false)
    (hrecord : ∀ record, disk = some record → Describes ws repo branch worktree record) :
    Harmless ws repo disk branch worktree (repo.setCheckout place checkout) where
  tips := fun _ _ => rfl
  rebases := setCheckout_startsNoRebase rfl hrebase
  record := fun record hdisk => (hrecord record hdisk).survives fun hidle _ => by
    refine ⟨rfl, ?_⟩
    by_cases hroot : ws.root = place
    · subst hroot
      rw [setCheckout_checkouts_self]
      simp only [Checkout.idle, Bool.and_eq_true, Option.isNone_iff_eq_none, Bool.not_eq_true'] at hidle
      refine idle_of_parts ?_ ?_
      · exact hrebase.elim (fun h => h.trans hidle.1) id
      · exact hmerge.elim (fun h => h.trans hidle.2) id
    · rw [setCheckout_checkouts_of_ne _ _ hroot]
      exact hidle

theorem resetHard_harmless {commit : Commit} (hhead : onBranch branch (repo.checkouts worktree) = true)
    (hroot : ∀ record, disk = some record → operationRoot ws record = worktree)
    (hphase : ∀ record, disk = some record → record.phase = .integrating) :
    Harmless ws repo disk branch worktree (repo.resetHard worktree commit) where
  tips := fun name hname => resetHard_tips commit (onBranch_ne hhead hname)
  rebases := repo.resetHard_startsNoRebase worktree commit
  record := fun record hdisk =>
    { root := hroot record hdisk
      integrated := fun hdone => by
        rw [hphase record hdisk] at hdone
        cases hdone }

theorem effect_record (pc : Recovery) :
    (pc.effect ws repo disk).2 = disk ∨ (∃ outcome, pc = .clearRecord outcome) ∧ (pc.effect ws repo disk).2 = none := by
  cases pc with
  | clearRecord outcome => exact .inr ⟨⟨outcome, rfl⟩, rfl⟩
  | _ => exact .inl rfl

theorem Integrated.restored (h : Describes ws repo branch worktree record)
    (hphase : record.phase = .integrated) : Restored ws branch record repo where
  idle := by
    rw [h.root, (h.integrated hphase).root]
    exact (h.integrated hphase).idle
  commit := by
    simp only [recordedCommit, hphase]
    exact (h.integrated hphase).tip

variable [Preorder Commit]

theorem effect_harmless (pc : Recovery) (howned : ∀ place, place = ws.root ∨ place = worktree → Owns branch (repo.checkouts place))
    (hrecord : ∀ record, disk = some record → Describes ws repo branch worktree record)
    (hok : RecoveryOk ws repo disk branch worktree pc)
    (hreset : ∀ record abortFailed, pc = .resetHard record abortFailed →
      onBranch branch (repo.checkouts (operationRoot ws record)) = true) :
    Harmless ws repo disk branch worktree (pc.effect ws repo disk).1 := by
  cases pc with
  | removeStateDir => exact endsOperation_harmless (.inr rfl) (.inl rfl) hrecord
  | abortUnowned => exact abortRebase_harmless (.inl rfl) (howned _ (.inl rfl)) hrecord
  | unownedMerge => exact endsOperation_harmless (.inl rfl) (.inr rfl) hrecord
  | abortRebase record =>
    have hroot := (hrecord record hok).root
    exact abortRebase_harmless (.inr hroot) (howned _ (.inr hroot)) hrecord
  | abortMerge record abortFailed => exact endsOperation_harmless (.inl rfl) (.inr rfl) hrecord
  | resetHard record abortFailed =>
    have hroot := (hrecord record hok.1).root
    have hhead := hreset record abortFailed rfl
    show Harmless ws repo disk branch worktree (repo.resetHard (operationRoot ws record) _)
    rw [hroot] at hhead ⊢
    refine resetHard_harmless hhead (fun current h => (hrecord current h).root) fun current h => ?_
    rw [hok.1] at h
    cases h
    exact hok.2
  | _ => exact Harmless.refl hrecord

theorem clear_integrated (outcome : RebaseState) (hdisk : disk = some record)
    (hrecord : ∀ record, disk = some record → Describes ws repo branch worktree record)
    (hphase : record.phase = .integrated) : RecoveryOk ws repo disk branch worktree (.clearRecord outcome) := by
  intro current hcurrent
  rw [hdisk] at hcurrent
  cases hcurrent
  exact Integrated.restored (hrecord record hdisk) hphase

theorem reconcile_ok (abortFailed : Bool) (hdisk : disk = some record)
    (hrecord : ∀ record, disk = some record → Describes ws repo branch worktree record) :
    RecoveryOk ws repo disk branch worktree (reconcile ws record abortFailed) := by
  unfold reconcile
  split
  · rename_i hphase
    split
    · exact ⟨hdisk, hphase⟩
    · exact ⟨hdisk, hphase⟩
  · rename_i hphase
    split
    · trivial
    · obtain ⟨featureSha, hsha, -⟩ := ((hrecord record hdisk).integrated hphase).tip
      simp only [continueFastForward, hsha]
      split
      · exact ⟨hdisk, hphase, hsha⟩
      · exact ⟨hdisk, hphase, hsha⟩

theorem settle_ok (refresh : Option Refresh) (verdict : Verdict) (hdisk : disk = some record)
    (hrecord : ∀ record, disk = some record → Describes ws repo branch worktree record)
    (hphase : record.phase = .integrated) : RecoveryOk ws repo disk branch worktree (settle record refresh verdict) := by
  cases verdict with
  | landed => exact clear_integrated _ hdisk hrecord hphase
  | raised text => trivial
  | refused reason =>
    unfold settle
    dsimp only
    split
    · exact clear_integrated _ hdisk hrecord hphase
    · trivial

theorem afterTargetSha_ok (abortFailed : Bool) (targetSha : Option String) (h : disk = some record ∧ record.phase = .integrating) :
    RecoveryOk ws repo disk branch worktree (afterTargetSha record abortFailed targetSha) := by
  unfold afterTargetSha
  split
  · exact h
  · trivial

theorem afterRefresh_ok {featureSha : String} (refresh : Refresh)
    (h : disk = some record ∧ record.phase = .integrated ∧ record.integratedFeatureSha = some featureSha) :
    RecoveryOk ws repo disk branch worktree (afterRefresh record featureSha refresh) := by
  unfold afterRefresh
  split
  · exact h
  · trivial

theorem afterAncestry_ok {featureSha : String} (refresh : Option Refresh) (ancestor : Bool)
    (hrecord : ∀ record, disk = some record → Describes ws repo branch worktree record)
    (h : disk = some record ∧ record.phase = .integrated ∧ record.integratedFeatureSha = some featureSha) :
    RecoveryOk ws repo disk branch worktree (afterAncestry record featureSha refresh ancestor) := by
  unfold afterAncestry
  split
  · exact ⟨h.1, h.2.1, h.2.2, ⟨⟨nofun, nofun⟩, trivial, trivial⟩⟩
  · exact clear_integrated _ h.1 hrecord h.2.1

theorem afterReset_ok {abortFailed : Bool} (h : disk = some record ∧ record.phase = .integrating)
    (hhead : onBranch branch (repo.checkouts worktree) = true) :
    RecoveryOk ws repo disk branch worktree (afterReset record abortFailed) := by
  unfold afterReset
  split
  · trivial
  · exact ⟨h.1, h.2, hhead⟩

theorem restored_ok {outcome : RebaseState}
    (h : RecoveryOk ws repo disk branch worktree (.headMatches record)) (hroot : operationRoot ws record = worktree)
    (hmatches : repo.headCommit worktree = some ⟨record.preFeatureSha⟩) :
    RecoveryOk ws repo disk branch worktree (.clearRecord outcome) := by
  obtain ⟨hdisk, hphase, hhead, hidle⟩ := h
  intro current hcurrent
  rw [hdisk] at hcurrent
  cases hcurrent
  refine ⟨by rw [hroot]; exact hidle, record.preFeatureSha, by simp only [recordedCommit, hphase], ?_⟩
  rw [← hmatches, headCommit, onBranch_head hhead (idle_rebase hidle)]

theorem raised_ok (text : String) (pc : Recovery) (hrecord : ∀ record, disk = some record → Describes ws repo branch worktree record)
    {before : Repository} (hok : RecoveryOk ws before disk branch worktree pc) :
    RecoveryOk ws repo disk branch worktree (pc.raised ws text) := by
  cases pc with
  | rebaseInProgress record | abortRebase record => exact hok
  | mergeState record abortFailed | abortMerge record abortFailed | mergeStateAfterAbort record abortFailed =>
    exact reconcile_ok true hok hrecord
  | refreshTarget record featureSha => exact afterRefresh_ok _ hok
  | _ => trivial

theorem failed_ok (text : String) (pc : Recovery) (hrecord : ∀ record, disk = some record → Describes ws repo branch worktree record)
    (hreset : ∀ record abortFailed, pc = .resetHard record abortFailed →
      onBranch branch (repo.checkouts (operationRoot ws record)) = true)
    (hok : RecoveryOk ws repo disk branch worktree pc) :
    RecoveryOk ws repo disk branch worktree (pc.failed ws text) := by
  cases pc with
  | mergeState record abortFailed | abortMerge record abortFailed => exact hok
  | targetSha record abortFailed => exact afterTargetSha_ok abortFailed none hok
  | resetHard record abortFailed =>
    have hhead := hreset record abortFailed rfl
    rw [(hrecord record hok.1).root] at hhead
    exact afterReset_ok hok hhead
  | refreshTarget record featureSha => exact afterRefresh_ok _ hok
  | targetLanded record featureSha refresh => exact hok
  | targetIsAncestor record featureSha refresh => exact afterAncestry_ok refresh false hrecord hok
  | verifyMarkers record refresh verdict => exact settle_ok refresh verdict hok.1 hrecord hok.2
  | rebaseInProgress record | abortRebase record | mergeStateAfterAbort record abortFailed =>
    exact raised_ok text _ hrecord hok
  | _ => trivial

theorem worked_ok [DecidableLE Commit] (pc : Recovery) (hrecord : ∀ record, disk = some record → Describes ws repo branch worktree record)
    (hreset : ∀ record abortFailed, pc = .resetHard record abortFailed →
      onBranch branch (repo.checkouts (operationRoot ws record)) = true)
    (hok : RecoveryOk ws repo disk branch worktree pc)
    (hafter : Harmless ws repo disk branch worktree (pc.effect ws repo disk).1) :
    RecoveryOk ws (pc.effect ws repo disk).1 (pc.effect ws repo disk).2 branch worktree (pc.worked ws repo disk) := by
  cases pc with
  | readRecord =>
    cases disk with
    | none => trivial
    | some record => exact rfl
  | blockingMarkers | stateDirIntact =>
    dsimp only [worked]
    split
    · trivial
    · trivial
  | rebaseInProgress record =>
    dsimp only [worked]
    split
    · exact hok
    · exact hok
  | abortRebase record => exact hok
  | mergeState record abortFailed =>
    dsimp only [worked]
    split
    · exact hok
    · exact reconcile_ok abortFailed hok hrecord
  | abortMerge record abortFailed =>
    dsimp only [worked]
    split
    · exact reconcile_ok abortFailed hok hafter.record
    · exact hok
  | mergeStateAfterAbort record abortFailed => exact reconcile_ok _ hok hrecord
  | targetSha record abortFailed => exact afterTargetSha_ok abortFailed _ hok
  | resetHard record abortFailed =>
    have hhead := hreset record abortFailed rfl
    have hroot := (hrecord record hok.1).root
    rw [hroot] at hhead
    refine afterReset_ok hok ?_
    show onBranch branch ((repo.resetHard (operationRoot ws record) _).checkouts worktree) = true
    rw [hroot]
    exact resetHard_onBranch _ hhead
  | rebaseGone record =>
    dsimp only [worked]
    rw [(hrecord record hok.1).root]
    split
    · trivial
    · rename_i hgone
      exact ⟨hok.1, hok.2.1, hok.2.2, Option.not_isSome_iff_eq_none.mp hgone⟩
  | mergeGone record =>
    dsimp only [worked]
    rw [(hrecord record hok.1).root]
    split
    · trivial
    · rename_i hgone
      exact ⟨hok.1, hok.2.1, hok.2.2.1, idle_of_parts hok.2.2.2 (Bool.eq_false_iff.mpr hgone)⟩
  | headMatches record =>
    dsimp only [worked]
    rw [(hrecord record hok.1).root]
    split
    · rename_i hmatches
      exact restored_ok hok (hrecord record hok.1).root hmatches
    · trivial
  | refreshTarget record featureSha => exact afterRefresh_ok _ hok
  | targetLanded record featureSha refresh =>
    dsimp only [worked]
    split
    · exact clear_integrated _ hok.1 hrecord hok.2.1
    · exact hok
  | targetIsAncestor record featureSha refresh => exact afterAncestry_ok refresh _ hrecord hok
  | verifyMarkers record refresh verdict =>
    dsimp only [worked]
    split
    · split
      · exact hok
      · exact settle_ok refresh verdict hok.1 hrecord hok.2
    · trivial
  | verifyHead record refresh verdict =>
    dsimp only [worked]
    split
    · exact settle_ok refresh verdict hok.1 hrecord hok.2
    · trivial
  | clearRecord outcome | removeStateDir | abortUnowned | unownedMerge | returned outcome => trivial
  | landing record featureSha refresh call => exact hok

theorem next_cases [DecidableLE Commit] {answer : Answer} {text : String} {pc pc' : Recovery} {after : Repository}
    {disk' : Option IntegrationRecord} (hlanding : ∀ record featureSha refresh call, pc ≠ .landing record featureSha refresh call)
    (h : pc.next ws repo disk answer text = some (after, disk', pc')) :
    (after = (pc.effect ws repo disk).1 ∧ disk' = (pc.effect ws repo disk).2 ∧ (pc' = pc.worked ws repo disk ∨ pc' = pc.raised ws text)) ∨
      after = repo ∧ disk' = disk ∧ (pc' = pc.failed ws text ∨ pc' = pc.raised ws text) := by
  unfold next at h
  split at h
  · cases h
  · exact absurd rfl (hlanding _ _ _ _)
  · cases h
    exact .inl ⟨rfl, rfl, .inl rfl⟩
  · cases h
    exact .inr ⟨rfl, rfl, .inl rfl⟩
  · cases h
    exact .inl ⟨rfl, rfl, .inr rfl⟩
  · cases h
    exact .inr ⟨rfl, rfl, .inr rfl⟩
  · cases h

theorem landed_ok {featureSha : String} {refresh : Option Refresh} {text : String}
    {call : Call Commit} (hdisk : disk = some record) (hphase : record.phase = .integrated)
    (hsha : record.integratedFeatureSha = some featureSha) (hsane : Sane ⟨featureSha⟩ (repo.tips record.target) call)
    (hseen : Seen (repo.tips record.target) call) :
    RecoveryOk ws repo disk branch worktree (landed record featureSha refresh text call) := by
  unfold landed
  split
  · exact ⟨hdisk, hphase⟩
  · exact ⟨hdisk, hphase⟩
  · exact ⟨hdisk, hphase⟩
  · rename_i hlanded hrefused hraised
    refine ⟨hdisk, hphase, hsha, ⟨hraised, fun fastForwarded reason hcall => ?_⟩, hsane, hseen⟩
    cases fastForwarded with
    | true => exact hlanded reason hcall
    | false => exact hrefused reason hcall

end Recovery

/-! ## Steps -/

section Steps

variable [Preorder Commit] {ws : Workspace} {s t : State}

theorem Sound.harmless {after : Repository} {disk : Option IntegrationRecord} {process : Process} (h : Sound ws s)
    (hafter : Harmless ws s.repo s.record s.branch s.worktree after) (hdisk : disk = s.record ∨ disk = none)
    (hprocess : ProcessOk ws after disk s.branch s.worktree process) :
    Sound ws { s with repo := after, record := disk, process } where
  owned := fun place hplace rebase hrebase => by
    rcases hafter.rebases place with hsame | hnone
    · exact h.owned place hplace rebase (hsame ▸ hrebase)
    · exact absurd (hnone.symm.trans hrebase) (by simp)
  record := fun record hrecord => by
    rcases hdisk with rfl | rfl
    · exact hafter.record record hrecord
    · cases hrecord
  process := hprocess

variable [DecidableLE Commit]

theorem landing_step {record : IntegrationRecord} {featureSha : String} {refresh : Option Refresh} {text : String}
    {call call' : Call Commit} {ref : Option Commit} {answer : Answer} (h : Sound ws s)
    (hpc : s.process = .recovery (.landing record featureSha refresh call))
    (hnext : call.next ws.reclaimTargetWorktree ⟨featureSha⟩ (s.repo.tips record.target) answer = some (ref, call')) :
    Sound ws { s with repo := s.repo.setTip record.target ref
                      process := .recovery (landed record featureSha refresh text call') } ∧
      Exact ws s { s with repo := s.repo.setTip record.target ref
                          process := .recovery (landed record featureSha refresh text call') } := by
  have hok := h.process
  rw [hpc] at hok
  obtain ⟨hdisk, hphase, hsha, hway⟩ := hok
  have hdone := (h.record record hdisk).integrated hphase
  obtain ⟨href, hsane, hseen⟩ := next_forward hway.sane hway.seen hnext
  refine ⟨⟨h.owned, fun current hcurrent => ?_, ?_⟩, fun name hname => ?_, fun current _ hnone => ?_⟩
  · have hdescribes := h.record current hcurrent
    rw [hdisk] at hcurrent
    cases hcurrent
    refine ⟨hdescribes.root, fun _ => hdone.frame ?_ hdone.idle⟩
    exact s.repo.setTip_tips_of_ne ref hdone.target.symm
  · refine landed_ok hdisk hphase hsha ?_ ?_
    · rw [setTip_tips_self]
      exact hsane
    · rw [setTip_tips_self]
      exact hseen
  · by_cases htarget : name = record.target
    · subst htarget
      rcases href with hsame | ⟨hmoved, old, hold, hle⟩
      · exact .inl ((s.repo.setTip_tips_self ..).trans hsame)
      · exact .inr ⟨record, featureSha, old, hdisk, hphase, hsha, rfl, hold, hle,
          (s.repo.setTip_tips_self ..).trans hmoved⟩
    · exact .inl (s.repo.setTip_tips_of_ne ref htarget)
  · exact absurd (hdisk.symm.trans hnone) (by simp)

theorem recovery_step {pc pc' : Recovery} {after : Repository} {disk : Option IntegrationRecord} {answer : Answer}
    {text : String} (h : Sound ws s) (hpc : s.process = .recovery pc)
    (hreset : ∀ record abortFailed, pc = .resetHard record abortFailed →
      onBranch s.branch (s.repo.checkouts (operationRoot ws record)) = true)
    (hnext : pc.next ws s.repo s.record answer text = some (after, disk, pc')) :
    Sound ws { s with repo := after, record := disk, process := .recovery pc' } ∧
      Exact ws s { s with repo := after, record := disk, process := .recovery pc' } := by
  by_cases hlanding : ∃ record featureSha refresh call, pc = .landing record featureSha refresh call
  · obtain ⟨record, featureSha, refresh, call, rfl⟩ := hlanding
    obtain ⟨⟨ref, call'⟩, hcall, heq⟩ := Option.map_eq_some_iff.mp hnext
    cases heq
    exact landing_step h hpc hcall
  · have hok := h.process
    rw [hpc] at hok
    have hharmless := effect_harmless pc h.owned h.record hok hreset
    have hlanding' : ∀ record featureSha refresh call, pc ≠ .landing record featureSha refresh call :=
      fun record featureSha refresh call heq => hlanding ⟨record, featureSha, refresh, call, heq⟩
    rcases next_cases hlanding' hnext with ⟨rfl, rfl, hgoes⟩ | ⟨rfl, rfl, hgoes⟩
    · refine ⟨h.harmless hharmless ((effect_record pc).imp_right And.right) ?_, fun name hname => ?_, ?_⟩
      · rcases hgoes with rfl | rfl
        · exact worked_ok pc h.record hreset hok hharmless
        · rcases effect_record pc with hsame | ⟨⟨outcome, rfl⟩, -⟩
          · rw [hsame]
            exact raised_ok text pc hharmless.record hok
          · trivial
      · exact .inl (hharmless.tips name hname)
      · -- Only one command clears the record, and what it needs was found out before.
        intro record hrecord hnone
        rcases effect_record pc with hsame | ⟨⟨outcome, rfl⟩, -⟩
        · exact absurd (hrecord.symm.trans (hsame.symm.trans hnone)) (by simp)
        · exact hok record hrecord
    · refine ⟨h.harmless (Harmless.refl h.record) (.inl rfl) ?_, fun name _ => .inl rfl, fun record hrecord hnone => ?_⟩
      · rcases hgoes with rfl | rfl
        · exact failed_ok text pc h.record hreset hok
        · exact raised_ok text pc h.record hok
      · exact absurd (hrecord.symm.trans hnone) (by simp)

end Steps

end RalphWorkflow.Integration
