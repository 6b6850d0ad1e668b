import RalphWorkflow.Proof.Integration.CrashRecovery.Attempts

/-! The record does not say which branch was being integrated: `reset_hard` moves the one that is checked out. Where that is the
interrupted one, or none because an owned rebase could not be aborted, recovery is exact from every point of an attempt. -/
namespace RalphWorkflow.Integration
open Git Lib Pipeline Pipeline.AutoIntegrate Pipeline.AutoIntegrate.CrashRecovery Option

/-! ## Runs -/

section Others

variable {ws : Workspace} {repo : Repository} {disk : Option IntegrationRecord} {branch worktree : String}

theorem OnTheWay.seenAgain {α : Type} [Preorder α] {feature : α} {ref ref' : Option α} {call : Call α}
    (h : OnTheWay feature ref call) (href : ref'.isSome = true) : OnTheWay feature ref' call where
  pending := h.pending
  sane := by
    cases call with
    | returned fastForwarded reason => exact absurd rfl (h.pending.2 fastForwarded reason)
    | compareAndSwap expected => exact h.sane
    | _ => trivial
  seen := Seen.of_isSome href call

theorem Started.setTip {record : IntegrationRecord} (name : String) (tip : Option Commit)
    (h : Started ws repo branch worktree record) : Started ws (repo.setTip name tip) branch worktree record where
  root := h.root
  phase := h.phase
  head := h.head
  target := h.target

theorem Restored.setTip {record : IntegrationRecord} {name : String} {tip : Option Commit} (hname : name ≠ branch)
    (h : Restored ws branch record repo) : Restored ws branch record (repo.setTip name tip) where
  idle := h.idle
  commit := by
    rw [repo.setTip_tips_of_ne tip hname.symm]
    exact h.commit

variable [Preorder Commit]

theorem ProcessOk.setTip {process : Process} {name : String} {commit : Commit} (hname : name ≠ branch)
    (h : ProcessOk ws repo disk branch worktree process) :
    ProcessOk ws (repo.setTip name (some commit)) disk branch worktree process := by
  cases process with
  | none => trivial
  | attempt point =>
    cases point with
    | recording record => exact Started.setTip name _ h
    | working record => exact ⟨h.1.setTip name _, h.2⟩
    | flipping record => exact ⟨h.1.setTip hname, h.2⟩
    | landing record featureSha call => exact h
    | ending => trivial
  | recovery pc =>
    cases pc with
    | landing record featureSha refresh call =>
      obtain ⟨hdisk, hphase, hsha, hway⟩ := h
      refine ⟨hdisk, hphase, hsha, ?_⟩
      by_cases htarget : record.target = name
      · rw [htarget, Repository.setTip_tips_self]
        exact hway.seenAgain rfl
      · rw [Repository.setTip_tips_of_ne _ _ htarget]
        exact hway
    | clearRecord outcome => exact fun record hrecord => (h record hrecord).setTip hname
    | _ => exact h

variable {s t : State}

theorem begin_sound {record : Commit → IntegrationRecord} (hbegin : s.begin ws worktree branch record = some t)
    (hroot : ∀ tip, operationRoot ws (record tip) = worktree) (hphase : ∀ tip, (record tip).phase = .integrating)
    (htarget : ∀ tip, (record tip).operationKind = .featureIntegrate → (record tip).target ≠ branch) : Sound ws t := by
  obtain ⟨⟨-, hnone, hrootIdle, hidle, hhead⟩, hmap⟩ := ite_none_right_eq_some.mp hbegin
  obtain ⟨tip, -, rfl⟩ := map_eq_some_iff.mp hmap
  refine ⟨fun place hplace rebase hrebase => ?_, fun record' hrecord' => ?_, ⟨hroot tip, hphase tip, ?_, htarget tip⟩⟩
  · have hover : (s.repo.checkouts place).rebase = none := by
      rcases hplace with rfl | rfl
      · exact idle_rebase hrootIdle
      · exact idle_rebase hidle
    exact absurd (hover.symm.trans hrebase) (by simp)
  · exact absurd (hnone.symm.trans hrecord') (by simp)
  · exact (AtWork.of_head hhead (idle_rebase hidle)).head

variable [DecidableLE Commit]

theorem other_sound {action : Action} (h : Sound ws s) (hother : ∀ answer text, action ≠ .command answer text)
    (hstep : s.step ws action = some t) : Sound ws t := by
  cases action with
  | integrate target =>
    dsimp only [State.step, State.integrate] at hstep
    split at hstep
    · cases hstep
    · obtain ⟨hne, hbegin⟩ := ite_none_left_eq_some.mp hstep
      exact begin_sound hbegin (fun _ => rfl) (fun _ => rfl) fun _ _ => Ne.symm hne
  | reconcile worktree target => exact begin_sound hstep (fun _ => rfl) (fun _ => rfl) nofun
  | work work =>
    dsimp only [State.step] at hstep
    split at hstep
    · rename_i record hpc
      exact work_sound h hpc hstep
    · cases hstep
  | command answer text => exact absurd rfl (hother answer text)
  | stop =>
    cases hstep
    exact ⟨h.owned, h.record, trivial⟩
  | recover =>
    obtain ⟨-, hafter⟩ := ite_none_right_eq_some.mp hstep
    cases hafter
    exact ⟨h.owned, h.record, trivial⟩
  | checkout worktree name =>
    obtain ⟨hprocess, hmap⟩ := ite_none_right_eq_some.mp hstep
    obtain ⟨after, hcheckout, rfl⟩ := map_eq_some_iff.mp hmap
    obtain ⟨-, hafter⟩ := ite_none_right_eq_some.mp hcheckout
    cases hafter
    refine h.harmless (endsOperation_harmless (.inl rfl) (.inr rfl) h.record) (.inl rfl) ?_
    rw [hprocess]
    trivial
  | moveBranch name commit =>
    obtain ⟨hname, hafter⟩ := ite_none_right_eq_some.mp hstep
    cases hafter
    exact ⟨h.owned, fun record hrecord => (h.record record hrecord).setTip hname, h.process.setTip hname⟩

theorem step_exact {action : Action} (h : Sound ws s) (hreset : resetsItsOwn ws s action = true)
    (hstep : s.step ws action = some t) : Sound ws t ∧ RecoversExactly ws s action t := by
  by_cases hcommand : ∃ answer text, action = .command answer text
  · obtain ⟨answer, text, rfl⟩ := hcommand
    change s.command ws answer text = some t at hstep
    unfold State.command at hstep
    split at hstep
    · cases hstep
    · rename_i point hpc
      refine ⟨attempt_sound h hpc hstep, fun pc _ _ hrecovery => ?_⟩
      rw [hpc] at hrecovery
      cases hrecovery
    · rename_i pc hpc
      obtain ⟨⟨after, disk, pc'⟩, hnext, rfl⟩ := map_eq_some_iff.mp hstep
      have hown : ∀ record abortFailed, pc = .resetHard record abortFailed →
          onBranch s.branch (s.repo.checkouts (operationRoot ws record)) = true := by
        rintro record abortFailed rfl
        simpa only [resetsItsOwn, hpc] using hreset
      obtain ⟨hsound, hexact⟩ := recovery_step h hpc hown hnext
      exact ⟨hsound, fun _ _ _ _ _ => hexact⟩
  · have hother : ∀ answer text, action ≠ .command answer text := fun answer text heq => hcommand ⟨answer, text, heq⟩
    exact ⟨other_sound h hother hstep, fun _ answer text _ heq => absurd heq (hother answer text)⟩

end Others

def newState (ws : Workspace) (repo : Repository) : State := { repo, worktree := ws.root }

/-- As long as no recovery resets another checked out branch, recoveries move the interrupted branch or the target forward only. -/
theorem recovery_is_exact [Preorder Commit] [DecidableLE Commit] (ws : Workspace) (repo : Repository)
    (hrepo : (repo.checkouts ws.root).rebase = none) (actions : List Action)
    (hresets : Run.Throughout (State.step ws) (fun s action _ => resetsItsOwn ws s action = true) (newState ws repo) actions) :
    Run.Throughout (State.step ws) (RecoversExactly ws) (newState ws repo) actions := by
  have hstart : Sound ws (newState ws repo) := by
    refine ⟨fun place hplace rebase hrebase => ?_, nofun, trivial⟩
    obtain rfl := hplace.elim id id
    exact absurd (hrepo.symm.trans hrebase) (by simp)
  have hstep : ∀ s action t, Sound ws s → resetsItsOwn ws s action = true → State.step ws s action = some t →
      Sound ws t ∧ RecoversExactly ws s action t := fun s action t h hown hstep => step_exact h hown hstep
  exact Run.Throughout.of_step hstep hstart hresets

/-! ## Another branch checked out -/

theorem not_exact_of_reset_elsewhere [Preorder Commit] [DecidableLE Commit] {ws : Workspace} {s t : State}
    {record : IntegrationRecord} {abortFailed : Bool} {name text : String}
    (hpc : s.process = .recovery (.resetHard record abortFailed)) (hrecord : s.record = some record)
    (hphase : record.phase = .integrating) (hhead : (s.repo.checkouts (operationRoot ws record)).head = .branch name)
    (hname : name ≠ s.branch) (htip : s.repo.tips name ≠ some ⟨record.preFeatureSha⟩)
    (hstep : s.step ws (.command .works text) = some t) : ¬ RecoversExactly ws s (.command .works text) t := by
  intro hexact
  simp only [State.step, State.command, hpc, Recovery.next, map_some, Option.some.injEq] at hstep
  have hmoved : t.repo.tips name = some ⟨record.preFeatureSha⟩ := by
    rw [← hstep]
    simp only [Recovery.effect, Repository.resetHard, hhead, Repository.setCheckout_tips, Repository.setTip_tips_self]
  rcases (hexact _ _ _ hpc rfl).branches name hname with hsame | ⟨current, featureSha, old, hcurrent, hdone, -⟩
  · exact htip (hsame.symm.trans hmoved)
  · rw [hrecord] at hcurrent
    cases hcurrent
    rw [hphase] at hdone
    cases hdone

section Example

local instance : Preorder Commit := Preorder.lift fun commit => commit.sha.length

local instance : DecidableLE Commit := fun a b => inferInstanceAs (Decidable (a.sha.length ≤ b.sha.length))

def workspace : Workspace := { root := "repo" }

def threeBranches : Repository where
  tips := fun name =>
    if name = "feature" then some ⟨"f1"⟩ else if name = "main" then some ⟨"m1"⟩
    else if name = "other" then some ⟨"o1"⟩ else none
  checkouts := fun _ => { head := .branch "feature" }

def works (n : Nat) : List Action := List.replicate n (.command .works "")

/-- Killed in its rebase, then its recovery after the abort; the second one is left to end. -/
def interruptedInRebase : List Action :=
  [.integrate "main"] ++ works 1 ++
    [.work (.change (.startRebase ⟨"m1"⟩)), .work (.change (.pick ⟨"f1'"⟩)), .stop, .checkout "repo" "other", .recover] ++
    works 3 ++ [.stop, .recover] ++ works 8

theorem interrupted_rebase_is_undone : (Run.run (State.step workspace) (newState workspace threeBranches) interruptedInRebase).map (fun s =>
        (s.record, s.repo.tips "feature", s.repo.tips "other")) = some (none, some ⟨"f1"⟩, some ⟨"o1"⟩) ∧
      Run.Throughout (State.step workspace) (RecoversExactly workspace) (newState workspace threeBranches)
        interruptedInRebase :=
  ⟨by decide +kernel,
    recovery_is_exact workspace threeBranches rfl interruptedInRebase (by decide +kernel)⟩

/-- The attempt is killed with its rebase complete, and the other branch is checked out. -/
def interruptedAfterRebase : List Action :=
  [.integrate "main"] ++ works 1 ++
    [.work (.change (.startRebase ⟨"m1"⟩)), .work (.change (.pick ⟨"f1'"⟩)), .work (.change .landRebase),
      .work (.change .finishRebase), .stop, .checkout "repo" "other", .recover] ++ works 3

def writtenRecord : IntegrationRecord where
  phase := .integrating
  target := "main"
  preFeatureSha := "f1"
  preTargetSha := some "m1"

/-- The other branch takes the old commit of the feature, and the record is cleared. -/
theorem checked_out_branch_is_reset :
    (Run.run (State.step workspace) (newState workspace threeBranches) (interruptedAfterRebase ++ .command .works "" :: works 4)).map (fun s =>
        (s.record, s.repo.tips "feature", s.repo.tips "other")) = some (none, some ⟨"f1'"⟩, some ⟨"f1"⟩) ∧
      ¬ Run.Throughout (State.step workspace) (RecoversExactly workspace) (newState workspace threeBranches)
        (interruptedAfterRebase ++ .command .works "" :: works 4) := by
  refine ⟨by decide +kernel, fun hexact => ?_⟩
  have hrun : ((Run.run (State.step workspace) (newState workspace threeBranches) interruptedAfterRebase).bind fun s =>
      (s.step workspace (.command .works "")).map fun _ =>
        (s.process, s.record, (s.repo.checkouts (operationRoot workspace writtenRecord)).head, s.branch,
          s.repo.tips "other")) =
      some (.recovery (.resetHard writtenRecord false), some writtenRecord, .branch "other", "feature", some ⟨"o1"⟩) := by
    decide +kernel
  obtain ⟨s, hs, hmap⟩ := bind_eq_some_iff.mp hrun
  obtain ⟨t, hstep, hfacts⟩ := map_eq_some_iff.mp hmap
  simp only [Prod.mk.injEq] at hfacts
  obtain ⟨hpc, hrecord, hhead, hbranch, htip⟩ := hfacts
  refine not_exact_of_reset_elsewhere hpc hrecord rfl hhead ?_ ?_ hstep (hexact.at_step hs hstep)
  · rw [hbranch]
    decide
  · rw [htip]
    decide

end Example

end RalphWorkflow.Integration
