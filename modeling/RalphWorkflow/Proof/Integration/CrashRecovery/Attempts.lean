import RalphWorkflow.Proof.Integration.CrashRecovery.Commands

/-!
# The steps of an attempt
-/

namespace RalphWorkflow.Integration

open Git Lib Pipeline Pipeline.AutoIntegrate Pipeline.AutoIntegrate.CrashRecovery Option Repository


/-! ## Steps of an attempt -/

section Attempt

variable {ws : Workspace} {repo after : Repository} {branch worktree : String}

structure AtWork (branch : String) (checkout : Checkout) : Prop where
  owns : Owns branch checkout
  head : onBranch branch checkout = true

theorem AtWork.of_head {checkout : Checkout} (hhead : checkout.head = .branch branch) (hrebase : checkout.rebase = none) :
    AtWork branch checkout where
  owns := fun rebase h => by
    rw [hrebase] at h
    cases h
  head := by simp [onBranch, hhead]

theorem AtWork.of_rebase {checkout : Checkout} {commit : Commit} {rebase : RebaseInProgress}
    (hhead : checkout.head = .detached commit) (hrebase : checkout.rebase = some rebase) (hname : rebase.headName = branch) :
    AtWork branch checkout where
  owns := fun other h => by
    rw [hrebase] at h
    cases h
    exact hname
  head := by simp [onBranch, hhead, hrebase]

theorem apply_atWork {change : Repository.Change} (h : AtWork branch (repo.checkouts worktree)) (happly : repo.apply worktree change = some after) :
    AtWork branch (after.checkouts worktree) ∧ ∀ other, other ≠ worktree → after.checkouts other = repo.checkouts other := by
  have hset : ∀ (tips : Repository) (checkout : Checkout), tips.checkouts = repo.checkouts → AtWork branch checkout →
      AtWork branch ((tips.setCheckout worktree checkout).checkouts worktree) ∧
        ∀ other, other ≠ worktree → (tips.setCheckout worktree checkout).checkouts other = repo.checkouts other := by
    intro tips checkout hsame hcheckout
    refine ⟨by rw [setCheckout_checkouts_self]; exact hcheckout, fun other hother => ?_⟩
    rw [setCheckout_checkouts_of_ne _ _ hother, hsame]
  cases change with
  | startRebase upstream =>
    dsimp only [apply] at happly
    split at happly
    · cases happly
    · rename_i name hhead
      obtain ⟨hidle, hmap⟩ := ite_none_right_eq_some.mp happly
      obtain ⟨tip, -, rfl⟩ := map_eq_some_iff.mp hmap
      refine hset repo _ rfl (AtWork.of_rebase rfl rfl ?_)
      have hbranch := onBranch_head h.head (idle_rebase hidle)
      rw [hhead] at hbranch
      cases hbranch
      rfl
  | pick commit =>
    dsimp only [apply] at happly
    split at happly
    · rename_i old rebase merge hcheckout
      cases happly
      exact hset repo _ rfl (AtWork.of_rebase rfl rfl (h.owns rebase (by rw [hcheckout])))
    · cases happly
  | landRebase =>
    dsimp only [apply] at happly
    split at happly
    · cases happly
      exact ⟨h, fun _ _ => rfl⟩
    · cases happly
  | finishRebase =>
    dsimp only [apply] at happly
    split at happly
    · rename_i old rebase merge hcheckout
      cases happly
      refine hset repo _ rfl (AtWork.of_head ?_ rfl)
      rw [h.owns rebase (by rw [hcheckout])]
    · cases happly
  | abortRebase =>
    obtain ⟨hsome, hafter⟩ := ite_none_right_eq_some.mp happly
    cases hafter
    obtain ⟨rebase, hrebase⟩ := isSome_iff_exists.mp hsome
    simp only [Repository.abortRebase, hrebase]
    refine hset _ _ (setTip_checkouts ..) (AtWork.of_head ?_ rfl)
    rw [h.owns rebase hrebase]
  | startMerge =>
    obtain ⟨hidle, hafter⟩ := ite_none_right_eq_some.mp happly
    cases hafter
    exact hset repo _ rfl ⟨h.owns, h.head⟩
  | commitMerge commit =>
    dsimp only [apply] at happly
    split at happly
    · rename_i name hcheckout
      cases happly
      refine hset _ _ (setTip_checkouts ..) (AtWork.of_head ?_ rfl)
      have hhead := onBranch_head h.head (by rw [hcheckout])
      rw [hcheckout] at hhead
      exact hhead
    · cases happly
  | abortMerge =>
    obtain ⟨hmerge, hafter⟩ := ite_none_right_eq_some.mp happly
    cases hafter
    exact hset repo _ rfl ⟨h.owns, h.head⟩

variable {record : IntegrationRecord}

theorem Describes.of_integrating (hroot : operationRoot ws record = worktree)
    (hphase : record.phase = .integrating) : Describes ws repo branch worktree record where
  root := hroot
  integrated := fun h => by
    rw [hphase] at h
    cases h

theorem Describes.setTip {name : String} {tip : Option Commit} (hname : name ≠ branch)
    (h : Describes ws repo branch worktree record) : Describes ws (repo.setTip name tip) branch worktree record :=
  h.survives fun hidle _ => ⟨repo.setTip_tips_of_ne tip hname.symm, hidle⟩

theorem afterLanding_ok {disk : Option IntegrationRecord} {featureSha : String} (call : Call Commit) (h : record.target ≠ branch) :
    AttemptOk ws repo disk branch worktree (State.afterLanding record featureSha call) := by
  unfold State.afterLanding
  split
  · trivial
  · trivial
  · exact h

variable [Preorder Commit] {s t : State}

theorem work_sound {work : Work} (h : Sound ws s)
    (hpc : s.process = .attempt (.working record)) (hwork : s.work record work = some t) : Sound ws t := by
  have hok := h.process
  rw [hpc] at hok
  obtain ⟨hstarted, current, hcurrent, hphase⟩ := hok
  have hroot : operationRoot ws current = s.worktree := (h.record current hcurrent).root
  cases work with
  | change change =>
    obtain ⟨after, happly, rfl⟩ := map_eq_some_iff.mp hwork
    obtain ⟨hatWork, hothers⟩ := apply_atWork ⟨h.owned _ (.inr rfl), hstarted.head⟩ happly
    refine ⟨fun place hplace => ?_, fun record' hrecord' => ?_, ?_⟩
    · by_cases hhere : place = s.worktree
      · subst hhere
        exact hatWork.owns
      · show Owns s.branch (after.checkouts place)
        rw [hothers place hhere]
        exact h.owned place hplace
    · rw [hcurrent] at hrecord'
      cases hrecord'
      exact Describes.of_integrating hroot hphase
    · show ProcessOk ws after s.record s.branch s.worktree s.process
      rw [hpc]
      exact ⟨⟨hstarted.root, hstarted.phase, hatWork.head, hstarted.target⟩, current, hcurrent, hphase⟩
  | setResolving resolving =>
    obtain ⟨current', hcurrent', rfl⟩ := map_eq_some_iff.mp hwork
    rw [hcurrent] at hcurrent'
    cases hcurrent'
    refine ⟨h.owned, fun record' hrecord' => ?_, ?_⟩
    · cases hrecord'
      exact Describes.of_integrating hroot hphase
    · show ProcessOk ws s.repo (some { current with resolvingRebase := resolving }) s.branch s.worktree s.process
      rw [hpc]
      exact ⟨hstarted, _, rfl, hphase⟩
  | complete =>
    obtain ⟨⟨hkind, hidle⟩, hmap⟩ := ite_none_right_eq_some.mp hwork
    obtain ⟨tip, htip, rfl⟩ := map_eq_some_iff.mp hmap
    refine ⟨h.owned, h.record, ⟨hstarted.root, fun _ => ?_⟩, rfl⟩
    have hworktree : s.worktree = ws.root := by
      rw [← hstarted.root, operationRoot, hkind]
    rw [headCommit, onBranch_head hstarted.head (idle_rebase hidle)] at htip
    exact ⟨hworktree, hstarted.target hkind, hworktree ▸ hidle, tip.sha, rfl, htip⟩
  | giveUp =>
    cases hwork
    exact ⟨h.owned, h.record, trivial⟩

theorem attempt_sound [DecidableLE Commit] {point : AttemptPoint} {answer : Answer} (h : Sound ws s)
    (hpc : s.process = .attempt point) (hcommand : s.attemptCommand ws answer point = some t) : Sound ws t := by
  have hok := h.process
  rw [hpc] at hok
  have hends : Sound ws { s with process := .attempt .ending } := ⟨h.owned, h.record, trivial⟩
  have hwrites : ∀ record process, Describes ws s.repo s.branch s.worktree record →
      ProcessOk ws s.repo (some record) s.branch s.worktree process → Sound ws { s with record := some record, process } := by
    intro record process hdescribes hprocess
    refine ⟨h.owned, fun record' hrecord' => ?_, hprocess⟩
    cases hrecord'
    exact hdescribes
  cases point with
  | recording record =>
    have hstarted : Started ws s.repo s.branch s.worktree record := hok
    have hdescribes := @Describes.of_integrating _ s.repo s.branch _ _ hstarted.root hstarted.phase
    cases answer with
    | works =>
      cases hcommand
      exact hwrites record _ hdescribes ⟨hstarted, record, rfl, hstarted.phase⟩
    | fails | found | notCheckedOut => cases hcommand
    | raises done =>
      cases done with
      | true =>
        cases hcommand
        exact hwrites record _ hdescribes trivial
      | false =>
        cases hcommand
        exact hends
  | working record => cases hcommand
  | flipping record =>
    obtain ⟨hdescribes, hphase⟩ := hok
    cases answer with
    | works =>
      cases hcommand
      obtain ⟨featureSha, hsha, -⟩ := (hdescribes.integrated hphase).tip
      refine hwrites record _ hdescribes ?_
      rw [hsha]
      exact (hdescribes.integrated hphase).target
    | fails | found | notCheckedOut => cases hcommand
    | raises done =>
      cases done with
      | true =>
        cases hcommand
        exact hwrites record _ hdescribes trivial
      | false =>
        cases hcommand
        exact hends
  | landing record featureSha call =>
    obtain ⟨⟨ref, call'⟩, -, rfl⟩ := map_eq_some_iff.mp hcommand
    exact ⟨h.owned, fun record' hrecord' => (h.record record' hrecord').setTip hok, afterLanding_ok call' hok⟩
  | ending =>
    have hcleared : Sound ws { s with record := none, process := .none } := ⟨h.owned, nofun, trivial⟩
    have hkept : Sound ws { s with process := .none } := ⟨h.owned, h.record, trivial⟩
    cases answer with
    | works =>
      cases hcommand
      exact hcleared
    | fails =>
      cases hcommand
      exact hkept
    | found | notCheckedOut => cases hcommand
    | raises done =>
      cases done with
      | true =>
        cases hcommand
        exact hcleared
      | false =>
        cases hcommand
        exact hkept

end Attempt

end RalphWorkflow.Integration
