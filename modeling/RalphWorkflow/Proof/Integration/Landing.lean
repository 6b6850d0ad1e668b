import Mathlib.Order.Nat
import RalphWorkflow.Pipeline.AutoIntegrate.FastForward

/-! Whatever the order of the agents' commands, the target only moves to descendants, and a call that reports success has its feature commit in the
target: the value a call expects the ref to have is an ancestor of its feature commit. -/
namespace RalphWorkflow.Integration
open Lib Pipeline Pipeline.AutoIntegrate

universe u v

section Ref

variable {α : Type u} [Preorder α]

/-- A missing ref is below every value; values are ordered by ancestry. -/
def Advances (before after : Option α) : Prop := ∀ sha, before = some sha → ∃ sha', after = some sha' ∧ sha ≤ sha'

theorem Advances.refl (ref : Option α) : Advances ref ref := fun sha h => ⟨sha, h, le_rfl⟩

theorem Advances.trans {a b c : Option α} (hab : Advances a b) (hbc : Advances b c) : Advances a c := by
  intro sha hsha
  obtain ⟨mid, hmid, hle⟩ := hab sha hsha
  obtain ⟨last, hlast, hle'⟩ := hbc mid hmid
  exact ⟨last, hlast, hle.trans hle'⟩

def Contains (ref : Option α) (commit : α) : Prop := ∃ sha, ref = some sha ∧ commit ≤ sha

variable {after ref : Option α} {feature : α}

theorem Contains.mono {before : Option α} {commit : α} (h : Contains before commit) (hadv : Advances before after) : Contains after commit := by
  obtain ⟨sha, hsha, hle⟩ := h
  obtain ⟨sha', hsha', hle'⟩ := hadv sha hsha
  exact ⟨sha', hsha', hle.trans hle'⟩

/-! ## One command -/

def Sane (feature : α) (ref : Option α) : Call α → Prop
  | .compareAndSwap expected => expected ≤ feature
  | .returned true _ => Contains ref feature
  | _ => True

theorem Sane.mono {before : Option α} {call : Call α} (h : Sane feature before call) (hadv : Advances before after) : Sane feature after call := by
  cases call with
  | returned fastForwarded reason =>
    cases fastForwarded with
    | true => exact Contains.mono h hadv
    | false => trivial
  | compareAndSwap expected => exact h
  | _ => trivial

theorem moved_lands {result : Option (Option α)} (refused : Call α)
    (hlands : ∀ after, result = some after → Advances ref after ∧ Contains after feature)
    (hrefused : Sane feature ref refused) : Advances ref (moved ref result refused).1 ∧
      Sane feature (moved ref result refused).1 (moved ref result refused).2 := by
  unfold moved
  cases result with
  | none => exact ⟨Advances.refl ref, hrefused⟩
  | some after => exact hlands after rfl

theorem observed_sane {next : α → Call α} (h : ∀ sha, Sane feature ref (next sha)) : Sane feature ref (observed ref next) := by
  unfold observed
  split
  · trivial
  · exact h _

theorem mergeFfOnly_lands [DecidableLE α] (h : mergeFfOnly ref feature = some after) : Advances ref after ∧ Contains after feature := by
  unfold mergeFfOnly at h
  split at h
  · cases h
    refine ⟨?_, feature, rfl, le_rfl⟩
    intro sha hsha
    cases hsha
  · rename_i sha
    split at h
    · rename_i hle
      cases h
      refine ⟨?_, feature, rfl, le_rfl⟩
      intro old hold
      cases hold
      exact ⟨feature, rfl, hle⟩
    · split at h
      · rename_i hle
        cases h
        exact ⟨Advances.refl _, sha, rfl, hle⟩
      · cases h

theorem compareAndSwap_lands [DecidableEq α] {expected : α} (hle : expected ≤ feature)
    (h : compareAndSwap ref expected feature = some after) : Advances ref after ∧ Contains after feature := by
  unfold compareAndSwap at h
  split at h
  · rename_i hsame
    cases h
    refine ⟨?_, feature, rfl, le_rfl⟩
    intro old hold
    rw [hsame] at hold
    cases hold
    exact ⟨feature, rfl, hle⟩
  · cases h

theorem next_lands [DecidableEq α] [DecidableLE α] {reclaim : Bool} {ref' : Option α} {call call' : Call α} {answer : Answer}
    (h : Sane feature ref call) (hnext : call.next reclaim feature ref answer = some (ref', call')) :
    Advances ref ref' ∧ Sane feature ref' call' := by
  have hrefused : Sane feature ref (Call.next.refused (α := α) reclaim) := by
    unfold Call.next.refused
    split
    · trivial
    · trivial
  have hmerge : ∀ after, mergeFfOnly ref feature = some after → Advances ref after ∧ Contains after feature :=
    fun after hafter => mergeFfOnly_lands hafter
  have hstays : ∀ {next : Call α}, some (ref, next) = some (ref', call') → Sane feature ref next → Advances ref ref' ∧ Sane feature ref' call' := by
    intro next heq hnext
    cases heq
    exact ⟨Advances.refl ref, hnext⟩
  have hmoves : ∀ {result : Option (Option α)} {refused : Call α}, some (moved ref result refused) = some (ref', call') →
      (∀ after, result = some after → Advances ref after ∧ Contains after feature) → Sane feature ref refused →
      Advances ref ref' ∧ Sane feature ref' call' := by
    intro result refused heq hlands hrefused
    have hmoved := moved_lands _ hlands hrefused
    rw [Option.some.inj heq] at hmoved
    exact hmoved
  have hraises : ∀ {result : Option (Option α)}, some ((moved ref result .raised).1, Call.raised) = some (ref', call') →
      (∀ after, result = some after → Advances ref after ∧ Contains after feature) →
      Advances ref ref' ∧ Sane feature ref' call' := by
    intro result heq hlands
    cases heq
    exact ⟨(moved_lands .raised hlands trivial).1, trivial⟩
  cases call with
  | gateObserve =>
    cases answer with
    | works => exact hstays hnext (observed_sane fun _ => trivial)
    | fails => exact hstays hnext trivial
    | found | notCheckedOut => cases hnext
    | raises done =>
      cases done with
      | true => cases hnext
      | false => exact hstays hnext trivial
  | gateAncestor sha =>
    cases answer with
    | works =>
      refine hstays hnext ?_
      split
      · trivial
      · trivial
    | fails => exact hstays hnext trivial
    | found | notCheckedOut => cases hnext
    | raises done =>
      cases done with
      | true => cases hnext
      | false => exact hstays hnext trivial
  | findMainWorktree =>
    cases answer with
    | works => exact hstays hnext trivial
    | fails | found | notCheckedOut => cases hnext
    | raises done =>
      cases done with
      | true => cases hnext
      | false => exact hstays hnext trivial
  | worktreeLookup =>
    cases answer with
    | works => cases hnext
    | fails | found | notCheckedOut => exact hstays hnext trivial
    | raises done =>
      cases done with
      | true => cases hnext
      | false => exact hstays hnext trivial
  | worktreeMerge =>
    cases answer with
    | works => exact hmoves hnext hmerge hrefused
    | fails => exact hstays hnext hrefused
    | found | notCheckedOut => cases hnext
    | raises done =>
      cases done with
      | true => exact hraises hnext hmerge
      | false => exact hstays hnext trivial
  | reclaim =>
    cases answer with
    | works | fails => exact hstays hnext trivial
    | found | notCheckedOut => cases hnext
    | raises done =>
      cases done with
      | true => cases hnext
      | false => exact hstays hnext trivial
  | worktreeRetry =>
    cases answer with
    | works => exact hmoves hnext hmerge trivial
    | fails => exact hstays hnext trivial
    | found | notCheckedOut => cases hnext
    | raises done =>
      cases done with
      | true => exact hraises hnext hmerge
      | false => exact hstays hnext trivial
  | casObserve =>
    cases answer with
    | works => exact hstays hnext (observed_sane fun _ => trivial)
    | fails => exact hstays hnext trivial
    | found | notCheckedOut => cases hnext
    | raises done =>
      cases done with
      | true => cases hnext
      | false => exact hstays hnext trivial
  | casAncestor sha =>
    cases answer with
    | works =>
      refine hstays hnext ?_
      split
      · rename_i hle
        exact hle
      · trivial
    | fails => exact hstays hnext trivial
    | found | notCheckedOut => cases hnext
    | raises done =>
      cases done with
      | true => cases hnext
      | false => exact hstays hnext trivial
  | compareAndSwap expected =>
    -- The expected value is the one whose ancestry was checked.
    have hswap : ∀ after, AutoIntegrate.compareAndSwap ref expected feature = some after →
        Advances ref after ∧ Contains after feature := fun after hafter => compareAndSwap_lands h hafter
    cases answer with
    | works => exact hmoves hnext hswap trivial
    | fails => exact hstays hnext trivial
    | found | notCheckedOut => cases hnext
    | raises done =>
      cases done with
      | true => exact hraises hnext hswap
      | false => exact hstays hnext trivial
  | returned fastForwarded reason => cases hnext
  | raised => cases hnext

end Ref

/-! ## Every interleaving -/

section Fleet

variable {ι : Type v} {α : Type u} [DecidableEq ι] [Preorder α] [DecidableEq α] [DecidableLE α]

def AllSane (landings : ι → Landing α) (fleet : Fleet ι α) : Prop :=
  ∀ agent, Sane (landings agent).feature fleet.ref (fleet.calls agent)

theorem step_lands {landings : ι → Landing α} {fleet fleet' : Fleet ι α} {move : Move ι α}
    (h : AllSane landings fleet) (hstep : fleet.step landings move = some fleet') :
    Advances fleet.ref fleet'.ref ∧ AllSane landings fleet' := by
  cases move with
  | command agent answer =>
    obtain ⟨⟨ref, call⟩, hnext, heq⟩ := Option.map_eq_some_iff.mp hstep
    cases heq
    obtain ⟨hadv, hsane⟩ := next_lands (h agent) hnext
    refine ⟨hadv, fun other => ?_⟩
    by_cases hother : other = agent
    · subst hother
      show Sane _ ref (Function.update fleet.calls other call other)
      rw [Function.update_self]
      exact hsane
    · show Sane _ ref (Function.update fleet.calls agent call other)
      rw [Function.update_of_ne hother]
      exact (h other).mono hadv
  | other sha =>
    unfold Fleet.step at hstep
    dsimp only at hstep
    split at hstep
    · cases hstep
    · rename_i current hcurrent
      split at hstep
      · rename_i hle
        cases hstep
        have hadv : Advances fleet.ref (some sha) := by
          intro old hold
          rw [hcurrent] at hold
          cases hold
          exact ⟨sha, rfl, hle⟩
        exact ⟨hadv, fun agent => (h agent).mono hadv⟩
      · cases hstep

/-- The target only moves to descendants, and has the feature commit of every call that reported success. -/
theorem no_landed_commit_is_lost (landings : ι → Landing α) (ref : Option α) (earlier later : List (Move ι α))
    (mid last : Fleet ι α) (hearlier : Run.run (Fleet.step landings) (Fleet.start ref) earlier = some mid)
    (hlater : Run.run (Fleet.step landings) mid later = some last) :
    Advances mid.ref last.ref ∧
      ∀ agent reason, last.calls agent = .returned true reason → Contains last.ref (landings agent).feature := by
  have hstart : AllSane landings (Fleet.start ref : Fleet ι α) := fun agent => trivial
  have hmid : AllSane landings mid :=
    Run.invariant (fun _ _ _ h hstep => (step_lands h hstep).2) hstart hearlier
  have hlast : AllSane landings last :=
    Run.invariant (fun _ _ _ h hstep => (step_lands h hstep).2) hmid hlater
  refine ⟨?_, ?_⟩
  · exact Run.relates (fun _ _ _ h hstep => (step_lands h hstep).2) (fun f g => Advances f.ref g.ref)
      (fun f => Advances.refl f.ref) (fun _ _ _ => Advances.trans) (fun _ _ _ h hstep => (step_lands h hstep).1) hmid
      hlater
  · intro agent reason hreturned
    have hsane := hlast agent
    rw [hreturned] at hsane
    exact hsane

end Fleet

def twoSides : Bool → Landing (ℕ × ℕ)
  | true => { feature := (1, 0) }
  | false => { feature := (0, 1) }

def bothObserve : List (Move Bool (ℕ × ℕ)) :=
  [true, false].flatMap fun agent =>
    [.command agent .works, .command agent .works, .command agent .works, .command agent .notCheckedOut,
      .command agent .works, .command agent .works]

def bothSwap : List (Move Bool (ℕ × ℕ)) := [.command true .works, .command false .works]

theorem second_landing_loses_nothing : ∃ mid last, Run.run (Fleet.step twoSides) (Fleet.start (some (0, 0))) bothObserve = some mid ∧
      Run.run (Fleet.step twoSides) mid bothSwap = some last ∧
      last.calls true = .returned true "" ∧ last.calls false = .returned false targetCasMismatch ∧
      Advances mid.ref last.ref ∧ Contains last.ref (1, 0) := by
  obtain ⟨mid, hearlier, hlater⟩ := Option.bind_eq_some_iff.mp
    (by decide +kernel : ((Run.run (Fleet.step twoSides) (Fleet.start (some (0, 0))) bothObserve).bind fun mid =>
      (Run.run (Fleet.step twoSides) mid bothSwap).bind fun last => some (last.calls true, last.calls false)) =
        some (.returned true "", .returned false targetCasMismatch))
  obtain ⟨last, hlater, hcalls⟩ := Option.bind_eq_some_iff.mp hlater
  obtain ⟨htrue, hfalse⟩ := Prod.mk.inj (Option.some.inj hcalls)
  have hsafe := no_landed_commit_is_lost twoSides (some (0, 0)) bothObserve bothSwap mid last hearlier hlater
  exact ⟨mid, last, hearlier, hlater, htrue, hfalse, hsafe.1, hsafe.2 true "" htrue⟩

end RalphWorkflow.Integration
