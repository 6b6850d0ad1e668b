import RalphWorkflow.Policy.Default
import RalphWorkflow.Proof.Runs

/-! Every edit of a loop counter writes a count that its cap allows, so no order of loopbacks, gate charges, cycle charges
and resets overshoots it. -/
namespace RalphWorkflow.LoopCaps
open Lib Policy Recovery Accounts
open Pipeline Pipeline.Reducer

/-- Events reduced with any controller or none and any timing or none. -/
def ReducesTo (policy : PipelinePolicy) : PipelineState → PipelineState → Prop :=
  Relation.ReflTransGen fun s s' =>
    ∃ event recovery timing effects, (reduce s event policy recovery timing).result = .ok (s', effects)

def WithinCaps (policy : PipelinePolicy) (l : Ledger) : Prop := ∀ field, Bounded policy field (l.loops.getD field 0)

section

variable {policy : PipelinePolicy} {controller : Option RecoveryController} {s : PipelineState} {event : Event}

theorem withinCaps_edit {l l' : Ledger} (h : WithinCaps policy l) (hedit : Edit policy controller s event l l') : WithinCaps policy l' := by
  cases hedit with
  | @counts field value bounded =>
    intro field' cap hcap
    dsimp only
    rw [Dict.getD_set]
    split
    · rename_i hfield
      rw [hfield] at hcap
      exact bounded cap hcap
    · exact h field' cap hcap
  | _ => exact h

theorem withinCaps_edits {l l' : Ledger} (h : WithinCaps policy l) (hedits : Edits policy controller s event l l') : WithinCaps policy l' := by
  induction hedits with
  | refl => exact h
  | tail _ hedit ih => exact withinCaps_edit ih hedit

theorem withinCaps_run {s' : PipelineState} (h : WithinCaps policy (ledger s)) (hrun : ReducesTo policy s s') : WithinCaps policy (ledger s') := by
  induction hrun with
  | refl => exact h
  | tail _ hstep ih =>
    obtain ⟨event, recovery, timing, effects, hreduce⟩ := hstep
    exact withinCaps_edits ih (reduce_edits _ effects hreduce)

end

/-- A declared loop counter is between zero and its cap. -/
theorem loop_iterations_within_caps (bundle : PolicyBundle) (config : ConfigAgents) (developerIters : Int)
    (counterOverrides : Dict String Int) (s : PipelineState)
    (hrun : ReducesTo bundle.pipeline (createInitialState config bundle developerIters counterOverrides) s)
    (field : String) (counter : LoopCounterConfig) (hcounter : bundle.pipeline.loopCounters.get? field = some counter) :
    0 ≤ s.getLoopIteration field ∧ s.getLoopIteration field ≤ counter.defaultMax := by
  have hinitial : WithinCaps bundle.pipeline (ledger (createInitialState config bundle developerIters counterOverrides)) := by
    intro field cap _
    show (0 : Int) ≤ 0 ∧ (0 : Int) ≤ cap
    omega
  refine withinCaps_run hinitial hrun field counter.defaultMax ?_
  unfold resolveAnalysisCap
  rw [hcounter]

def planSentBack : PipelineState :=
  { Pipeline.advancePhase ((createInitialState {} { pipeline := Default.pipeline } 5 ∅).withLoopIteration "planning_analysis_iteration" 1)
      "planning" Default.pipeline with reviewOutcome := none }

theorem planSentBack_within_caps : planSentBack.getLoopIteration "planning_analysis_iteration" = 1 ∧
      0 ≤ planSentBack.getLoopIteration "planning_analysis_iteration" ∧
      planSentBack.getLoopIteration "planning_analysis_iteration" ≤ ((3 : Nat) : Int) := by
  refine ⟨rfl, ?_⟩
  refine loop_iterations_within_caps { pipeline := Default.pipeline } {} 5 ∅ planSentBack ?_
    "planning_analysis_iteration" { defaultMax := 3 } rfl
  exact .single ⟨.analysisDecision "planning_analysis" "request_changes", none, none, [], rfl⟩

end RalphWorkflow.LoopCaps

/-! ## The verdict of a cycle

A recorded verdict is changed by the next decision that declares one and consumed by the commit that closes the cycle;
nothing else touches it.
-/

namespace RalphWorkflow.CycleVerdict

open Lib Policy Recovery Movement Accounts
open Runs Pipeline Pipeline.Reducer


section

variable {policy : PipelinePolicy} {controller : Option RecoveryController} {s : PipelineState} {event : Event}

structure LeavesVerdict (policy : PipelinePolicy) (s : PipelineState) (event : Event) : Prop where
  undecided : ∀ route, decisionRoute policy event = some route → route.cycleOutcome = none
  unclosed : isCommitOutcome event = true → commitClosesACycle s.phase policy = false

theorem pending_edit {l l' : Ledger} (hevent : LeavesVerdict policy s event) (hrecorded : l.pending ≠ none)
    (hedit : Edit policy controller s event l l') : l'.pending = l.pending := by
  cases hedit with
  | stamps unset => exact absurd unset hrecorded
  | @records route outcome matched declares =>
    rw [hevent.undecided route matched] at declares
    cases declares
  | closes commits closing =>
    rw [hevent.unclosed commits] at closing
    cases closing
  | _ => rfl

theorem pending_edits {l l' : Ledger} (hevent : LeavesVerdict policy s event) (hrecorded : l.pending ≠ none)
    (hedits : Edits policy controller s event l l') : l'.pending = l.pending := by
  induction hedits with
  | refl => rfl
  | tail _ hedit ih =>
    rw [← ih]
    rw [← ih] at hrecorded
    exact pending_edit hevent hrecorded hedit

end

/-- A verdict is left by every event but decisions that declare one and outcomes of the closing commit. -/
theorem recorded_verdict_kept (policy : PipelinePolicy) (s s' : PipelineState) (event : Event)
    (recovery : Option RecoveryController) (timing : Option RoutingTiming) (effects : List Effect)
    (hrecorded : s.pendingCycleOutcome ≠ none) (hevent : LeavesVerdict policy s event)
    (hreduce : (reduce s event policy recovery timing).result = .ok (s', effects)) :
    s'.pendingCycleOutcome = s.pendingCycleOutcome :=
  pending_edits hevent hrecorded (reduce_edits s' effects hreduce)

def failedAtCommit : PipelineState :=
  { phase := "development_commit", pendingCycleOutcome := some .failed }

def failedAfterCommit : PipelineState :=
  { Pipeline.advancePhase { failedAtCommit with loopIterations := ⟨[("commit_cleanup_iteration", 0)], by decide⟩ }
      "development_final_commit_cleanup" Default.pipeline with reviewOutcome := none }

theorem failedAfterCommit_kept : failedAfterCommit.pendingCycleOutcome = failedAtCommit.pendingCycleOutcome := by
  refine recorded_verdict_kept Default.pipeline failedAtCommit failedAfterCommit (.pipeline .commitSuccess) none none []
    ?_ ⟨?_, ?_⟩ ?_
  · decide
  · intro route hroute
    cases hroute
  · intro _
    decide +kernel
  · rfl

end RalphWorkflow.CycleVerdict
