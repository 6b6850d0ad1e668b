import RalphWorkflow.Lib.Except
import RalphWorkflow.Pipeline.AutoIntegrate.Seams

/-! Both seams pass their outcome through a filter that keeps a blocking verdict until something lands. The commit seam has
one way around it: the handler of an exception that leaves its body. -/
namespace RalphWorkflow.Integration
open Lib Pipeline.AutoIntegrate List

def Blocks (state : RebaseState) : Prop := persistedIntegrationResolutionVerdict state ≠ none

instance (state : RebaseState) : Decidable (Blocks state) := inferInstanceAs (Decidable (_ ≠ _))

theorem blocks_iff (state : RebaseState) : Blocks state ↔ state.resolutionExhausted = true ∨ state.integrationUnresolved = true := by
  unfold Blocks persistedIntegrationResolutionVerdict
  cases hexhausted : state.resolutionExhausted with
  | true => simp
  | false =>
    cases hunresolved : state.integrationUnresolved with
    | true => simp
    | false => simp

theorem retains_iff (state : RebaseState) : retainsUnresolvedResolutionState state = true ↔ Blocks state := by
  unfold retainsUnresolvedResolutionState Blocks
  rw [Option.isSome_iff_ne_none]

/-! ## The filter -/

theorem carryEvidence_blocks {outcome prior : RebaseState} (h : Blocks prior) : Blocks (carryEvidence outcome prior) := by
  rw [blocks_iff] at h ⊢
  unfold carryEvidence
  rcases h with hexhausted | hunresolved
  · -- The outcome is exhausted itself or becomes so.
    refine .inl ?_
    cases houtcome : outcome.resolutionExhausted with
    | true =>
      simp only [hexhausted, houtcome, Bool.not_true, Bool.and_false, Bool.false_eq_true, if_false]
      split
      · rfl
      · exact houtcome
    | false =>
      simp only [hexhausted, Bool.not_false, Bool.and_true, if_true]
      split
      · rfl
      · rfl
  · refine .inr ?_
    have hkeeps : ∀ record : RebaseState, { record with unresolvedIntegrationCarried := true }.integrationUnresolved = true := by
      intro record
      unfold RebaseState.integrationUnresolved
      simp
    dsimp only
    cases houtcome : outcome.integrationUnresolved with
    | true =>
      simp only [hunresolved, Bool.not_true, Bool.and_false, Bool.false_eq_true, if_false]
      split
      · exact houtcome
      · exact houtcome
    | false =>
      simp only [hunresolved, Bool.not_false, Bool.and_true, if_true]
      exact hkeeps _

theorem preserve_blocks {outcome : Option RebaseState} {prior : RebaseState} (h : Blocks prior) :
    ∃ kept, preserveUnresolvedResolutionState outcome prior = some kept ∧ (kept.fastForwarded = true ∨ Blocks kept) := by
  have hretains := (retains_iff prior).mpr h
  unfold preserveUnresolvedResolutionState
  cases outcome with
  | none =>
    refine ⟨prior, ?_, .inr h⟩
    exact if_pos hretains
  | some outcome =>
    cases hlanded : outcome.fastForwarded with
    | true => exact ⟨outcome, by simp [hlanded], .inl hlanded⟩
    | false => exact ⟨carryEvidence outcome prior, by simp [hlanded, hretains], .inr (carryEvidence_blocks h)⟩

/-! ## The way around it -/

inductive BodyRaises (config : IntegrationConfig) (answer : CommitAnswer) : Prop
  | context (henabled : config.enabled = true) (text : String) (hcontext : answer.context = .error (.exception text))
  | skipTable (henabled : config.enabled = true) (context : Context) (hcontext : answer.context = .ok context)
      (branch target : String) (hbranch : context.currentBranch = some branch) (htarget : context.target = some target)
      (text : String) (hskip : context.skipReason = .error (.exception text))
  | identity (henabled : config.enabled = true) (context : Context) (hcontext : answer.context = .ok context)
      (branch target : String) (hbranch : context.currentBranch = some branch) (htarget : context.target = some target)
      (hskip : context.skipReason = .ok none) (text : String) (hidentity : answer.identity = .error (.exception text))

theorem integrateTarget_not_exception (config : IntegrationConfig) (answer : CommitAnswer) (state : RebaseState)
    (target : String) (refresh : Option Refresh) (identity : ConflictIdentity) (text : String) :
    integrateTarget config answer state target refresh identity ≠ .error (.exception text) := by
  unfold integrateTarget
  dsimp only
  split
  · exact fun h => by cases h
  · exact fun h => by cases h
  · exact fun h => by cases h
  · exact fun h => by cases h

theorem inner_raises_iff (config : IntegrationConfig) (answer : CommitAnswer) (state : RebaseState) :
    (∃ text, autoIntegrateAfterCommitInner config answer state = .error (.exception text)) ↔ BodyRaises config answer := by
  constructor
  · rintro ⟨text, h⟩
    unfold autoIntegrateAfterCommitInner checkEarlySkips at h
    cases henabled : config.enabled with
    | false =>
      rw [henabled] at h
      cases h
    | true =>
      rw [henabled, if_neg (by decide)] at h
      cases hcontext : answer.context with
      | error exc =>
        rw [hcontext] at h
        cases h
        exact .context henabled text hcontext
      | ok context =>
        rw [hcontext] at h
        obtain ⟨branch, target, refresh, skipReason⟩ := context
        cases branch with
        | none => cases h
        | some branch =>
          cases target with
          | none => cases h
          | some target =>
            cases hskip : skipReason with
            | error exc =>
              rw [hskip] at h
              cases h
              exact .skipTable henabled _ hcontext branch target rfl rfl text hskip
            | ok skip =>
              rw [hskip] at h
              cases skip with
              | some reason => cases h
              | none =>
                cases hidentity : answer.identity with
                | error exc =>
                  have h' : Except.bind answer.identity _ = .error (.exception text) := h
                  rw [hidentity] at h'
                  cases h'
                  exact .identity henabled _ hcontext branch target rfl rfl hskip text hidentity
                | ok identity =>
                  have h' : Except.bind answer.identity (integrateTarget config answer state target refresh) = .error (.exception text) := h
                  rw [hidentity] at h'
                  exact absurd h' (integrateTarget_not_exception _ _ _ _ _ _ _)
  · intro h
    unfold autoIntegrateAfterCommitInner checkEarlySkips
    cases h with
    | context henabled text hcontext =>
      refine ⟨text, ?_⟩
      rw [henabled, if_neg (by decide), hcontext]
      rfl
    | skipTable henabled context hcontext branch target hbranch htarget text hskip =>
      refine ⟨text, ?_⟩
      obtain ⟨_, _, refresh, _⟩ := context
      cases hbranch
      cases htarget
      cases hskip
      rw [henabled, if_neg (by decide), hcontext]
      rfl
    | identity henabled context hcontext branch target hbranch htarget hskip text hidentity =>
      refine ⟨text, ?_⟩
      obtain ⟨_, _, refresh, _⟩ := context
      cases hbranch
      cases htarget
      cases hskip
      rw [henabled, if_neg (by decide), hcontext]
      show Except.bind answer.identity _ = _
      rw [hidentity]
      rfl

/-! ## Runs of seams -/

theorem record_skip_does_not_block (reason : String) (target : Option String) : ¬ Blocks (recordSkip reason target) := by
  rw [blocks_iff]
  unfold RebaseState.integrationUnresolved recordSkip
  simp

/-- A commit seam is called directly and an exception leaves its body. -/
def Bypasses (config : IntegrationConfig) (seam : Seam) : Prop :=
  ∃ answer, seam = .commit answer ∧ BodyRaises config answer

theorem commit_next_blocks_iff {config : IntegrationConfig} {state : RebaseState} {answer : CommitAnswer}
    (h : Blocks state) (hlands : (Seam.commit answer).lands config state = false) :
    Blocks ((Seam.commit answer).next config state) ↔ ¬ BodyRaises config answer := by
  rw [← inner_raises_iff config answer state]
  unfold Seam.lands at hlands
  unfold Seam.next
  unfold Seam.outcome autoIntegrateAfterCommit at hlands ⊢
  dsimp only at hlands ⊢
  cases hinner : autoIntegrateAfterCommitInner config answer state with
  | ok outcome =>
    rw [hinner] at hlands
    obtain ⟨kept, hkept, hwhy⟩ := preserve_blocks h
    dsimp only at hlands ⊢
    rw [hkept] at hlands ⊢
    refine iff_of_true ?_ ?_
    · rcases hwhy with hlanded | hblocks
      · exact absurd hlanded (by simpa using hlands)
      · exact hblocks
    · rintro ⟨text, htext⟩
      cases htext
  | error exc =>
    cases exc with
    | terminalStateViolation =>
      refine iff_of_true h ?_
      rintro ⟨text, htext⟩
      cases htext
    | exception text =>
      refine iff_of_false (record_skip_does_not_block _ _) ?_
      exact fun hnone => hnone ⟨text, rfl⟩

theorem boundary_next_blocks {config : IntegrationConfig} {state : RebaseState} {answer : BoundaryAnswer}
    (h : Blocks state) (hlands : (Seam.boundary answer).lands config state = false) :
    Blocks ((Seam.boundary answer).next config state) := by
  unfold Seam.lands at hlands
  unfold Seam.next
  unfold Seam.outcome autoIntegrateOnPhaseTransition at hlands ⊢
  dsimp only at hlands ⊢
  cases hinner : autoIntegrateOnPhaseTransitionInner config answer state with
  | error exc =>
    rw [hinner] at hlands
    exact h
  | ok outcome =>
    rw [hinner] at hlands
    obtain ⟨kept, hkept, hwhy⟩ := preserve_blocks h
    have hnext : (Except.ok outcome >>= fun outcome =>
        Except.ok (ε := Raised) (preserveUnresolvedResolutionState outcome state)) = .ok (some kept) :=
      congrArg Except.ok hkept
    rw [hnext] at hlands ⊢
    rcases hwhy with hlanded | hblocks
    · exact absurd hlanded (by simpa using hlands)
    · exact hblocks

theorem next_blocks_iff {config : IntegrationConfig} {state : RebaseState} {seam : Seam} (h : Blocks state)
    (hlands : seam.lands config state = false) : Blocks (seam.next config state) ↔ ¬ Bypasses config seam := by
  cases seam with
  | commit answer =>
    rw [commit_next_blocks_iff h hlands]
    refine not_congr ⟨fun hraises => ⟨answer, rfl, hraises⟩, ?_⟩
    rintro ⟨other, heq, hraises⟩
    cases heq
    exact hraises
  | boundary answer =>
    refine iff_of_true (boundary_next_blocks h hlands) ?_
    rintro ⟨other, heq, -⟩
    cases heq

def statesHeld (config : IntegrationConfig) : RebaseState → List Seam → List RebaseState
  | state, [] => [state]
  | state, seam :: rest => state :: statesHeld config (seam.next config state) rest

def NeverLands (config : IntegrationConfig) : RebaseState → List Seam → Prop
  | _, [] => True
  | state, seam :: rest => seam.lands config state = false ∧ NeverLands config (seam.next config state) rest

/-- Until a seam lands, states after a blocking one block, exactly when nothing leaves a commit seam called directly. -/
theorem evidence_sticks_iff (config : IntegrationConfig) (state : RebaseState) (seams : List Seam) (hblocks : Blocks state)
    (hnever : NeverLands config state seams) :
    (∀ held ∈ statesHeld config state seams, Blocks held) ↔ ∀ seam ∈ seams, ¬ Bypasses config seam := by
  induction seams generalizing state with
  | nil =>
    refine iff_of_true ?_ ?_
    · intro held hheld
      rw [mem_singleton.mp hheld]
      exact hblocks
    · intro seam hseam
      cases hseam
  | cons seam rest ih =>
    obtain ⟨hlands, hrest⟩ := hnever
    have hnext := next_blocks_iff hblocks hlands
    have hfirst : ∀ s l, s ∈ statesHeld config s l := by
      intro s l
      cases l with
      | nil => exact mem_singleton_self s
      | cons x l => exact mem_cons_self
    constructor
    · intro hall
      have hblocksNext : Blocks (seam.next config state) := hall _ (mem_cons_of_mem _ (hfirst _ _))
      have hlater := (ih _ hblocksNext hrest).mp fun held hheld => hall held (mem_cons_of_mem _ hheld)
      intro other hother
      rcases mem_cons.mp hother with rfl | hother
      · exact hnext.mp hblocksNext
      · exact hlater other hother
    · intro hclean held hheld
      rcases mem_cons.mp hheld with rfl | hheld
      · exact hblocks
      · have hblocksNext := hnext.mpr (hclean seam mem_cons_self)
        exact (ih _ hblocksNext hrest).mpr (fun other hother => hclean other (mem_cons_of_mem _ hother)) held hheld

def unreadableSeam : CommitAnswer where
  context := .error (.exception "not a git repository")
  identity := .ok {}
  attempts := fun _ => { identity := .ok {}, integration := .ok .headReadFailed }

def dirtyContext : Context where
  currentBranch := some "feature"
  target := some "main"
  refresh := none
  skipReason := .ok (some "preconditions not met: worktree not clean")

def dirtySeam : CommitAnswer where
  context := .ok dirtyContext
  identity := .ok {}
  attempts := fun _ => { identity := .ok {}, integration := .ok .headReadFailed }

def conflictState : RebaseState := { lastAction := some .conflict, lastTarget := some "main", consecutiveConflicts := 1 }

theorem evidence_sticks_dirty : Blocks conflictState ∧ NeverLands {} conflictState [.commit dirtySeam, .commit dirtySeam] ∧
      ∀ held ∈ statesHeld {} conflictState [.commit dirtySeam, .commit dirtySeam], Blocks held := by
  have hblocks : Blocks conflictState := by decide
  have hnever : NeverLands {} conflictState [.commit dirtySeam, .commit dirtySeam] :=
    ⟨by decide +kernel, by decide +kernel, trivial⟩
  refine ⟨hblocks, hnever, (evidence_sticks_iff {} conflictState _ hblocks hnever).mpr ?_⟩
  intro seam hseam
  have heq : seam = .commit dirtySeam := by simpa using hseam
  subst heq
  rintro ⟨answer, heq, hraises⟩
  cases heq
  cases hraises with
  | context henabled text hcontext => cases hcontext
  | skipTable henabled context hcontext branch target hbranch htarget text hskip =>
    cases hcontext
    cases hskip
  | identity henabled context hcontext branch target hbranch htarget hskip text hidentity => cases hidentity

/-- The seam does not land, and the verdict it was entered with is gone. -/
theorem evidence_lost_by_the_handler : Blocks conflictState ∧ (Seam.commit unreadableSeam).lands {} conflictState = false ∧
      ¬ ∀ held ∈ statesHeld {} conflictState [.commit unreadableSeam], Blocks held := by
  refine ⟨by decide, by decide +kernel, fun hall => ?_⟩
  have hlast := hall ((Seam.commit unreadableSeam).next {} conflictState)
    (mem_cons_of_mem _ (mem_singleton_self _))
  exact absurd hlast (by decide +kernel)

end RalphWorkflow.Integration
