import RalphWorkflow.Policy.Default
import RalphWorkflow.Proof.Frame

/-! Where `_advance_phase` lands for each target of the bundled policy, whatever the timer says: on the target itself
when its loop budget is open, and otherwise further down the phase graph. -/
namespace RalphWorkflow.Termination
open Lib Policy Pipeline Pipeline.Reducer Frame List Default

/-! ## Skipping exhausted phases -/

def loopOf (phase : String) : Option (String × Nat) :=
  if phase = "planning_analysis" then some ("planning_analysis_iteration", 3)
  else if phase = "development_analysis" then some ("development_analysis_iteration", 5)
  else if phase = "development_commit_cleanup" ∨ phase = "development_final_commit_cleanup" then
    some ("commit_cleanup_iteration", 3)
  else none

def Open (s : PipelineState) (phase : String) : Prop :=
  ∀ field cap, loopOf phase = some (field, cap) → s.getLoopIteration field < cap

/-- A target and where the run can land when the target is passed over. -/
def passes : List (String × String) :=
  [("planning_analysis", "development"), ("planning_analysis", "development_final_commit_cleanup"),
    ("development", "development_final_commit_cleanup"), ("development", "development_final_commit"),
    ("development_commit_cleanup", "development_commit"),
    ("development_analysis", "development_final_commit_cleanup"),
    ("development_analysis", "development_final_commit"),
    ("development_final_commit_cleanup", "development_final_commit")]

def KeepsLoops (s s' : PipelineState) (fields : List String) : Prop :=
  ∀ field, field ∉ fields → s'.getLoopIteration field = s.getLoopIteration field

variable {s s' : PipelineState} {t : String}

theorem keepsLoops_of_eq (h : s'.loopIterations = s.loopIterations) (fields : List String) : KeepsLoops s s' fields := by
  intro field _
  unfold PipelineState.getLoopIteration
  rw [h]

theorem keepsLoops_of_set {field : String} {value : Int} (h : s'.loopIterations = s.loopIterations.set field value) : KeepsLoops s s' [field] := by
  intro other hother
  unfold PipelineState.getLoopIteration
  rw [h, Dict.getD_set, if_neg (by simpa using hother)]

theorem KeepsLoops.trans {t u : PipelineState} {fields : List String} (h : KeepsLoops s t fields)
    (h' : KeepsLoops t u fields) : KeepsLoops s u fields := by
  intro field hfield
  rw [h' field hfield, h field hfield]

/-- What a bypass from `t` returns: the state itself when `t` is open, else a pass over `t`. -/
structure Bypassed (s : PipelineState) (t : String) (r : ExhaustedAnalysisBypassResult) : Prop where
  progress : SameProgress s r.state
  phase : r.state.phase = s.phase
  lands : (r.targetPhase = t ∧ r.skipped = [] ∧ r.state = s ∧ Open s t) ∨
    (r.skipped ≠ [] ∧ (t, r.targetPhase) ∈ passes ∧
      (t = "development_commit_cleanup" → KeepsLoops s r.state ["commit_cleanup_iteration"]))

theorem bypass_plain (hloop : (pipeline.phases.get? t).bind PhaseDefinition.loopPolicy = none) (hopen : loopOf t = none)
    (s : PipelineState) : ∃ r, resolveExhaustedAnalysisBypass s t pipeline = .ok r ∧ Bypassed s t r := by
  refine ⟨_, exhaustedAnalysisBypassFrom_stop not_mem_nil (skipIfExhausted_none hloop s) _ _, ?_⟩
  refine ⟨SameProgress.refl s, rfl, .inl ⟨rfl, rfl, rfl, ?_⟩⟩
  intro field cap h
  rw [hopen] at h
  exact absurd h (by simp)

theorem bypass_once {next field : String} {loopPolicy : PhaseLoopPolicy} {cap : Nat}
    (hloop : (pipeline.phases.get? t).bind PhaseDefinition.loopPolicy = some loopPolicy)
    (hfield : loopPolicy.iterationStateField = field) (hcap : resolveAnalysisCap field pipeline = .ok cap)
    (hnext : resolveNextPhase t .success pipeline = .ok next)
    (hplain : (pipeline.phases.get? next).bind PhaseDefinition.loopPolicy = none)
    (hof : loopOf t = some (field, cap)) (hpass : (t, next) ∈ passes) (hne : next ≠ t)
    (hcleanup : t = "development_commit_cleanup" → field = "commit_cleanup_iteration") (s : PipelineState) :
    ∃ r, resolveExhaustedAnalysisBypass s t pipeline = .ok r ∧ Bypassed s t r := by
  by_cases hspent : (cap : Int) ≤ s.getLoopIteration field
  · have hskip := skipIfExhausted_spent hloop hfield hcap hnext hspent
    obtain ⟨hprogress, hloops⟩ := skipAnalysis_frame s t field pipeline
    refine ⟨_, (exhaustedAnalysisBypassFrom_skip not_mem_nil hskip 10 []).trans
      (exhaustedAnalysisBypassFrom_stop (by simpa using hne) (skipIfExhausted_none hplain _) 9 _), ?_⟩
    refine ⟨hprogress, skipAnalysis_phase _ _ _ _, .inr ⟨by simp, hpass, ?_⟩⟩
    intro ht
    rw [← hcleanup ht]
    exact keepsLoops_of_set hloops
  · have hskip := skipIfExhausted_open hloop hfield hcap (by omega : s.getLoopIteration field < cap)
    refine ⟨_, exhaustedAnalysisBypassFrom_stop not_mem_nil hskip 10 [], ?_⟩
    refine ⟨SameProgress.refl s, rfl, .inl ⟨rfl, rfl, rfl, ?_⟩⟩
    intro field' cap' h
    rw [hof] at h
    cases h
    omega

theorem bypass_planningAnalysis (s : PipelineState) : ∃ r, resolveExhaustedAnalysisBypass s "planning_analysis" pipeline = .ok r ∧
      Bypassed s "planning_analysis" r :=
  bypass_once rfl rfl rfl rfl rfl rfl (by decide) (by decide) (by decide) s

theorem bypass_commitCleanup (s : PipelineState) : ∃ r, resolveExhaustedAnalysisBypass s "development_commit_cleanup" pipeline = .ok r ∧
      Bypassed s "development_commit_cleanup" r :=
  bypass_once rfl rfl rfl rfl rfl rfl (by decide) (by decide) (fun _ => rfl) s

theorem bypass_finalCommitCleanup (s : PipelineState) :
    ∃ r, resolveExhaustedAnalysisBypass s "development_final_commit_cleanup" pipeline = .ok r ∧
      Bypassed s "development_final_commit_cleanup" r :=
  bypass_once rfl rfl rfl rfl rfl rfl (by decide) (by decide) (by decide) s

theorem bypass_developmentAnalysis (s : PipelineState) : ∃ r, resolveExhaustedAnalysisBypass s "development_analysis" pipeline = .ok r ∧
      Bypassed s "development_analysis" r := by
  by_cases hspent : (5 : Int) ≤ s.getLoopIteration "development_analysis_iteration"
  · have hskip := @skipIfExhausted_spent pipeline "development_analysis" _ _ _ _ _
      rfl rfl rfl rfl hspent
    have hfirst := exhaustedAnalysisBypassFrom_skip not_mem_nil hskip 10 []
    have hframe := skipAnalysis_frame s "development_analysis" "development_analysis_iteration" pipeline
    have hphase := skipAnalysis_phase s "development_analysis" "development_analysis_iteration" pipeline
    generalize skipAnalysis s "development_analysis" "development_analysis_iteration" pipeline = s₁ at *
    by_cases hcleanup : (3 : Int) ≤ s₁.getLoopIteration "commit_cleanup_iteration"
    · have hskip₁ := @skipIfExhausted_spent pipeline "development_final_commit_cleanup" _ _ _ _ _ rfl rfl rfl rfl hcleanup
      have hframe₁ :=
        skipAnalysis_frame s₁ "development_final_commit_cleanup" "commit_cleanup_iteration" pipeline
      have hphase₁ :=
        skipAnalysis_phase s₁ "development_final_commit_cleanup" "commit_cleanup_iteration" pipeline
      have hnew : "development_final_commit" ∉ ["development_final_commit_cleanup", "development_analysis"] := by
        decide
      have hpass : ("development_analysis", "development_final_commit") ∈ passes := by decide
      refine ⟨_, (hfirst.trans (exhaustedAnalysisBypassFrom_skip (by decide) hskip₁ 9 _)).trans
        (exhaustedAnalysisBypassFrom_stop hnew (skipIfExhausted_none rfl _) 8 _), ?_⟩
      exact ⟨hframe.1.trans hframe₁.1, hphase₁.trans hphase,
        .inr ⟨by simp, hpass, fun h => absurd h (by decide)⟩⟩
    · have hskip₁ := @skipIfExhausted_open Default.pipeline "development_final_commit_cleanup" s₁ "commit_cleanup_iteration" _ 3 rfl rfl rfl
        (by omega)
      have hpass : ("development_analysis", "development_final_commit_cleanup") ∈ passes := by decide
      refine ⟨_, hfirst.trans (exhaustedAnalysisBypassFrom_stop (by decide) hskip₁ 9 _), ?_⟩
      exact ⟨hframe.1, hphase, .inr ⟨by simp, hpass, fun h => absurd h (by decide)⟩⟩
  · have hskip := @skipIfExhausted_open Default.pipeline "development_analysis" s "development_analysis_iteration" _ 5 rfl rfl rfl (by omega)
    refine ⟨_, exhaustedAnalysisBypassFrom_stop not_mem_nil hskip 10 [], SameProgress.refl s, rfl, ?_⟩
    refine .inl ⟨rfl, rfl, rfl, ?_⟩
    intro field cap h
    cases h
    omega

def phaseNames : List String :=
  ["planning", "planning_analysis", "development", "development_commit_cleanup", "development_commit",
    "development_analysis", "development_final_commit_cleanup", "development_final_commit", "complete",
    "failed_terminal"]

theorem bypass_of_mem (ht : t ∈ phaseNames) (s : PipelineState) :
    ∃ r, resolveExhaustedAnalysisBypass s t pipeline = .ok r ∧ Bypassed s t r := by
  simp only [phaseNames, mem_cons, not_mem_nil, or_false] at ht
  rcases ht with rfl | rfl | rfl | rfl | rfl | rfl | rfl | rfl | rfl | rfl
  · exact bypass_plain rfl rfl s
  · exact bypass_planningAnalysis s
  · exact bypass_plain rfl rfl s
  · exact bypass_commitCleanup s
  · exact bypass_plain rfl rfl s
  · exact bypass_developmentAnalysis s
  · exact bypass_finalCommitCleanup s
  · exact bypass_plain rfl rfl s
  · exact bypass_plain rfl rfl s
  · exact bypass_plain rfl rfl s

/-! ## Landing -/

theorem entries_of_get? {phase : String} {phaseDef : PhaseDefinition}
    (h : pipeline.phases.get? phase = some phaseDef) : (phase, phaseDef) ∈ pipeline.phases.entries :=
  (Dict.get?_eq_some_iff _ _ _).mp h

theorem analysis_cases {phase : String} (h : phaseHasRole pipeline phase .analysis = true) :
    phase = "planning_analysis" ∨ phase = "development_analysis" := by
  unfold phaseHasRole at h
  split at h
  · rename_i phaseDef hdef
    have hmem := entries_of_get? hdef
    simp only [pipeline, mem_cons, Prod.mk.injEq, not_mem_nil, or_false] at hmem
    rcases hmem with ⟨rfl, rfl⟩ | ⟨rfl, rfl⟩ | ⟨rfl, rfl⟩ | ⟨rfl, rfl⟩ | ⟨rfl, rfl⟩ | ⟨rfl, rfl⟩ | ⟨rfl, rfl⟩ |
      ⟨rfl, rfl⟩ | ⟨rfl, rfl⟩ | ⟨rfl, rfl⟩
    case inr.inl => exact .inl rfl
    case inr.inr.inr.inr.inr.inl => exact .inr rfl
    all_goals exact absurd h (by decide)
  · exact absurd h (by decide)

def LeavesForward (s : PipelineState) (t : String) : Prop :=
  (s.phase = "planning_analysis" ∧ t = "development") ∨
    (s.phase = "development_analysis" ∧ t = "development_final_commit_cleanup")

def LandsOn (t f : String) : Prop := f = t ∨ (t, f) ∈ passes

def OwnSpec (s : PipelineState) (t : String) (own : Option ExhaustedAnalysisBypassResult) : Prop :=
  ∀ r, own = some r → SameProgress s r.state ∧ LeavesForward s t ∧ LandsOn t r.targetPhase

theorem ownSpec_none (s : PipelineState) (t : String) : OwnSpec s t none := by
  intro r h
  exact absurd h (by simp)

theorem ownBypass_analysis {next : String} (t : String) (hrole : phaseHasRole pipeline s.phase .analysis = true)
    (hnext : resolveNextPhase s.phase .success pipeline = .ok next) (hforward : LeavesForward s next)
    (hbypass : ∃ r, resolveExhaustedAnalysisBypass s s.phase pipeline = .ok r ∧ Bypassed s s.phase r)
    (hpast : ∀ f, (s.phase, f) ∈ passes → LandsOn next f) :
    ∃ own, ownBypass s t pipeline = .ok own ∧ OwnSpec s t own := by
  unfold ownBypass
  rw [if_pos hrole, hnext]
  dsimp only
  by_cases ht : next = t
  · subst ht
    obtain ⟨r, hr, hspec⟩ := hbypass
    rw [if_pos rfl, hr]
    refine ⟨_, rfl, ?_⟩
    intro r' hr'
    split at hr'
    · exact absurd hr' (by simp)
    · rename_i hskipped
      cases hr'
      refine ⟨hspec.progress, hforward, ?_⟩
      rcases hspec.lands with hstays | hpasses
      · exact absurd (by rw [hstays.2.1]; rfl) hskipped
      · exact hpast _ hpasses.2.1
  · rw [if_neg ht]
    exact ⟨none, rfl, ownSpec_none s t⟩

theorem ownBypass_spec (s : PipelineState) (t : String) : ∃ own, ownBypass s t pipeline = .ok own ∧ OwnSpec s t own := by
  cases hrole : phaseHasRole pipeline s.phase .analysis with
  | false =>
    unfold ownBypass
    rw [hrole]
    exact ⟨none, rfl, ownSpec_none s t⟩
  | true =>
    rcases analysis_cases hrole with hphase | hphase
    · refine ownBypass_analysis t hrole (by rw [hphase]; rfl) (.inl ⟨hphase, rfl⟩)
        (by rw [hphase]; exact bypass_planningAnalysis s) ?_
      intro f hf
      rw [hphase] at hf
      simp only [passes, mem_cons, Prod.mk.injEq, not_mem_nil, or_false] at hf
      simp only [LandsOn, passes, mem_cons, Prod.mk.injEq, not_mem_nil, or_false]
      simp at hf ⊢
      exact hf.imp_right .inl
    · refine ownBypass_analysis t hrole (by rw [hphase]; rfl)
        (.inr ⟨hphase, rfl⟩) (by rw [hphase]; exact bypass_developmentAnalysis s) ?_
      intro f hf
      rw [hphase] at hf
      simp [passes] at hf
      simp [LandsOn, passes]
      exact hf

theorem withBypassedCycleTiming_spec (r : ExhaustedAnalysisBypassResult) (timing : Option RoutingTiming) (justStarted : Bool) :
    SameProgress r.state (withBypassedCycleTiming r pipeline timing justStarted).1 ∧
      (withBypassedCycleTiming r pipeline timing justStarted).1.loopIterations = r.state.loopIterations ∧
      ((withBypassedCycleTiming r pipeline timing justStarted).2 = r.targetPhase ∨
        r.skipped ≠ [] ∧ r.targetPhase = "development" ∧
          (withBypassedCycleTiming r pipeline timing justStarted).2 =
            "development_final_commit_cleanup") := by
  obtain ⟨hprogress, hloops⟩ := withBypassedCycleTiming_frame r pipeline timing justStarted
  refine ⟨hprogress, hloops, ?_⟩
  unfold withBypassedCycleTiming
  split
  · exact .inl rfl
  · rename_i hskipped
    rcases applyCycleTimebox_target r.state r.targetPhase pipeline timing with h | ⟨ct, hct, hguarded, htarget⟩
    · exact .inl h
    · cases hct
      refine .inr ⟨?_, hguarded, htarget⟩
      intro hnil
      rw [hnil] at hskipped
      exact hskipped rfl

/-- Where an advance towards `t` lands, and which loop counters it is known to keep. -/
def Place (s : PipelineState) (t : String) (s' : PipelineState) : Prop :=
  (s'.phase = t ∧ (¬ LeavesForward s t → Open s t ∧ KeepsLoops s s' [])) ∨
    ((t, s'.phase) ∈ passes ∧ (t = "development_commit_cleanup" → KeepsLoops s s' ["commit_cleanup_iteration"]))

structure Lands (s : PipelineState) (t : String) (s' : PipelineState) : Prop where
  budgetCaps : s'.budgetCaps = s.budgetCaps
  outerProgress : s'.outerProgress = s.outerProgress
  override : s'.postCommitPhaseOverride = s.postCommitPhaseOverride
  charged : s'.executionCycleCharged =
    if phaseHasRole pipeline s'.phase .execution then false else s.executionCycleCharged
  commit : s'.commit = if phaseHasRole pipeline s'.phase .commit then {} else s.commit
  place : Place s t s'

theorem lands_of_bypass {r : ExhaustedAnalysisBypassResult}
    (timing : Option RoutingTiming) (justStarted : Bool) (hprogress : SameProgress s r.state)
    (hplace : ∀ s' : PipelineState, s'.loopIterations = r.state.loopIterations →
      (s'.phase = r.targetPhase ∨ r.skipped ≠ [] ∧ r.targetPhase = "development" ∧
        s'.phase = "development_final_commit_cleanup") → Place s t s') :
    let resolved := concludedIfLeavingCycle (withBypassedCycleTiming r pipeline timing justStarted)
      pipeline
    Lands s t (Pipeline.advancePhase resolved.1 resolved.2 pipeline) := by
  obtain ⟨htimed, hloops, htarget⟩ := withBypassedCycleTiming_spec r timing justStarted
  dsimp only [concludedIfLeavingCycle]
  generalize withBypassedCycleTiming r pipeline timing justStarted = timed at *
  obtain ⟨hconclude, hconcludeLoops⟩ := concludeCycle_frame timed.1 timed.2 pipeline
  have hall := (hprogress.trans htimed).trans hconclude
  refine ⟨hall.budgetCaps, hall.outerProgress, hall.override, ?_, ?_, hplace _ (hconcludeLoops.trans hloops) htarget⟩
  · rw [← hall.charged]
    rfl
  · rw [← hall.commit]
    rfl

theorem place_of_landsOn (hne : t ≠ "development_commit_cleanup") (hforward : LeavesForward s t) (hland : LandsOn t s'.phase) : Place s t s' := by
  rcases hland with h | h
  · exact .inl ⟨h, fun hnot => absurd hforward hnot⟩
  · exact .inr ⟨h, fun heq => absurd heq hne⟩

theorem place_of_redirect (hland : LandsOn "development_final_commit_cleanup" s'.phase) : Place s "development" s' := by
  refine .inr ⟨?_, fun h => absurd h (by decide)⟩
  rcases hland with h | h
  · rw [h]
    decide
  · simp [passes] at h
    rw [h]
    decide

theorem open_of_loops (h : s'.loopIterations = s.loopIterations) (hopen : Open s' t) : Open s t := by
  intro field cap hloop
  have hlt := hopen field cap hloop
  unfold PipelineState.getLoopIteration at hlt ⊢
  rw [← h]
  exact hlt

theorem passes_development (h : (t, "development") ∈ passes) : t = "planning_analysis" := by
  simp [passes] at h
  exact h

theorem advance_lands (s : PipelineState) (ht : t ∈ phaseNames) (timing : Option RoutingTiming) :
    ∃ s', Reducer.advancePhase s t pipeline timing = .ok (s', []) ∧ Lands s t s' := by
  obtain ⟨hprogress, hphase, hloops⟩ := applyCycleTimebox_frame s t pipeline timing
  have htarget := applyCycleTimebox_target s t pipeline timing
  unfold Reducer.advancePhase preparePhaseAdvance
  dsimp only
  generalize applyCycleTimebox s t pipeline timing = decision at *
  obtain ⟨own, hown, hspec⟩ := ownBypass_spec decision.state decision.targetPhase
  rw [hown]
  have hforward : ∀ t', LeavesForward decision.state t' → LeavesForward s t' := by
    intro t' h
    unfold LeavesForward at h ⊢
    rw [← hphase]
    exact h
  have hredirect : decision.targetPhase ≠ t → t = "development" ∧ decision.targetPhase = "development_final_commit_cleanup" := by
    intro hne
    rcases htarget with h | ⟨ct, hct, hguarded, hfinal⟩
    · exact absurd h hne
    · cases hct
      exact ⟨hguarded, hfinal⟩
  cases own with
  | some r =>
    obtain ⟨hr, hleaves, hland⟩ := hspec r rfl
    refine ⟨_, rfl, lands_of_bypass timing decision.timingStarted (hprogress.trans hr) ?_⟩
    intro s' _ hs'
    have hfinal : LandsOn decision.targetPhase s'.phase := by
      rcases hs' with h | ⟨_, hdev, h⟩
      · rw [h]
        exact hland
      · -- only the planning analysis is left towards `development`
        rw [hdev] at hland
        rcases hland with heq | hpass
        · rw [h, ← heq]
          exact .inr (by decide)
        · have hpa := passes_development hpass
          rw [hpa] at hleaves
          rcases hleaves with ⟨_, habs⟩ | ⟨_, habs⟩
          · exact absurd habs (by decide)
          · exact absurd habs (by decide)
    by_cases heq : decision.targetPhase = t
    · rw [heq] at hfinal hleaves
      refine place_of_landsOn ?_ (hforward t hleaves) hfinal
      rcases hleaves with ⟨_, h⟩ | ⟨_, h⟩ <;> rw [h] <;> decide
    · obtain ⟨hdev, hcleanup⟩ := hredirect heq
      rw [hcleanup] at hfinal
      rw [hdev]
      exact place_of_redirect hfinal
  | none =>
    have hmem : decision.targetPhase ∈ phaseNames := by
      by_cases heq : decision.targetPhase = t
      · rw [heq]
        exact ht
      · rw [(hredirect heq).2]
        decide
    obtain ⟨r, hr, hbypass⟩ := bypass_of_mem hmem decision.state
    dsimp only [bind, Except.bind]
    rw [hr]
    refine ⟨_, rfl, lands_of_bypass timing decision.timingStarted (hprogress.trans hbypass.progress) ?_⟩
    intro s' hkept hs'
    by_cases heq : decision.targetPhase = t
    · rw [heq] at hbypass
      rcases hbypass.lands with ⟨htarget', hskipped, hstate, hopen⟩ | ⟨hskipped, hpass, hkeeps⟩
      · have hstay : s'.phase = t := by
          rcases hs' with h | ⟨hne, _⟩
          · rw [h, htarget']
          · exact absurd hskipped hne
        rw [hstate] at hkept
        exact .inl ⟨hstay, fun _ => ⟨open_of_loops hloops hopen, keepsLoops_of_eq (hkept.trans hloops) []⟩⟩
      · rcases hs' with h | ⟨_, hdev, h⟩
        · refine .inr ⟨by rw [h]; exact hpass, fun hcleanup => ?_⟩
          have hfirst := keepsLoops_of_eq hloops ["commit_cleanup_iteration"]
          have hlast := keepsLoops_of_eq hkept ["commit_cleanup_iteration"]
          exact (hfirst.trans (hkeeps hcleanup)).trans hlast
        · rw [hdev] at hpass
          have hpa := passes_development hpass
          rw [hpa]
          exact .inr ⟨by rw [h]; decide, fun habs => absurd habs (by decide)⟩
    · obtain ⟨hdev, hcleanup⟩ := hredirect heq
      rw [hcleanup] at hbypass
      rw [hdev]
      refine place_of_redirect ?_
      rcases hbypass.lands with ⟨htarget', hskipped, _⟩ | ⟨_, hpass, _⟩
      · rcases hs' with h | ⟨hne, _⟩
        · exact .inl (h.trans htarget')
        · exact absurd hskipped hne
      · rcases hs' with h | ⟨_, habs, _⟩
        · exact .inr (by rw [h]; exact hpass)
        · rw [habs] at hpass
          exact absurd (passes_development hpass) (by decide)

end RalphWorkflow.Termination
