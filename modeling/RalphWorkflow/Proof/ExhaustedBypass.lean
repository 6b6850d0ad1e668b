import RalphWorkflow.Proof.Totality

/-! Where the walk along success transitions ends, what it resets on the way, and what a second walk from its end does. -/
namespace RalphWorkflow.ExhaustedBypass
open Lib Policy Pipeline List Option ExhaustedAnalysisSkip

variable {policy : PipelinePolicy} {state next final : PipelineState} {target last phase field : String}
  {visited : List String} {skip : ExhaustedAnalysisSkip} {skips : List ExhaustedAnalysisSkip} {fuel cap : Nat}

inductive Loop (policy : PipelinePolicy) :
    PipelineState → String → List String → List ExhaustedAnalysisSkip → PipelineState → String → Prop
  | revisited {state : PipelineState} {target : String} {visited : List String} (hseen : target ∈ visited) :
      Loop policy state target visited [] state target
  | stopped {state : PipelineState} {target : String} {visited : List String} (hnew : target ∉ visited)
      (hstop : skipIfExhausted state target policy = .ok none) : Loop policy state target visited [] state target
  | skipped {state next final : PipelineState} {target last : String} {visited : List String}
      {skip : ExhaustedAnalysisSkip} {skips : List ExhaustedAnalysisSkip} (hnew : target ∉ visited)
      (hskip : skipIfExhausted state target policy = .ok (some (skip, next)))
      (hrest : Loop policy next skip.targetPhase (target :: visited) skips final last) :
      Loop policy state target visited (skip :: skips) final last

def counterOf (policy : PipelinePolicy) (phase : String) : Option String :=
  ((policy.phases.get? phase).bind PhaseDefinition.loopPolicy).map PhaseLoopPolicy.iterationStateField

def Exhausted (policy : PipelinePolicy) (state : PipelineState) (phase : String) (cap : Nat) : Prop :=
  ∃ field, counterOf policy phase = some field ∧ resolveAnalysisCap field policy = .ok cap ∧
    (cap : Int) ≤ state.getLoopIteration field

/-! ## One pass -/

structure Declares (policy : PipelinePolicy) (skip : ExhaustedAnalysisSkip) : Prop where
  counter : counterOf policy skip.phase = some skip.iterationField
  cap : resolveAnalysisCap skip.iterationField policy = .ok skip.maxIterations
  onSuccess : resolveNextPhase skip.phase .success policy = .ok skip.targetPhase

theorem counterOf_eq_some (hcounter : counterOf policy phase = some field) :
    ∃ loopPolicy, (policy.phases.get? phase).bind PhaseDefinition.loopPolicy = some loopPolicy ∧
      loopPolicy.iterationStateField = field :=
  map_eq_some_iff.mp hcounter

theorem skip_declares (hskip : skipIfExhausted state phase policy = .ok (some (skip, next))) :
    skip.phase = phase ∧ Declares policy skip ∧ next = skipAnalysis state phase skip.iterationField policy := by
  unfold skipIfExhausted at hskip
  cases hloop : (policy.phases.get? phase).bind PhaseDefinition.loopPolicy with
  | none =>
    rw [hloop] at hskip
    cases hskip
  | some loopPolicy =>
    rw [hloop] at hskip
    obtain ⟨cap, hcap, hrest⟩ := (bind_eq_ok_iff _ _ _).mp hskip
    split at hrest
    · obtain ⟨target, htarget, hresult⟩ := (bind_eq_ok_iff _ _ _).mp hrest
      cases hresult
      have hcounter : counterOf policy phase = some loopPolicy.iterationStateField := by
        unfold counterOf
        rw [hloop]
        rfl
      exact ⟨rfl, ⟨hcounter, hcap, htarget⟩, rfl⟩
    · cases hrest

theorem skip_of_spent (hdeclares : Declares policy skip) (hspent : (skip.maxIterations : Int) ≤ state.getLoopIteration skip.iterationField) :
    ∃ again, skipIfExhausted state skip.phase policy = .ok (some (again, skipAnalysis state skip.phase skip.iterationField policy)) ∧
      again.targetPhase = skip.targetPhase := by
  obtain ⟨loopPolicy, hloop, hfield⟩ := counterOf_eq_some hdeclares.counter
  exact ⟨_, skipIfExhausted_spent hloop hfield hdeclares.cap hdeclares.onSuccess hspent, rfl⟩

theorem stop_of_open (hdeclares : Declares policy skip) (hopen : state.getLoopIteration skip.iterationField < skip.maxIterations) :
    skipIfExhausted state skip.phase policy = .ok none := by
  obtain ⟨loopPolicy, hloop, hfield⟩ := counterOf_eq_some hdeclares.counter
  exact skipIfExhausted_open hloop hfield hdeclares.cap hopen

theorem not_exhausted_of_stop (hstop : skipIfExhausted state phase policy = .ok none) : ¬ Exhausted policy state phase cap := by
  rintro ⟨field, hcounter, hcap, hspent⟩
  obtain ⟨loopPolicy, hloop, rfl⟩ := counterOf_eq_some hcounter
  rcases skipIfExhausted_eq_none hstop with hnone | ⟨loopPolicy', cap', hloop', hcap', hopen⟩
  · rw [hloop] at hnone
    cases hnone
  · cases hloop.symm.trans hloop'
    cases hcap.symm.trans hcap'
    omega

/-! ## The bound of the model -/

theorem mem_keys_of_counterOf (hcounter : counterOf policy phase = some field) : phase ∈ policy.phases.keys := by
  obtain ⟨loopPolicy, hloop, -⟩ := counterOf_eq_some hcounter
  obtain ⟨phaseDef, hphase, -⟩ := bind_eq_some_iff.mp hloop
  exact (Dict.mem_keys_iff _ _).mpr ((Dict.contains_iff _ _).mpr ⟨phaseDef, hphase⟩)

theorem loop_of_bypassFrom {skipped : List ExhaustedAnalysisSkip} {result : ExhaustedAnalysisBypassResult}
    (hkeys : ∀ p ∈ visited, p ∈ policy.phases.keys) (hnodup : visited.Nodup)
    (hfuel : policy.phases.keys.length < fuel + visited.length)
    (h : exhaustedAnalysisBypassFrom policy fuel state target skipped visited = .ok result) :
    ∃ skips, result.skipped = skipped ++ skips ∧ Loop policy state target visited skips result.state result.targetPhase := by
  induction fuel generalizing state target skipped visited with
  | zero =>
    have hle : visited.length ≤ policy.phases.keys.length := (subperm_of_subset hnodup hkeys).length_le
    omega
  | succ fuel ih =>
    by_cases hseen : target ∈ visited
    · rw [exhaustedAnalysisBypassFrom, if_pos hseen] at h
      cases h
      exact ⟨[], (append_nil _).symm, .revisited hseen⟩
    · rw [exhaustedAnalysisBypassFrom, if_neg hseen] at h
      obtain ⟨skip?, hskip, hrest⟩ := (bind_eq_ok_iff _ _ _).mp h
      cases skip? with
      | none =>
        cases hrest
        exact ⟨[], (append_nil _).symm, .stopped hseen hskip⟩
      | some pair =>
        obtain ⟨skip, next⟩ := pair
        obtain ⟨hphase, hdeclares, -⟩ := skip_declares hskip
        have hkey : target ∈ policy.phases.keys := hphase ▸ mem_keys_of_counterOf hdeclares.counter
        have hbound : policy.phases.keys.length < fuel + (target :: visited).length := by
          rw [length_cons]
          omega
        obtain ⟨skips, hskips, hloop⟩ := ih (forall_mem_cons.mpr ⟨hkey, hkeys⟩)
          (nodup_cons.mpr ⟨hseen, hnodup⟩) hbound hrest
        exact ⟨skip :: skips, by rw [hskips, append_assoc]; rfl, .skipped hseen hskip hloop⟩

theorem Loop.bypassFrom (hloop : Loop policy state target visited skips final last) (hfuel : skips.length < fuel)
    (skipped : List ExhaustedAnalysisSkip) :
    exhaustedAnalysisBypassFrom policy fuel state target skipped visited = .ok ⟨final, last, skipped ++ skips⟩ := by
  induction hloop generalizing fuel skipped with
  | revisited hseen =>
    obtain ⟨fuel, rfl⟩ := Nat.exists_eq_add_one_of_ne_zero (Nat.ne_zero_of_lt hfuel)
    rw [exhaustedAnalysisBypassFrom, if_pos hseen, append_nil]
  | stopped hnew hstop =>
    obtain ⟨fuel, rfl⟩ := Nat.exists_eq_add_one_of_ne_zero (Nat.ne_zero_of_lt hfuel)
    rw [exhaustedAnalysisBypassFrom_stop hnew hstop, append_nil]
  | skipped hnew hskip hrest ih =>
    obtain ⟨fuel, rfl⟩ := Nat.exists_eq_add_one_of_ne_zero (Nat.ne_zero_of_lt hfuel)
    rw [exhaustedAnalysisBypassFrom_skip hnew hskip, ih (Nat.lt_of_succ_lt_succ hfuel), append_assoc]
    rfl

/-! ## What a walk leaves -/

def Trail : String → List ExhaustedAnalysisSkip → String → Prop
  | phase, [], last => phase = last
  | phase, skip :: skips, last => skip.phase = phase ∧ Trail skip.targetPhase skips last

theorem Trail.split {before after : List ExhaustedAnalysisSkip} (htrail : Trail phase (before ++ skip :: after) last) :
    Trail skip.phase (skip :: after) last := by
  induction before generalizing phase with
  | nil => exact ⟨rfl, htrail.2⟩
  | cons first before ih => exact ih htrail.2

theorem Loop.trail (hloop : Loop policy state target visited skips final last) :
    Trail target skips last ∧ (skips.map ExhaustedAnalysisSkip.phase).Nodup ∧
      (∀ skip ∈ skips, skip.phase ∉ visited ∧ Declares policy skip) := by
  induction hloop with
  | revisited hseen => exact ⟨rfl, nodup_nil, fun _ h => absurd h not_mem_nil⟩
  | stopped hnew hstop => exact ⟨rfl, nodup_nil, fun _ h => absurd h not_mem_nil⟩
  | skipped hnew hskip hrest ih =>
    obtain ⟨htrail, hnodup, hskips⟩ := ih
    obtain ⟨hphase, hdeclares, -⟩ := skip_declares hskip
    refine ⟨⟨hphase, htrail⟩, nodup_cons.mpr ⟨?_, hnodup⟩, forall_mem_cons.mpr ⟨⟨?_, hdeclares⟩, ?_⟩⟩
    · intro hmem
      obtain ⟨later, hlater, heq⟩ := mem_map.mp hmem
      exact (hskips later hlater).1 (heq ▸ hphase ▸ mem_cons_self)
    · rw [hphase]
      exact hnew
    · exact fun later hlater => ⟨fun h => (hskips later hlater).1 (mem_cons_of_mem _ h), (hskips later hlater).2⟩

theorem Loop.end (hloop : Loop policy state target visited skips final last) :
    last ∈ visited ∨ last ∈ skips.map ExhaustedAnalysisSkip.phase ∨ skipIfExhausted final last policy = .ok none := by
  induction hloop with
  | revisited hseen => exact .inl hseen
  | stopped hnew hstop => exact .inr (.inr hstop)
  | skipped hnew hskip hrest ih =>
    obtain ⟨hphase, -, -⟩ := skip_declares hskip
    rcases ih with hseen | hlater | hstop
    · rcases mem_cons.mp hseen with hfirst | hseen
      · exact .inr (.inl (hfirst ▸ hphase ▸ mem_cons_self))
      · exact .inl hseen
    · exact .inr (.inl (mem_cons_of_mem _ hlater))
    · exact .inr (.inr hstop)

theorem stampForwardOutcome_eq (state : PipelineState) (phase : String) : stampForwardOutcome state phase policy =
      { state with pendingCycleOutcome := state.pendingCycleOutcome.or (declaredForwardCycleOutcome phase policy) } := by
  unfold stampForwardOutcome
  cases hdeclared : declaredForwardCycleOutcome phase policy with
  | none => rw [or_none]
  | some outcome =>
    cases hpending : state.pendingCycleOutcome with
    | none => rfl
    | some verdict =>
      rw [some_or]
      simp only
      rw [← hpending]

theorem skipAnalysis_eq (state : PipelineState) (phase field : String) : skipAnalysis state phase field policy = { state with
        loopIterations := state.loopIterations.set field 0
        reviewOutcome := none
        pendingCycleOutcome := state.pendingCycleOutcome.or (declaredForwardCycleOutcome phase policy) } :=
  stampForwardOutcome_eq _ phase

theorem getLoopIteration_skipAnalysis (state : PipelineState) (phase field other : String) :
    (skipAnalysis state phase field policy).getLoopIteration other =
      if other = field then 0 else state.getLoopIteration other := by
  rw [skipAnalysis_eq]
  exact Dict.getD_set _ _ _ _ _

theorem Loop.counters (hloop : Loop policy state target visited skips final last) (other : String) : final.getLoopIteration other =
      if other ∈ skips.map iterationField then 0 else state.getLoopIteration other := by
  induction hloop with
  | revisited hseen => rfl
  | stopped hnew hstop => rfl
  | @skipped state next final target last visited skip skips hnew hskip hrest ih =>
    obtain ⟨-, -, rfl⟩ := skip_declares hskip
    rw [ih, getLoopIteration_skipAnalysis]
    by_cases hlater : other ∈ skips.map iterationField
    · simp [hlater]
    · simp [hlater]

theorem Loop.frame (hloop : Loop policy state target visited skips final last) : ∃ loops review outcome, final =
      { state with loopIterations := loops, reviewOutcome := review, pendingCycleOutcome := outcome } := by
  induction hloop with
  | revisited hseen => exact ⟨_, _, _, rfl⟩
  | stopped hnew hstop => exact ⟨_, _, _, rfl⟩
  | @skipped state next final target last visited skip skips hnew hskip hrest ih =>
    obtain ⟨-, -, rfl⟩ := skip_declares hskip
    obtain ⟨loops, review, verdict, hfinal⟩ := ih
    rw [skipAnalysis_eq] at hfinal
    exact ⟨loops, review, verdict, hfinal⟩

/-! ## A second walk -/

/-- Skipping the phase once more would change nothing. -/
structure Settled (policy : PipelinePolicy) (state : PipelineState) (phase field : String) : Prop where
  counter : state.loopIterations.get? field = some 0
  review : state.reviewOutcome = none
  verdict : state.pendingCycleOutcome.or (declaredForwardCycleOutcome phase policy) = state.pendingCycleOutcome

theorem skipAnalysis_settled (state : PipelineState) (phase field : String) :
    Settled policy (skipAnalysis state phase field policy) phase field := by
  rw [skipAnalysis_eq]
  refine ⟨?_, rfl, ?_⟩
  · rw [Dict.get?_set, if_pos rfl]
  · rw [Option.or_assoc, Option.or_self]

theorem Settled.skipAnalysis (hsettled : Settled policy state phase field) (otherPhase other : String) :
    Settled policy (skipAnalysis state otherPhase other policy) phase field := by
  obtain ⟨hcounter, hreview, hverdict⟩ := hsettled
  rw [skipAnalysis_eq]
  refine ⟨?_, rfl, ?_⟩
  · rw [Dict.get?_set, hcounter, ite_self]
  · cases hpending : state.pendingCycleOutcome with
    | some verdict => rfl
    | none =>
      have hnone : declaredForwardCycleOutcome phase policy = none := by
        rw [hpending] at hverdict
        exact hverdict
      rw [hnone, or_none]

theorem Settled.fixed (hsettled : Settled policy state phase field) : Pipeline.skipAnalysis state phase field policy = state := by
  obtain ⟨hcounter, hreview, hverdict⟩ := hsettled
  rw [skipAnalysis_eq, Dict.set_eq_self hcounter, hverdict, ← hreview]

theorem Loop.keeps_settled (hloop : Loop policy state target visited skips final last)
    (hsettled : Settled policy state phase field) : Settled policy final phase field := by
  induction hloop with
  | revisited hseen => exact hsettled
  | stopped hnew hstop => exact hsettled
  | skipped hnew hskip hrest ih =>
    obtain ⟨-, -, rfl⟩ := skip_declares hskip
    exact ih (hsettled.skipAnalysis _ _)

theorem Loop.settles (hloop : Loop policy state target visited skips final last) :
    ∀ skip ∈ skips, Settled policy final skip.phase skip.iterationField := by
  induction hloop with
  | revisited hseen => exact fun _ h => absurd h not_mem_nil
  | stopped hnew hstop => exact fun _ h => absurd h not_mem_nil
  | skipped hnew hskip hrest ih =>
    obtain ⟨rfl, -, rfl⟩ := skip_declares hskip
    exact forall_mem_cons.mpr ⟨hrest.keeps_settled (skipAnalysis_settled _ _ _), ih⟩

theorem Settled.count (hsettled : Settled policy state phase field) : state.getLoopIteration field = 0 := by
  unfold PipelineState.getLoopIteration Dict.getD
  rw [hsettled.counter, getD_some]

/-- A walk along settled phases changes nothing; it comes back to `last` or stops on a phase with room. -/
theorem exists_loop_again (htrail : Trail phase skips last) (hsettled : ∀ skip ∈ skips, Settled policy state skip.phase skip.iterationField)
    (hdeclares : ∀ skip ∈ skips, Declares policy skip) (hnodup : (skips.map ExhaustedAnalysisSkip.phase).Nodup)
    (hnew : ∀ skip ∈ skips, skip.phase ∉ visited) (hlast : last ∈ visited ∨ phase = last ∧ skips ≠ []) :
    ∃ again there, Loop policy state phase visited again state there ∧
      (there = last ∨ ∃ skip ∈ skips, skip.phase = there ∧ 0 < skip.maxIterations ∧
        skipIfExhausted state there policy = .ok none) := by
  induction skips generalizing phase visited with
  | nil =>
    have hphase : phase = last := htrail
    have hseen : last ∈ visited := hlast.resolve_right fun h => h.2 rfl
    exact ⟨[], phase, .revisited (hphase ▸ hseen), .inl hphase⟩
  | cons skip skips ih =>
    obtain ⟨rfl, htrail⟩ := htrail
    obtain ⟨hfirst, hsettled⟩ := forall_mem_cons.mp hsettled
    obtain ⟨hdeclared, hdeclares⟩ := forall_mem_cons.mp hdeclares
    obtain ⟨hfresh, hnew⟩ := forall_mem_cons.mp hnew
    rw [map_cons, nodup_cons] at hnodup
    by_cases hroom : 0 < skip.maxIterations
    · have hstop : skipIfExhausted state skip.phase policy = .ok none :=
        stop_of_open hdeclared (by rw [hfirst.count]; omega)
      exact ⟨[], skip.phase, .stopped hfresh hstop, .inr ⟨skip, mem_cons_self, rfl, hroom, hstop⟩⟩
    · have hspent : (skip.maxIterations : Int) ≤ state.getLoopIteration skip.iterationField := by
        rw [hfirst.count]
        omega
      obtain ⟨first, hskip, htarget⟩ := skip_of_spent hdeclared hspent
      rw [hfirst.fixed] at hskip
      have hlater : ∀ later ∈ skips, later.phase ∉ skip.phase :: visited := by
        intro later hlater hmem
        rcases mem_cons.mp hmem with heq | hmem
        · exact hnodup.1 (mem_map.mpr ⟨later, hlater, heq⟩)
        · exact hnew later hlater hmem
      have hseen : last ∈ skip.phase :: visited := by
        rcases hlast with hseen | ⟨heq, -⟩
        · exact mem_cons_of_mem _ hseen
        · exact heq ▸ mem_cons_self
      obtain ⟨again, there, hloop, hthere⟩ := ih htrail hsettled hdeclares hnodup.2 hlater (.inl hseen)
      refine ⟨first :: again, there, .skipped hfresh hskip (htarget ▸ hloop), hthere.imp_right ?_⟩
      rintro ⟨later, hmem, hfacts⟩
      exact ⟨later, mem_cons_of_mem _ hmem, hfacts⟩

/-! ## The walk and the walk after it -/

/-- The walk from its own end, which is the same walk unless `stuck`. -/
structure Again (policy : PipelinePolicy) (result again : ExhaustedAnalysisBypassResult) : Prop where
  state : again.state = result.state
  /-- The end has a cap of zero, followed by a phase that has room since the first walk. -/
  target : again.targetPhase = result.targetPhase ∨
    Exhausted policy result.state result.targetPhase 0 ∧
      (∃ skip ∈ result.skipped, skip.phase = again.targetPhase ∧ 0 < skip.maxIterations) ∧
      resolveExhaustedAnalysisBypass again.state again.targetPhase policy = .ok ⟨again.state, again.targetPhase, []⟩

structure Settles (policy : PipelinePolicy) (state : PipelineState) (target : String)
    (result : ExhaustedAnalysisBypassResult) : Prop where
  loop : Loop policy state target [] result.skipped result.state result.targetPhase
  target : ∀ cap, Exhausted policy result.state result.targetPhase cap → cap = 0
  skipped : ∀ skip ∈ result.skipped, counterOf policy skip.phase = some skip.iterationField
  counters : ∀ field, result.state.getLoopIteration field =
    if field ∈ result.skipped.map iterationField then 0 else state.getLoopIteration field
  frame : ∃ loops review outcome, result.state =
    { state with loopIterations := loops, reviewOutcome := review, pendingCycleOutcome := outcome }
  again : ∃ again, resolveExhaustedAnalysisBypass result.state result.targetPhase policy = .ok again ∧
    Again policy result again

theorem resolve_of_loop (hloop : Loop policy state target [] skips final last) :
    resolveExhaustedAnalysisBypass state target policy = .ok ⟨final, last, skips⟩ := by
  obtain ⟨-, hnodup, hskips⟩ := hloop.trail
  have hkeys : skips.map ExhaustedAnalysisSkip.phase ⊆ policy.phases.keys := by
    intro phase hphase
    obtain ⟨skip, hskip, rfl⟩ := mem_map.mp hphase
    exact mem_keys_of_counterOf (hskips skip hskip).2.counter
  have hlength := (subperm_of_subset hnodup hkeys).length_le
  rw [length_map] at hlength
  exact hloop.bypassFrom (Nat.lt_succ_of_le hlength) []

theorem Loop.settled (hloop : Loop policy state target [] skips final last) : Settles policy state target ⟨final, last, skips⟩ := by
  obtain ⟨htrail, hnodup, hskips⟩ := hloop.trail
  have hstopped : skipIfExhausted final last policy = .ok none → Settles policy state target ⟨final, last, skips⟩ := by
    intro hstop
    have hagain := resolve_of_loop (.stopped not_mem_nil hstop)
    exact ⟨hloop, fun cap h => absurd h (not_exhausted_of_stop hstop), fun skip h => (hskips skip h).2.counter,
      hloop.counters, hloop.frame, _, hagain, rfl, .inl rfl⟩
  rcases hloop.end with hseen | hseen | hstop
  · exact absurd hseen not_mem_nil
  · obtain ⟨first, hfirst, rfl⟩ := mem_map.mp hseen
    obtain ⟨before, after, rfl⟩ := append_of_mem hfirst
    have hround : ∀ skip ∈ first :: after, skip ∈ before ++ first :: after := fun _ => mem_append_right before
    have hcount := (hloop.settles first hfirst).count
    have hnew : ∀ skip ∈ first :: after, skip.phase ∉ ([] : List String) := fun _ _ => not_mem_nil
    obtain ⟨again, there, hsecond, hthere⟩ := exists_loop_again (Trail.split htrail)
      (fun skip h => hloop.settles skip (hround skip h)) (fun skip h => (hskips skip (hround skip h)).2)
      ((map_append ▸ hnodup).of_append_right) hnew (.inr ⟨rfl, cons_ne_nil _ _⟩)
    have hzero : first.maxIterations = 0 ∨ skipIfExhausted final first.phase policy = .ok none := by
      by_cases hroom : 0 < first.maxIterations
      · exact .inr (stop_of_open (hskips first hfirst).2 (by rw [hcount]; omega))
      · exact .inl (by omega)
    rcases hzero with hzero | hstop
    · have hdeclares := (hskips first hfirst).2
      refine ⟨hloop, ?_, fun skip h => (hskips skip h).2.counter, hloop.counters, hloop.frame, _,
        resolve_of_loop hsecond, rfl, hthere.imp_right ?_⟩
      · rintro cap ⟨field, hcounter, hcap, -⟩
        cases hcounter.symm.trans hdeclares.counter
        cases hcap.symm.trans hdeclares.cap
        exact hzero
      · rintro ⟨skip, hskip, hphase, hroom, hstop⟩
        refine ⟨⟨_, hdeclares.counter, hzero ▸ hdeclares.cap, ?_⟩, ⟨skip, hround skip hskip, hphase, hroom⟩,
          resolve_of_loop (.stopped not_mem_nil hstop)⟩
        exact le_of_eq hcount.symm
    · exact hstopped hstop
  · exact hstopped hstop

/-- The walk ends, resets the counters of what it skips, and settles, but for what a zero cap does. -/
theorem bypass_settles (policy : PipelinePolicy) (haccepted : policy.Accepted) (state : PipelineState) (target : String) :
    (∃ result, resolveExhaustedAnalysisBypass state target policy = .ok result ∧ Settles policy state target result) ∨
      policy.loopCounters.entries = [] ∧ ∃ error, resolveExhaustedAnalysisBypass state target policy = .error error := by
  cases hresult : resolveExhaustedAnalysisBypass state target policy with
  | ok result =>
    obtain ⟨skips, hskips, hloop⟩ := loop_of_bypassFrom (fun _ h => absurd h not_mem_nil) nodup_nil
      (Nat.lt_succ_self _) hresult
    rw [nil_append] at hskips
    subst hskips
    exact .inl ⟨result, rfl, hloop.settled⟩
  | error error =>
    refine .inr ⟨?_, error, rfl⟩
    by_contra hdeclared
    have hcounted : Totality.CountersDeclared policy := by
      intro phase phaseDef loopPolicy hphase hloop
      have hpasses := haccepted.passes PipelinePolicy.loopCounterReferencesValid (by simp [PipelinePolicy.modelValidators])
      unfold PipelinePolicy.loopCounterReferencesValid at hpasses
      rw [if_neg (by simpa using hdeclared)] at hpasses
      have hentry := (forM_eq_ok_iff _ _).mp hpasses (phase, phaseDef) ((Dict.get?_eq_some_iff _ _ _).mp hphase)
      dsimp only at hentry
      rw [hloop] at hentry
      exact (require_eq_ok_iff _ _).mp hentry
    have hreturns := Totality.Routable.bypassFrom_returns ⟨haccepted, hcounted⟩ (policy.phases.keys.length + 1) state
      target [] []
    rw [← resolveExhaustedAnalysisBypass, hresult] at hreturns
    exact not_returns_error _ hreturns

/-! ## Two loops in a circle -/

def reviewing (field onSuccess : String) : PhaseDefinition where
  drain := "analysis"
  role := some .analysis
  transitions := { onSuccess := onSuccess, onLoopback := some "writing" }
  loopPolicy := some { iterationStateField := field }

def circle : PipelinePolicy where
  phases := ⟨[("writing", { drain := "development", role := some .execution, transitions := { onSuccess := "style" } }),
    ("style", reviewing "style_iteration" "safety"), ("safety", reviewing "safety_iteration" "style"),
    ("complete", Default.complete), ("failed_terminal", Default.failedTerminal)], by decide⟩
  entryPhase := "writing"
  loopCounters := ⟨[("style_iteration", { defaultMax := 0 }), ("safety_iteration", { defaultMax := 3 })], by decide⟩

theorem circle_accepted : circle.Accepted := by decide +kernel

def reviewed : PipelineState where
  phase := "writing"
  loopIterations := ⟨[("safety_iteration", 3)], by decide⟩

theorem reviewed_settles : (∃ result, resolveExhaustedAnalysisBypass reviewed "style" circle = .ok result ∧
      Settles circle reviewed "style" result) ∨
    circle.loopCounters.entries = [] ∧
      ∃ error, resolveExhaustedAnalysisBypass reviewed "style" circle = .error error :=
  bypass_settles circle circle_accepted reviewed "style"

/-- The first walk comes back to "style", the second one goes on to "safety". -/
theorem second_walk_moves : circle.Accepted ∧ ∃ result again, resolveExhaustedAnalysisBypass reviewed "style" circle = .ok result ∧
      resolveExhaustedAnalysisBypass result.state result.targetPhase circle = .ok again ∧
      result.targetPhase = "style" ∧ again.targetPhase = "safety" :=
  ⟨circle_accepted, _, _, rfl, rfl, by decide +kernel, by decide +kernel⟩

end RalphWorkflow.ExhaustedBypass
