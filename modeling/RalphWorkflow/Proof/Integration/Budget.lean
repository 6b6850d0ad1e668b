import RalphWorkflow.Proof.Integration.Evidence

/-! A seam that hands the resolver down is charged when it ends in a conflict or in an exception of its attempts. As long as
every seam leaves a record that carries the count of the one conflict, two such seams use the budget up. -/
namespace RalphWorkflow.Integration
open Lib Pipeline.AutoIntegrate

/-! ## The count -/

structure SameBudget (a b : RebaseState) : Prop where
  target : a.lastTarget = b.lastTarget
  count : a.consecutiveConflicts = b.consecutiveConflicts
  identity : a.recordedIdentity = b.recordedIdentity

theorem matchesState_congr (identity : ConflictIdentity) {a b : RebaseState} (h : a.recordedIdentity = b.recordedIdentity) :
    identity.matchesState a = identity.matchesState b := by
  unfold RebaseState.recordedIdentity at h
  injection h with hfeature htarget hpaths hoids hscope
  unfold ConflictIdentity.matchesState
  rw [hfeature, htarget, hpaths, hoids, hscope]

theorem SameBudget.count_eq {a b : RebaseState} (h : SameBudget a b) (target : String) (identity : ConflictIdentity) :
    priorConflictCount a target identity = priorConflictCount b target identity := by
  unfold priorConflictCount
  rw [h.target, h.count, matchesState_congr identity h.identity]

theorem priorConflictCount_nonneg (state : RebaseState) (target : String) (identity : ConflictIdentity) :
    0 ≤ priorConflictCount state target identity := by
  unfold priorConflictCount
  split
  · omega
  · split
    · omega
    · omega

theorem matches_stamped (identity : ConflictIdentity) (record : RebaseState) (count : Int) (scope : String)
    (hscope : scope = identity.scope ∨ scope = "") :
    identity.matchesState (record.withConflicts count { identity with scope := scope }) = true := by
  unfold ConflictIdentity.matchesState RebaseState.withConflicts
  rw [if_neg (by rcases hscope with rfl | rfl <;> simp), if_neg (by simp), if_neg (by simp)]
  split
  · rfl
  · simp

variable {record prior state : RebaseState} {target : String} {identity : ConflictIdentity} {config : IntegrationConfig}
  {answer : CommitAnswer} {seam : Seam}

theorem stamped_count (identity : ConflictIdentity) {count : Int} {scope : String}
    (htarget : record.lastTarget = some target) (hcount : 0 ≤ count) (hscope : scope = identity.scope ∨ scope = "") :
    priorConflictCount (record.withConflicts count { identity with scope := scope }) target identity = count := by
  unfold priorConflictCount
  have hmatches := matches_stamped identity record count scope hscope
  rw [if_neg (by simpa [RebaseState.withConflicts] using htarget), if_pos hmatches]
  exact Int.max_eq_right hcount

theorem carried_count {count : Int} (htarget : record.lastTarget = some target) (hcount : priorConflictCount prior target identity ≤ count) :
    priorConflictCount prior target identity ≤
      priorConflictCount (record.withConflicts count prior.recordedIdentity) target identity := by
  have hmatches : identity.matchesState (record.withConflicts count prior.recordedIdentity) = identity.matchesState prior :=
    matchesState_congr identity rfl
  have hstamped : (record.withConflicts count prior.recordedIdentity).lastTarget = some target := htarget
  by_cases hprior : prior.lastTarget = some target ∧ identity.matchesState prior = true
  · unfold priorConflictCount at hcount ⊢
    rw [if_neg (by simpa using hprior.1), if_pos hprior.2] at hcount ⊢
    rw [if_neg (by simpa using hstamped), hmatches, if_pos hprior.2]
    exact Int.le_trans hcount (Int.le_max_right _ _)
  · have hzero : priorConflictCount prior target identity = 0 := by
      unfold priorConflictCount
      by_cases htarget' : prior.lastTarget = some target
      · rw [if_neg (by simpa using htarget'), if_neg fun hmatch => hprior ⟨htarget', hmatch⟩]
      · rw [if_pos htarget']
    rw [hzero]
    exact priorConflictCount_nonneg _ _ _

/-! ## What the exits do to it -/

theorem apply_keeps {suppressed : Bool} (htarget : record.lastTarget = some target) (hlanded : record.fastForwarded = false) :
    priorConflictCount prior target identity + (if record.lastAction = some .conflict then 1 else 0) ≤
      priorConflictCount (applyConflictBudget record prior target suppressed identity) target identity := by
  have hopen : ¬ record.fastForwarded = true := by
    rw [hlanded]
    decide
  unfold applyConflictBudget
  dsimp only
  rw [if_neg hopen]
  by_cases hconflict : record.lastAction = some .conflict
  · rw [if_pos hconflict, if_neg (not_not.mpr hconflict)]
    have hnonneg : 0 ≤ priorConflictCount prior target identity + 1 := by
      have := priorConflictCount_nonneg prior target identity
      omega
    have hstamped := stamped_count identity htarget hnonneg (.inl rfl)
    split
    · exact Int.le_of_eq (hstamped.symm.trans (SameBudget.count_eq ⟨rfl, rfl, rfl⟩ target identity))
    · exact Int.le_of_eq hstamped.symm
  · rw [if_neg hconflict, if_pos hconflict, Int.add_zero]
    exact carried_count htarget (Int.le_refl _)

theorem apply_landed (record prior : RebaseState) (target : String) (suppressed : Bool) (identity : ConflictIdentity) :
    (applyConflictBudget record prior target suppressed identity).fastForwarded = record.fastForwarded := by
  unfold applyConflictBudget
  dsimp only
  split
  · rfl
  · split
    · rfl
    · split
      · rfl
      · rfl

theorem skip_keeps (hscope : identity.scope = "feature") (htarget : record.lastTarget = some target)
    (hlanded : record.fastForwarded = false) (hskipped : record.lastAction ≠ some .conflict) :
    priorConflictCount prior target identity ≤ priorConflictCount (carryBudgetThroughSkip record prior) target identity := by
  have hopen : ¬ record.fastForwarded = true := by
    rw [hlanded]
    decide
  unfold carryBudgetThroughSkip
  rw [htarget]
  dsimp only
  unfold applyConflictBudget
  dsimp only
  rw [if_neg hopen, if_pos hskipped]
  refine carried_count htarget ?_
  -- The unknown identity counts at least what the observed one does.
  unfold priorConflictCount
  split
  · exact Int.le_refl _
  · split
    · rename_i hmatches
      have hunknown : unknownIdentity.matchesState prior = true := by
        unfold ConflictIdentity.matchesState at hmatches ⊢
        rw [hscope] at hmatches
        split at hmatches
        · cases hmatches
        · rename_i hsame
          rw [if_neg (by simpa [unknownIdentity] using hsame), if_neg (by simp [unknownIdentity]),
            if_neg (by simp [unknownIdentity]), if_pos (by simp [unknownIdentity])]
      simp only [if_pos hunknown, Int.le_refl]
    · split
      · exact Int.le_max_left _ _
      · exact Int.le_refl _

theorem failed_keeps {skip : RebaseState} {offered : Bool} (htarget : skip.lastTarget = some target) (hscope : skip.lastConflictScope = "") :
    priorConflictCount (chargeFailedAttempt skip prior target identity offered) target identity =
      priorConflictCount prior target identity + (if offered then 1 else 0) := by
  unfold chargeFailedAttempt
  dsimp only
  have hnonneg := priorConflictCount_nonneg prior target identity
  rw [stamped_count identity htarget (by split <;> omega) (.inr hscope)]
  split
  · rfl
  · exact (Int.add_zero _).symm

/-! ## Attempts -/

theorem integrationRecord_target (target : String) (refresh : Option Refresh) (integration : Integration) :
    (integrationRecord target refresh integration).1.lastTarget = some target := by
  have hrefresh : ∀ (record : RebaseState) (refresh : Option Refresh), (recordRefresh record refresh).lastTarget = record.lastTarget := by
    intro record refresh
    cases refresh with
    | none => rfl
    | some refresh => rfl
  have hpublish : ∀ (record : RebaseState) (publication : Publication), (publish record publication).lastTarget = record.lastTarget := by
    intro record publication
    unfold publish
    dsimp only
    split
    · rfl
    · rfl
  cases integration with
  | shortCircuit action reason exhausted => exact hrefresh _ _
  | headReadFailed => exact hrefresh _ _
  | completed action reason refused publication =>
    cases refused with
    | some text => rfl
    | none =>
      cases publication with
      | none => rfl
      | some publication => exact hpublish _ _

def SameConflict (identity : ConflictIdentity) (answers : Nat → AttemptAnswer) : Prop :=
  ∀ attempt observed, (answers attempt).identity = .ok observed → observed = identity

def EndsWith (target : String) (identity : ConflictIdentity) : LoopEnd → Prop
  | .unsafeRemote _ => True
  | .raised _ observed _ => observed = identity
  | .finished record _ observed _ => observed = identity ∧ record.lastTarget = some target

theorem attemptLoop_spec {stopResolver : Bool} {answers : Nat → AttemptAnswer} (hsame : SameConflict identity answers)
    (left attempt : Nat) (refresh : Option Refresh) :
    EndsWith target identity (attemptLoop config target stopResolver prior answers left attempt refresh identity) := by
  induction left generalizing attempt refresh with
  | zero => exact rfl
  | succ left ih =>
    rw [attemptLoop]
    dsimp only
    split
    · exact rfl
    · split
      · trivial
      · split
        · exact rfl
        · rename_i observed hobserved
          have heq := hsame attempt observed hobserved
          subst heq
          split
          · exact rfl
          · split
            · exact ⟨rfl, integrationRecord_target _ _ _⟩
            · split
              · exact ⟨rfl, integrationRecord_target _ _ _⟩
              · exact ih (attempt + 1) _

/-! ## Seams that keep the budget -/

def attemptsEnd (config : IntegrationConfig) (answer : CommitAnswer) (state : RebaseState) (target : String)
    (refresh : Option Refresh) (identity : ConflictIdentity) : LoopEnd :=
  attemptLoop config target (answer.rebaseStopResolver && resolverAllowed state target identity) state answer.attempts
    maxIntegrationAttempts 0 refresh identity

/-- The seam skips, or it attempts the one conflict and the pull keeps the target safe. -/
inductive CommitKeeps (config : IntegrationConfig) (target : String) (identity : ConflictIdentity) (state : RebaseState)
    (answer : CommitAnswer) : Prop
  | disabled (h : checkEarlySkips config answer.context = .ok .disabled)
  | skip (record : RebaseState) (h : checkEarlySkips config answer.context = .ok (.skip record))
      (htarget : record.lastTarget = some target)
  | attempts (refresh : Option Refresh) (h : checkEarlySkips config answer.context = .ok (.goesOn target refresh))
      (hidentity : answer.identity = .ok identity) (hsame : SameConflict identity answer.attempts)
      (hsafe : ∀ record, attemptsEnd config answer state target refresh identity ≠ .unsafeRemote record)

inductive SeamKeeps (config : IntegrationConfig) (target : String) (identity : ConflictIdentity) (state : RebaseState) :
    Seam → Prop
  | commit {answer : CommitAnswer} (h : CommitKeeps config target identity state answer) :
      SeamKeeps config target identity state (.commit answer)
  | quiet {answer : BoundaryAnswer} (h : config.enabled = false ∨ answer.repository = false ∨
        phaseBoundaryOutcome config answer state = .ok (true, none)) :
      SeamKeeps config target identity state (.boundary answer)
  | goesOn {answer : BoundaryAnswer} (outcome : Option RebaseState)
      (hboundary : phaseBoundaryOutcome config answer state = .ok (false, outcome))
      (h : CommitKeeps config target identity state answer.commit) :
      SeamKeeps config target identity state (.boundary answer)

def commitHandsDown (config : IntegrationConfig) (answer : CommitAnswer) (state : RebaseState) : Bool :=
  match checkEarlySkips config answer.context, answer.identity with
  | .ok (.goesOn target _), .ok identity => resolverOffered answer state target identity
  | _, _ => false

def commitFails (config : IntegrationConfig) (answer : CommitAnswer) (state : RebaseState) : Bool :=
  match checkEarlySkips config answer.context, answer.identity with
  | .ok (.goesOn target refresh), .ok identity =>
    match attemptsEnd config answer state target refresh identity with
    | .raised (.exception _) _ _ => true
    | .finished record _ _ _ => record.lastAction = some .conflict
    | _ => false
  | _, _ => false

def commitOf (config : IntegrationConfig) (state : RebaseState) : Seam → Option CommitAnswer
  | .commit answer => some answer
  | .boundary answer =>
    if config.enabled = false || answer.repository = false then none
    else
      match phaseBoundaryOutcome config answer state with
      | .ok (false, _) => some answer.commit
      | _ => none

def handsDown (config : IntegrationConfig) (state : RebaseState) (seam : Seam) : Bool :=
  (commitOf config state seam).any fun answer => commitHandsDown config answer state

def fails (config : IntegrationConfig) (state : RebaseState) (seam : Seam) : Bool :=
  (commitOf config state seam).any fun answer => commitFails config answer state

def commitCharge (config : IntegrationConfig) (answer : CommitAnswer) (state : RebaseState) : Int :=
  if commitHandsDown config answer state && commitFails config answer state then 1 else 0

/-- The outcome lands, or its record counts what was counted before and the charge. -/
def Carries (target : String) (identity : ConflictIdentity) (prior : RebaseState) (charge : Int) : Except Raised (Option RebaseState) → Prop
  | .ok (some outcome) => outcome.fastForwarded = false →
      priorConflictCount prior target identity + charge ≤ priorConflictCount outcome target identity
  | .ok none => charge = 0
  | .error .terminalStateViolation => charge = 0
  | .error (.exception _) => False

theorem carryEvidence_budget (outcome prior : RebaseState) :
    SameBudget (carryEvidence outcome prior) outcome ∧ (carryEvidence outcome prior).fastForwarded = outcome.fastForwarded := by
  unfold carryEvidence
  dsimp only
  split
  · split
    · exact ⟨⟨rfl, rfl, rfl⟩, rfl⟩
    · exact ⟨⟨rfl, rfl, rfl⟩, rfl⟩
  · split
    · exact ⟨⟨rfl, rfl, rfl⟩, rfl⟩
    · exact ⟨⟨rfl, rfl, rfl⟩, rfl⟩

theorem preserve_carries {charge : Int} {outcome : Option RebaseState} (h : Carries target identity prior charge (.ok outcome)) :
    Carries target identity prior charge (.ok (preserveUnresolvedResolutionState outcome prior)) := by
  unfold preserveUnresolvedResolutionState
  cases outcome with
  | none =>
    dsimp only
    split
    · intro _
      rw [show charge = 0 from h]
      omega
    · exact h
  | some outcome =>
    dsimp only
    split
    · exact h
    · obtain ⟨hsame, hlanded⟩ := carryEvidence_budget outcome prior
      intro hopen
      rw [hsame.count_eq target identity]
      exact h (hlanded.symm.trans hopen)

theorem withRemoteOutcome_keeps (record : RebaseState) (remote : Option RebaseState) (exhausted : Bool) :
    let kept := if exhausted then recordAttemptBudgetSpent (withRemoteOutcome record remote) else withRemoteOutcome record remote
    kept.lastTarget = record.lastTarget ∧ kept.lastAction = record.lastAction ∧ kept.fastForwarded = record.fastForwarded := by
  cases remote with
  | none =>
    cases exhausted with
    | true => exact ⟨rfl, rfl, rfl⟩
    | false => exact ⟨rfl, rfl, rfl⟩
  | some remote =>
    cases exhausted with
    | true => exact ⟨rfl, rfl, rfl⟩
    | false => exact ⟨rfl, rfl, rfl⟩

theorem integrateTarget_carries {refresh : Option Refresh} (hcontext : checkEarlySkips config answer.context = .ok (.goesOn target refresh))
    (hidentity : answer.identity = .ok identity) (hsame : SameConflict identity answer.attempts)
    (hsafe : ∀ record, attemptsEnd config answer state target refresh identity ≠ .unsafeRemote record) :
    Carries target identity state (commitCharge config answer state)
      (integrateTarget config answer state target refresh identity) := by
  have hspec : EndsWith target identity (attemptsEnd config answer state target refresh identity) :=
    attemptLoop_spec hsame _ _ _
  have hhands : commitHandsDown config answer state = resolverOffered answer state target identity := by
    unfold commitHandsDown
    rw [hcontext, hidentity]
  have hfails : commitFails config answer state = (match attemptsEnd config answer state target refresh identity with
        | .raised (.exception _) _ _ => true
        | .finished record _ _ _ => record.lastAction = some .conflict
        | _ => false) := by
    unfold commitFails
    rw [hcontext, hidentity]
  have hloop : attemptLoop config target (answer.rebaseStopResolver && resolverAllowed state target identity) state answer.attempts
      maxIntegrationAttempts 0 refresh identity = attemptsEnd config answer state target refresh identity := rfl
  unfold commitCharge
  rw [hhands, hfails]
  dsimp only [integrateTarget]
  rw [hloop]
  cases hend : attemptsEnd config answer state target refresh identity with
  | unsafeRemote record => exact absurd hend (hsafe record)
  | raised exc observed last =>
    rw [hend] at hspec
    obtain rfl : observed = identity := hspec
    cases exc with
    | terminalStateViolation =>
      show (if (_ && false) = true then (1 : Int) else 0) = 0
      rw [Bool.and_false]
      rfl
    | exception text =>
      intro _
      have hskip : ∀ last : Option Refresh,
          (recordRefresh (recordSkip s!"unexpected failure: {text}" (some target)) last).lastTarget = some target ∧
            (recordRefresh (recordSkip s!"unexpected failure: {text}" (some target)) last).lastConflictScope = "" := by
        intro last
        cases last with
        | none => exact ⟨rfl, rfl⟩
        | some last => exact ⟨rfl, rfl⟩
      simp only [failed_keeps (hskip last).1 (hskip last).2, Bool.and_true, Int.le_refl]
  | finished record remote observed exhausted =>
    rw [hend] at hspec
    obtain ⟨rfl, htarget⟩ : observed = identity ∧ record.lastTarget = some target := hspec
    obtain ⟨hkeptTarget, hkeptAction, hkeptLanded⟩ := withRemoteOutcome_keeps record remote exhausted
    dsimp only
    intro hopen
    generalize (if exhausted = true then recordAttemptBudgetSpent (withRemoteOutcome record remote)
      else withRemoteOutcome record remote) = kept at hkeptTarget hkeptAction hkeptLanded hopen ⊢
    rw [apply_landed] at hopen
    refine Int.le_trans ?_ (apply_keeps (hkeptTarget.trans htarget) hopen)
    rw [hkeptAction]
    by_cases hconflict : record.lastAction = some .conflict
    · rw [if_pos hconflict]
      split
      · exact Int.le_refl _
      · omega
    · simp [hconflict]

theorem earlySkip_record {context : Except Raised Context} (h : checkEarlySkips config context = .ok (.skip record)) :
    record.fastForwarded = false ∧ record.lastAction = some .skipped := by
  have hrefresh : ∀ (reason : String) (target : Option String) (refresh : Option Refresh),
      (recordRefresh (recordSkip reason target) refresh).fastForwarded = false ∧
        (recordRefresh (recordSkip reason target) refresh).lastAction = some .skipped := by
    intro reason target refresh
    cases refresh with
    | none => exact ⟨rfl, rfl⟩
    | some refresh => exact ⟨rfl, rfl⟩
  unfold checkEarlySkips at h
  split at h
  · cases h
  · cases context with
    | error exc => cases h
    | ok context =>
      obtain ⟨branch, target, refresh, skipReason⟩ := context
      cases branch with
      | none =>
        cases h
        exact hrefresh _ _ _
      | some branch =>
        cases target with
        | none =>
          cases h
          exact ⟨rfl, rfl⟩
        | some target =>
          cases skipReason with
          | error exc => cases h
          | ok reason =>
            cases reason with
            | none => cases h
            | some reason =>
              cases h
              exact hrefresh _ _ _

theorem commit_carries (hscope : identity.scope = "feature") (h : CommitKeeps config target identity state answer) :
    Carries target identity state (commitCharge config answer state) (autoIntegrateAfterCommit config answer state) := by
  have hinner : Carries target identity state (commitCharge config answer state) (autoIntegrateAfterCommitInner config answer state) := by
    unfold autoIntegrateAfterCommitInner
    cases h with
    | disabled h =>
      have hcharge : commitCharge config answer state = 0 := by
        unfold commitCharge commitHandsDown
        rw [h]
        rfl
      rw [h, hcharge]
      exact rfl
    | skip record h htarget =>
      have hcharge : commitCharge config answer state = 0 := by
        unfold commitCharge commitHandsDown
        rw [h]
        rfl
      obtain ⟨hlanded, haction⟩ := earlySkip_record h
      rw [h, hcharge]
      intro _
      rw [Int.add_zero]
      exact skip_keeps hscope htarget hlanded (by rw [haction]; decide)
    | attempts refresh h hidentity hsame hsafe =>
      have hattempts := integrateTarget_carries h hidentity hsame hsafe
      rw [h]
      show Carries target identity state _ (Except.bind answer.identity _)
      rw [hidentity]
      exact hattempts
  unfold autoIntegrateAfterCommit
  cases hresult : autoIntegrateAfterCommitInner config answer state with
  | ok outcome =>
    rw [hresult] at hinner
    exact preserve_carries hinner
  | error exc =>
    rw [hresult] at hinner
    cases exc with
    | terminalStateViolation => exact hinner
    | exception text => exact hinner.elim

def charge (config : IntegrationConfig) (state : RebaseState) (seam : Seam) : Int :=
  if handsDown config state seam && fails config state seam then 1 else 0

theorem charge_of_none (h : commitOf config state seam = none) : charge config state seam = 0 := by
  unfold charge handsDown
  rw [h]
  rfl

theorem charge_of_some (h : commitOf config state seam = some answer) : charge config state seam = commitCharge config answer state := by
  unfold charge handsDown fails
  rw [h]
  rfl

theorem boundary_cases {answer : BoundaryAnswer} (h : SeamKeeps config target identity state (.boundary answer)) :
    (autoIntegrateOnPhaseTransitionInner config answer state = .ok none ∧ commitOf config state (.boundary answer) = none) ∨
      (autoIntegrateOnPhaseTransitionInner config answer state = autoIntegrateAfterCommit config answer.commit state ∧
        commitOf config state (.boundary answer) = some answer.commit ∧
        CommitKeeps config target identity state answer.commit) := by
  unfold autoIntegrateOnPhaseTransitionInner commitOf
  dsimp only
  by_cases hoff : (config.enabled = false || answer.repository = false) = true
  · rw [if_pos hoff, if_pos hoff]
    exact .inl ⟨rfl, rfl⟩
  · rw [if_neg hoff, if_neg hoff]
    cases h with
    | quiet h =>
      have hquiet : phaseBoundaryOutcome config answer state = .ok (true, none) := by
        rcases h with h | h | h
        · exact absurd (by simp [h]) hoff
        · exact absurd (by simp [h]) hoff
        · exact h
      rw [hquiet]
      exact .inl ⟨rfl, rfl⟩
    | goesOn outcome hboundary h =>
      rw [hboundary]
      exact .inr ⟨rfl, rfl, h⟩

theorem seam_carries (hscope : identity.scope = "feature") (h : SeamKeeps config target identity state seam) :
    Carries target identity state (charge config state seam) (seam.outcome config state) := by
  cases seam with
  | commit answer =>
    cases h with
    | commit h => exact commit_carries hscope h
  | boundary answer =>
    have hinner : Carries target identity state (charge config state (.boundary answer))
        (autoIntegrateOnPhaseTransitionInner config answer state) := by
      rcases boundary_cases h with ⟨hresult, hnone⟩ | ⟨hresult, hsome, hkeeps⟩
      · rw [hresult]
        exact charge_of_none hnone
      · rw [hresult, charge_of_some hsome]
        exact commit_carries hscope hkeeps
    show Carries target identity state _ (Except.bind (autoIntegrateOnPhaseTransitionInner config answer state) _)
    cases hresult : autoIntegrateOnPhaseTransitionInner config answer state with
    | ok outcome =>
      rw [hresult] at hinner
      exact preserve_carries hinner
    | error exc =>
      rw [hresult] at hinner
      exact hinner

theorem next_counts (hscope : identity.scope = "feature") (h : SeamKeeps config target identity state seam)
    (hlands : seam.lands config state = false) : priorConflictCount state target identity + charge config state seam ≤
      priorConflictCount (seam.next config state) target identity := by
  have hcarries := seam_carries hscope h
  unfold Seam.lands at hlands
  unfold Seam.next
  cases houtcome : seam.outcome config state with
  | ok outcome =>
    rw [houtcome] at hcarries hlands
    cases outcome with
    | some outcome => exact hcarries hlands
    | none =>
      simp only [show charge config state seam = 0 from hcarries, Int.add_zero, Int.le_refl]
  | error exc =>
    rw [houtcome] at hcarries
    cases exc with
    | terminalStateViolation =>
      simp only [show charge config state seam = 0 from hcarries, Int.add_zero, Int.le_refl]
    | exception text => exact hcarries.elim

theorem commitHandsDown_below (h : CommitKeeps config target identity state answer) (hhands : commitHandsDown config answer state = true) :
    priorConflictCount state target identity < maxConsecutiveResolverAttempts := by
  unfold commitHandsDown at hhands
  cases h with
  | disabled h =>
    rw [h] at hhands
    cases hhands
  | skip record h htarget =>
    rw [h] at hhands
    cases hhands
  | attempts refresh h hidentity hsame hsafe =>
    rw [h, hidentity] at hhands
    unfold resolverOffered resolverAllowed at hhands
    exact of_decide_eq_true (Bool.and_eq_true_iff.mp hhands).2

theorem handsDown_below (h : SeamKeeps config target identity state seam) (hhands : handsDown config state seam = true) :
    priorConflictCount state target identity < maxConsecutiveResolverAttempts := by
  unfold handsDown at hhands
  cases seam with
  | commit answer =>
    cases h with
    | commit h => exact commitHandsDown_below h hhands
  | boundary answer =>
    rcases boundary_cases h with ⟨-, hnone⟩ | ⟨-, hsome, hkeeps⟩
    · rw [hnone] at hhands
      cases hhands
    · rw [hsome] at hhands
      exact commitHandsDown_below hkeeps hhands

/-! ## Runs -/

def AllKeep (config : IntegrationConfig) (target : String) (identity : ConflictIdentity) : RebaseState → List Seam → Prop
  | _, [] => True
  | state, seam :: rest =>
    SeamKeeps config target identity state seam ∧ AllKeep config target identity (seam.next config state) rest

/-- The seams that hand the resolver down and end in a conflict or an exception. -/
def failedHandDowns (config : IntegrationConfig) : RebaseState → List Seam → Int
  | _, [] => 0
  | state, seam :: rest => charge config state seam + failedHandDowns config (seam.next config state) rest

theorem failedHandDowns_le (hscope : identity.scope = "feature") (seams : List Seam) (state : RebaseState)
    (hkeep : AllKeep config target identity state seams) (hnever : NeverLands config state seams) :
    failedHandDowns config state seams ≤ max 0 (maxConsecutiveResolverAttempts - priorConflictCount state target identity) := by
  induction seams generalizing state with
  | nil => exact Int.le_max_left _ _
  | cons seam rest ih =>
    obtain ⟨hseam, hrest⟩ := hkeep
    obtain ⟨hlands, hlater⟩ := hnever
    have hcounts := next_counts hscope hseam hlands
    have hbound := ih (seam.next config state) hrest hlater
    have hfull : charge config state seam = 0 ∨
        charge config state seam = 1 ∧ priorConflictCount state target identity < maxConsecutiveResolverAttempts := by
      unfold charge
      split
      · rename_i hboth
        exact .inr ⟨rfl, handsDown_below hseam (Bool.and_eq_true_iff.mp hboth).1⟩
      · exact .inl rfl
    rw [failedHandDowns]
    rcases hfull with hfree | ⟨hcharged, hbelow⟩
    · omega
    · omega

/-- While nothing lands, hand-downs that fail are bounded by the budget. -/
theorem failed_hand_downs_bounded (config : IntegrationConfig) (target : String) (identity : ConflictIdentity)
    (state : RebaseState) (seams : List Seam) (hscope : identity.scope = "feature")
    (hkeep : AllKeep config target identity state seams) (hnever : NeverLands config state seams) :
    failedHandDowns config state seams ≤ maxConsecutiveResolverAttempts := by
  have hbound := failedHandDowns_le hscope seams state hkeep hnever
  have hnonneg := priorConflictCount_nonneg state target identity
  have hmax : (0 : Int) ≤ maxConsecutiveResolverAttempts := by decide
  omega

def cleanContext : Context where
  currentBranch := some "feature"
  target := some "main"
  refresh := none
  skipReason := .ok none

def observedIdentity : ConflictIdentity where
  featureSha := some "f1"
  targetSha := some "t1"

def seamEnding (integration : Integration) : CommitAnswer where
  context := .ok cleanContext
  identity := .ok observedIdentity
  attempts := fun _ => { identity := .ok observedIdentity, integration := .ok integration }

def conflictSeam : Seam := .commit (seamEnding (.shortCircuit .conflict (some "rebase conflict") false))

/-- The resolver is handed down for the first two. -/
theorem three_conflicts_use_the_budget_up : failedHandDowns {} {} [conflictSeam, conflictSeam, conflictSeam] = 2 ∧
      failedHandDowns {} {} [conflictSeam, conflictSeam, conflictSeam] ≤ maxConsecutiveResolverAttempts := by
  have hkeeps : ∀ state, SeamKeeps {} "main" observedIdentity state conflictSeam := by
    intro state
    refine .commit (.attempts none rfl rfl ?_ ?_)
    · intro attempt observed hobserved
      cases hobserved
      rfl
    · intro record hrecord
      cases hrecord
  have hnever : NeverLands {} {} [conflictSeam, conflictSeam, conflictSeam] :=
    ⟨by decide +kernel, by decide +kernel, by decide +kernel, trivial⟩
  exact ⟨by decide +kernel, failed_hand_downs_bounded {} "main" observedIdentity {} _ rfl
    ⟨hkeeps _, hkeeps _, hkeeps _, trivial⟩ hnever⟩

def handDowns (config : IntegrationConfig) : RebaseState → List Seam → Int
  | _, [] => 0
  | state, seam :: rest =>
    (if handsDown config state seam then 1 else 0) + handDowns config (seam.next config state) rest

/-- A rebase that completes, with the target checked out in a worktree that refuses to be moved. -/
def refusedSeam : Seam := .commit (seamEnding (.completed .rebased none (some targetCheckedOutRefused) none))

/-- A completed rebase that does not land is not charged. -/
theorem completed_rebases_are_not_charged : NeverLands {} {} [refusedSeam, refusedSeam, refusedSeam] ∧
      ¬ handDowns {} {} [refusedSeam, refusedSeam, refusedSeam] ≤ maxConsecutiveResolverAttempts :=
  ⟨⟨by decide +kernel, by decide +kernel, by decide +kernel, trivial⟩, by decide +kernel⟩

end RalphWorkflow.Integration
