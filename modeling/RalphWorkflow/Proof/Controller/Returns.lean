import RalphWorkflow.Proof.Controller.Progression

/-! Giving a phase up takes a policy that names the failure phase, and an exit at the cap takes a text that an exit may
have. Where both are there when they are needed, and only there, the controller returns. -/
namespace RalphWorkflow.Controller
open Lib Lib.Text Policy Recovery Movement RecoveryController
open Pipeline

def Sayable (rc : RecoveryController) (failure : ClassifiedFailure) (count : Nat) : Prop :=
  rc.cap.isExceeded count = true →
    descriptiveReason (rc.cap.exitReason count failure.category.name (takeText 200 failure.reason)) = true

def Speakable (rc : RecoveryController) (failure : ClassifiedFailure) (count : Nat) : Prop :=
  Sayable rc failure count ∧ Sayable rc failure (count + 1)

section

variable {rc : RecoveryController} {s : PipelineState} {failure : ClassifiedFailure} {bundle : PolicyBundle}

theorem capExit_returns_iff : Returns (rc.capExit s failure) ↔
    descriptiveReason (rc.cap.exitReason s.recoveryCycleCount failure.category.name (takeText 200 failure.reason)) = true := by
  unfold capExit exitFailureEffect
  constructor
  · rintro ⟨result, h⟩
    obtain ⟨exit, hexit, -⟩ := (bind_eq_ok_iff _ _ _).mp h
    by_contra hmute
    rw [dif_neg hmute] at hexit
    split at hexit <;> cases hexit
  · intro hdescriptive
    rw [dif_pos hdescriptive]
    exact ⟨_, rfl⟩

theorem enterPhaseFailed_eq (hbundle : rc.policyBundle = some bundle) (reason : String) (category : FailureCategory) :
    ∃ failedState, rc.enterPhaseFailed s reason category =
        ({ rc with spentAgents := dropKey rc.spentAgents s.phase }, .ok failedState) ∧
      failedState.recoveryCycleCount = s.recoveryCycleCount := by
  unfold enterPhaseFailed
  rw [hbundle]
  exact ⟨_, rfl, rfl⟩

theorem enterPhaseFailed_none (hbundle : rc.policyBundle = none) (reason : String) (category : FailureCategory) :
    ∃ e, rc.enterPhaseFailed s reason category = (rc, .error e) := by
  unfold enterPhaseFailed
  rw [hbundle]
  exact ⟨_, rfl⟩

theorem failPhase_returns_iff (reason : String) (category : FailureCategory) :
    Returns (rc.failPhase s reason category).result ↔ rc.policyBundle.isSome = true := by
  unfold failPhase
  cases hbundle : rc.policyBundle with
  | none =>
    obtain ⟨e, herror⟩ := enterPhaseFailed_none (s := s) hbundle reason category
    rw [herror]
    simp [not_returns_error]
  | some bundle =>
    obtain ⟨failedState, hentered, _⟩ := enterPhaseFailed_eq (s := s) hbundle reason category
    rw [hentered]
    exact iff_of_true ⟨_, rfl⟩ rfl

theorem exhaustChain_returns_iff : Returns (rc.exhaustChain s failure).result ↔
    rc.policyBundle.isSome = true ∧ Sayable rc failure (s.recoveryCycleCount + 1) := by
  unfold exhaustChain
  dsimp only
  cases hbundle : rc.policyBundle with
  | none =>
    obtain ⟨e, herror⟩ := enterPhaseFailed_none
      (s := { s with recoveryCycleCount := s.recoveryCycleCount + 1 }) hbundle failure.reason failure.category
    rw [herror]
    simp [not_returns_error]
  | some bundle =>
    obtain ⟨failedState, hentered, hcount⟩ := enterPhaseFailed_eq
      (s := { s with recoveryCycleCount := s.recoveryCycleCount + 1 }) hbundle failure.reason failure.category
    have hcounted : failedState.recoveryCycleCount = s.recoveryCycleCount + 1 := hcount
    rw [hentered]
    dsimp only
    rw [hcounted]
    simp only [Option.isSome_some, true_and]
    split
    · rename_i hexceeded
      rw [capExit_returns_iff, hcounted]
      exact ⟨fun h _ => h, fun h => h hexceeded⟩
    · rename_i hopen
      exact iff_of_true ⟨_, rfl⟩ fun hexceeded => absurd hexceeded hopen

theorem Sayable.of_cap {rc' : RecoveryController} {count : Nat} (hcap : rc'.cap = rc.cap) :
    Sayable rc' failure count ↔ Sayable rc failure count := by
  unfold Sayable
  rw [hcap]

def CanExhaust (rc : RecoveryController) (failure : ClassifiedFailure) (count : Nat) : Prop :=
  rc.policyBundle.isSome = true ∧ Sayable rc failure (count + 1)

theorem CanExhaust.of_setup {rc' : RecoveryController} {count : Nat} (hsetup : SameSetup rc rc') :
    CanExhaust rc' failure count ↔ CanExhaust rc failure count := by
  unfold CanExhaust
  rw [(Prod.mk.inj hsetup).1, Sayable.of_cap (Prod.mk.inj hsetup).2]

theorem retryProgression_returns_iff (context : FailureContext) (maxRetries : Nat) (useBudget : Bool) :
    Returns (rc.handleRetryProgression s failure context.phase context.agent context.retryInSession maxRetries
      useBudget).result ↔
    (trackedCourse rc s context maxRetries useBudget = .exhausts → CanExhaust rc failure s.recoveryCycleCount) := by
  unfold handleRetryProgression trackedCourse
  cases s.chainForPhase context.phase with
  | none => exact iff_of_true ⟨_, rfl⟩ fun h => by cases h
  | some chain =>
    dsimp only
    unfold selectionCourse
    have hsetup := selectAgent_setup rc context.phase chain
      (handleRetryProgression.firstAgent context.agent chain) maxRetries useBudget
    have hvalid : ∀ index, (rc.selectAgent context.phase chain
        (handleRetryProgression.firstAgent context.agent chain) maxRetries useBudget).1 = some index →
        index < chain.agents.length := fun index => preferredAgentIndex_lt _ _
    generalize rc.selectAgent context.phase chain
      (handleRetryProgression.firstAgent context.agent chain) maxRetries useBudget = selected
      at hsetup hvalid ⊢
    obtain ⟨selection, rc₁⟩ := selected
    cases selection with
    | some index =>
      dsimp only
      by_cases hcurrent : index = chain.currentIndex
      · rw [if_pos hcurrent, if_pos hcurrent]
        exact iff_of_true ⟨_, rfl⟩ fun h => by cases h
      · rw [if_neg hcurrent, if_neg hcurrent, List.getElem?_eq_getElem (hvalid index rfl)]
        exact iff_of_true ⟨_, rfl⟩ fun h => by cases h
    | none =>
      dsimp only
      have hasked := Eq.trans (anyAgentAvailable_setup rc₁ context.phase chain.agents) hsetup
      by_cases havailable : (rc₁.anyAgentAvailable context.phase chain.agents).1 = true
      · rw [if_pos havailable, if_pos havailable, exhaustChain_returns_iff]
        have hexhaust := @CanExhaust.of_setup _ failure _ s.recoveryCycleCount hasked
        exact ⟨fun h _ => hexhaust.mp h, fun h => hexhaust.mpr (h rfl)⟩
      · rw [if_neg havailable, if_neg havailable]
        exact iff_of_true ⟨_, rfl⟩ fun h => by cases h

theorem enforceCap_returns_iff {outcome : RecoveryController.Outcome} : Returns (enforceCap outcome failure).result ↔
      ∃ s' effects, outcome.result = .ok (s', effects) ∧ Sayable outcome.controller failure s'.recoveryCycleCount := by
  unfold enforceCap
  split
  · rename_i e herror
    constructor
    · intro h
      rw [herror] at h
      exact absurd h (not_returns_error e)
    · rintro ⟨s', effects, hok, -⟩
      rw [herror] at hok
      cases hok
  · rename_i s₁ effects₁ hresult
    have hsay : (∃ s' effects, outcome.result = .ok (s', effects) ∧ Sayable outcome.controller failure s'.recoveryCycleCount) ↔
        Sayable outcome.controller failure s₁.recoveryCycleCount := by
      constructor
      · rintro ⟨s', effects, hok, h⟩
        rw [hresult] at hok
        cases hok
        exact h
      · intro h
        exact ⟨s₁, effects₁, hresult, h⟩
    rw [hsay]
    split
    · rename_i hexceeded
      rw [capExit_returns_iff]
      exact ⟨fun h _ => h, fun h => h hexceeded⟩
    · rename_i hopen
      exact iff_of_true ⟨_, hresult⟩ fun hexceeded => absurd hexceeded hopen

theorem retryProgression_cap (rc : RecoveryController) (s : PipelineState) (failure : ClassifiedFailure)
    (context : FailureContext) (maxRetries : Nat) (useBudget : Bool) :
    (rc.handleRetryProgression s failure context.phase context.agent context.retryInSession maxRetries
      useBudget).controller.cap = rc.cap := by
  cases hchain : s.chainForPhase context.phase with
  | none =>
    unfold handleRetryProgression
    rw [hchain]
  | some chain => exact (retryProgression_later hchain).cap

def countAfter (c : Course) (count : Nat) : Nat :=
  match c with
  | .exhausts => count + 1
  | _ => count

theorem ensues_count {phase : String} {c : Course} {s' : PipelineState} (h : Ensues rc s phase c s') :
    s'.recoveryCycleCount = countAfter c s.recoveryCycleCount := by
  cases h with
  | fails _ count => exact count
  | exhausts _ count => exact count
  | untracked kept | retries kept | fallsOver kept | waits kept => exact kept.count

/-- A policy to give the phase up by, an exit text at the cap, which a technical failure asks on exhaustion. -/
structure Answers (rc : RecoveryController) (s : PipelineState) (raw : RawFailure) (context : FailureContext) :
    Prop where
  bundle : course rc s raw context = .fails ∨ course rc s raw context = .exhausts → rc.policyBundle.isSome = true
  exit : course rc s raw context ≠ .fails →
    (course rc s raw context = .exhausts ∨
      isTechnical (classified rc s raw context).category = false) →
    Sayable rc (classified rc s raw context) (countAfter (course rc s raw context) s.recoveryCycleCount)

theorem handle_fails_iff {raw : RawFailure} {context : FailureContext} (h : progression rc s raw context = none) :
    Returns (rc.handle s raw context).result ↔ rc.policyBundle.isSome = true := by
  unfold progression at h
  dsimp only at h
  split at h
  · cases h
  · rename_i htechnical
    unfold handle
    dsimp only
    rw [← classified, if_neg htechnical]
    split at h
    · rename_i hconfig
      rw [if_pos hconfig]
      exact failPhase_returns_iff _ _
    · rename_i hconfig
      rw [if_neg hconfig]
      unfold handleAgentFailure
      dsimp only
      have hsetup := Eq.trans
        (sameShapeBound_setup (rc.chargeAgent (classified rc s raw context) context) s (classified rc s raw context)
          context (s.chainForPhase context.phase))
        (chargeAgent_setup rc (classified rc s raw context) context)
      generalize (rc.chargeAgent (classified rc s raw context) context).sameShapeBound s (classified rc s raw context)
        context (s.chainForPhase context.phase) = bound at h hsetup ⊢
      obtain ⟨text, rc₁⟩ := bound
      cases text with
      | none => cases h
      | some text =>
        dsimp only
        rw [failPhase_returns_iff, (Prod.mk.inj hsetup).1]

theorem handle_returns_iff {raw : RawFailure} {context : FailureContext} : Returns (rc.handle s raw context).result ↔ Answers rc s raw context := by
  cases hprogression : progression rc s raw context with
  | none =>
    have hcourse : course rc s raw context = .fails := by
      unfold course
      rw [hprogression]
    rw [handle_fails_iff hprogression]
    exact ⟨fun h => ⟨fun _ => h, fun hne => absurd hcourse hne⟩, fun h => h.bundle (.inl hcourse)⟩
  | some start =>
    obtain ⟨rc₁, maxRetries, useBudget⟩ := start
    obtain ⟨noted, hbooks, hhandle⟩ := handle_progresses hprogression
    have hsetup := progression_setup hprogression
    have hcourse : course rc s raw context = trackedCourse rc₁ noted context maxRetries useBudget := by
      unfold course
      rw [hprogression]
      exact (trackedCourse_same hbooks context maxRetries useBudget).symm
    have hprogress : Returns (rc₁.handleRetryProgression noted (classified rc s raw context) context.phase
        context.agent context.retryInSession maxRetries useBudget).result ↔
        (course rc s raw context = .exhausts →
          CanExhaust rc (classified rc s raw context) s.recoveryCycleCount) := by
      rw [retryProgression_returns_iff, ← hcourse, hbooks.2.2.1, CanExhaust.of_setup hsetup]
    have hunfailed : course rc s raw context ≠ .fails := by
      intro hfails
      rw [course_fails hfails] at hprogression
      cases hprogression
    rw [hhandle]
    split
    · rename_i htechnical
      rw [hprogress]
      constructor
      · intro h
        refine ⟨fun hgiven => (h (hgiven.resolve_left hunfailed)).1, ?_⟩
        intro _ hasked
        have hexhausts := hasked.resolve_right (by rw [htechnical]; simp)
        rw [hexhausts]
        exact (h hexhausts).2
      · intro h hexhausts
        have hsay := h.exit hunfailed (.inl hexhausts)
        rw [hexhausts] at hsay
        exact ⟨h.bundle (.inr hexhausts), hsay⟩
    · rename_i htechnical
      have hcount : ∀ s' effects, (rc₁.handleRetryProgression noted (classified rc s raw context) context.phase
          context.agent context.retryInSession maxRetries useBudget).result = .ok (s', effects) →
          s'.recoveryCycleCount = countAfter (course rc s raw context) s.recoveryCycleCount := by
        intro s' effects hresult
        have hensues := ensues_count (retryProgression_ensues hresult)
        rw [← hcourse, hbooks.2.2.1] at hensues
        exact hensues
      have hcap := (retryProgression_cap rc₁ noted (classified rc s raw context) context maxRetries useBudget).trans
        (Prod.mk.inj hsetup).2
      rw [enforceCap_returns_iff]
      constructor
      · rintro ⟨s', effects, hresult, hsay⟩
        rw [Sayable.of_cap hcap, hcount s' effects hresult] at hsay
        refine ⟨fun hgiven => ?_, fun _ _ => hsay⟩
        exact (hprogress.mp ⟨_, hresult⟩ (hgiven.resolve_left hunfailed)).1
      · intro h
        have hsay := h.exit hunfailed (.inr (Bool.eq_false_iff.mpr htechnical))
        have hreturns := hprogress.mpr fun hexhausts => by
          rw [hexhausts] at hsay
          exact ⟨h.bundle (.inr hexhausts), hsay⟩
        obtain ⟨⟨s', effects⟩, hresult⟩ := hreturns
        refine ⟨s', effects, hresult, ?_⟩
        rw [Sayable.of_cap hcap, hcount s' effects hresult]
        exact hsay

theorem handle_returns {raw : RawFailure} {context : FailureContext} (hbundle : rc.policyBundle = some bundle)
    (hspeakable : Speakable rc (classified rc s raw context) s.recoveryCycleCount) :
    Returns (rc.handle s raw context).result := by
  apply handle_returns_iff.mpr
  refine ⟨fun _ => by rw [hbundle]; rfl, fun _ _ => ?_⟩
  cases course rc s raw context with
  | exhausts => exact hspeakable.2
  | _ => exact hspeakable.1

end

end RalphWorkflow.Controller
