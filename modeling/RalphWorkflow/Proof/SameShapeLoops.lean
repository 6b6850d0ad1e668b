import RalphWorkflow.Recovery.Controller

/-! When the bound on identical fires is raised. The tracker counts fires whose four signals are equal, so it takes a loop that progresses at
every fire for one that never does, and starts over at the first fire that reports no progress. -/
/-! ## Same-shape retries

`SameShapeRetryTracker.record_fire`, and the caller that hands back what the call before returned.
-/

namespace RalphWorkflow.Recovery

open Lib Pipeline


inductive Signal
  | text (value : String)
  /-- its `value` attribute is a string -/
  | member (value : String)
  /-- the `str` of anything else -/
  | other (shown : String)
  deriving DecidableEq

def coerceSignal : Signal → String
  | .text value => value
  | .member value => value
  | .other shown => shown

structure Fire where
  fireReason : Signal
  diagnosticSignature : Signal
  noNewArtifactSincePrior : Bool
  /-- true when the workspace did not gain any new files -/
  workspaceChangeSincePrior : Bool
  deriving DecidableEq

namespace Fire

variable (fire : Fire)

def reason : String := coerceSignal fire.fireReason

def signature : String := coerceSignal fire.diagnosticSignature

def fingerprint : RetryFingerprint :=
  (fire.reason, fire.signature, fire.noNewArtifactSincePrior, fire.workspaceChangeSincePrior)

def progressed : Bool := !(fire.noNewArtifactSincePrior && fire.workspaceChangeSincePrior)

end Fire

structure SameShapeRetryTracker where
  limit : Nat := 3
  limit_pos : 1 ≤ limit := by decide

structure SameShapeRetryLoopError where
  fingerprint : RetryFingerprint
  consecutive : Nat
  limit : Nat
  deriving DecidableEq

namespace SameShapeRetryTracker

variable (tracker : SameShapeRetryTracker)

def recordFire (fire : Fire) (prior : Option (RetryFingerprint × Nat)) : Except SameShapeRetryLoopError (RetryFingerprint × Nat) :=
  let consecutive := nextConsecutive fire.fingerprint prior
  if tracker.limit ≤ consecutive then
    .error { fingerprint := fire.fingerprint, consecutive := consecutive, limit := tracker.limit }
  else .ok (fire.fingerprint, consecutive)

/-- What the caller holds after some fires, the last of them first. A call that raises returns nothing new. -/
def after : List Fire → Option (RetryFingerprint × Nat)
  | [] => none
  | fire :: past =>
    match tracker.recordFire fire (after past) with
    | .ok held => some held
    | .error _ => after past

def raises (fire : Fire) (past : List Fire) : Bool :=
  (tracker.recordFire fire (tracker.after past)).toOption.isNone

end SameShapeRetryTracker

end RalphWorkflow.Recovery

namespace RalphWorkflow.Recovery

open Lib Pipeline


namespace SameShapeRetryTracker

variable (tracker : SameShapeRetryTracker)

/-! ## The count -/

def streak : List Fire → Nat
  | [] => 0
  | fire :: past =>
    match past with
    | [] => 1
    | before :: _ => if fire.fingerprint = before.fingerprint then streak past + 1 else 1

theorem streak_pos (fire : Fire) (past : List Fire) : 0 < streak (fire :: past) := by
  cases past with
  | nil => simp [streak]
  | cons before rest =>
    by_cases hsame : fire.fingerprint = before.fingerprint
    · simp [streak, hsame]
    · simp [streak, hsame]

theorem le_streak_iff (k : Nat) (fire : Fire) (past : List Fire) : k ≤ streak (fire :: past) ↔
      k ≤ (fire :: past).length ∧ ∀ g ∈ (fire :: past).take k, g.fingerprint = fire.fingerprint := by
  induction past generalizing k fire with
  | nil =>
    have htake : ∀ g ∈ [fire].take k, g = fire := fun g hg => List.mem_singleton.1 (List.mem_of_mem_take hg)
    constructor
    · intro hk
      exact ⟨hk, fun g hg => by rw [htake g hg]⟩
    · intro h
      exact h.1
  | cons before rest ih =>
    cases k with
    | zero => simp
    | succ k =>
      by_cases hsame : fire.fingerprint = before.fingerprint
      · have hstreak : streak (fire :: before :: rest) = streak (before :: rest) + 1 := by simp [streak, hsame]
        rw [hstreak, Nat.add_le_add_iff_right, ih k before]
        simp [hsame]
      · have hstreak : streak (fire :: before :: rest) = 1 := by simp [streak, hsame]
        rw [hstreak]
        cases k with
        | zero => simp
        | succ k =>
          constructor
          · intro hk
            omega
          · rintro ⟨-, hall⟩
            exact absurd (hall before (by simp)).symm hsame

/-! ## What the caller holds -/

theorem after_cons (hlimit : 2 ≤ tracker.limit) (fire : Fire) (past : List Fire) :
    tracker.after (fire :: past) = some (fire.fingerprint, min (streak (fire :: past)) (tracker.limit - 1)) := by
  induction past generalizing fire with
  | nil =>
    have hbelow : ¬ tracker.limit ≤ 1 := by omega
    have hmin : min 1 (tracker.limit - 1) = 1 := by omega
    simp [after, recordFire, nextConsecutive, streak, hbelow, hmin]
  | cons before rest ih =>
    have hbefore := ih before
    have hpos := streak_pos before rest
    rw [after, hbefore]
    by_cases hsame : fire.fingerprint = before.fingerprint
    · have hstreak : streak (fire :: before :: rest) = streak (before :: rest) + 1 := by simp [streak, hsame]
      by_cases hraised : tracker.limit ≤ min (streak (before :: rest)) (tracker.limit - 1) + 1
      · have hheld : min (streak (before :: rest)) (tracker.limit - 1) = min (streak (fire :: before :: rest)) (tracker.limit - 1) := by
          omega
        simp [recordFire, nextConsecutive, hsame, hraised, ← hheld]
      · have hheld : min (streak (before :: rest)) (tracker.limit - 1) + 1 = min (streak (fire :: before :: rest)) (tracker.limit - 1) := by
          omega
        simp [recordFire, nextConsecutive, hsame, hraised, ← hheld]
    · have hstreak : streak (fire :: before :: rest) = 1 := by simp [streak, hsame]
      have hbelow : ¬ tracker.limit ≤ 1 := by omega
      have hmin : min 1 (tracker.limit - 1) = 1 := by omega
      simp [recordFire, nextConsecutive, hsame, hbelow, hstreak, hmin]

theorem raises_iff_count (fire : Fire) (past : List Fire) :
    tracker.raises fire past = true ↔ tracker.limit ≤ nextConsecutive fire.fingerprint (tracker.after past) := by
  unfold raises recordFire
  by_cases hraised : tracker.limit ≤ nextConsecutive fire.fingerprint (tracker.after past)
  · simp [hraised, Except.toOption]
  · simp [hraised, Except.toOption]

theorem raises_iff_streak (fire : Fire) (past : List Fire) : tracker.raises fire past = true ↔ tracker.limit ≤ streak (fire :: past) := by
  rw [raises_iff_count]
  have hpos := tracker.limit_pos
  by_cases hone : tracker.limit = 1
  · have hcount : 0 < nextConsecutive fire.fingerprint (tracker.after past) := by
      unfold nextConsecutive
      split
      · split <;> omega
      · omega
    have hstreak := streak_pos fire past
    omega
  · have hlimit : 2 ≤ tracker.limit := by omega
    cases past with
    | nil => simp [after, nextConsecutive, streak]
    | cons before rest =>
      rw [tracker.after_cons hlimit before rest]
      by_cases hsame : fire.fingerprint = before.fingerprint
      · have hstreak : streak (fire :: before :: rest) = streak (before :: rest) + 1 := by simp [streak, hsame]
        simp only [nextConsecutive, hsame, if_true, hstreak]
        omega
      · simp [nextConsecutive, streak, hsame]

theorem raises_iff_fingerprints (fire : Fire) (past : List Fire) : tracker.raises fire past = true ↔
      tracker.limit ≤ (fire :: past).length ∧ ∀ g ∈ (fire :: past).take tracker.limit, g.fingerprint = fire.fingerprint := by
  rw [raises_iff_streak, le_streak_iff]

/-! ## What the bound is for -/

/-- The last `limit` fires carry one reason and one signature. -/
def SameCause (fire : Fire) (past : List Fire) : Prop :=
  tracker.limit ≤ (fire :: past).length ∧
    ∀ g ∈ (fire :: past).take tracker.limit, g.reason = fire.reason ∧ g.signature = fire.signature

/-- No progress is reported between the last `limit` fires: a fire reports what came before it. -/
def Stalled (fire : Fire) (past : List Fire) : Prop :=
  ∀ g ∈ (fire :: past).take (tracker.limit - 1), g.progressed = false

/-- The last `limit` fires report alike, and they report progress. -/
def AlwaysProgressed (fire : Fire) (past : List Fire) : Prop :=
  fire.progressed = true ∧ ∀ g ∈ (fire :: past).take tracker.limit,
    g.noNewArtifactSincePrior = fire.noNewArtifactSincePrior ∧ g.workspaceChangeSincePrior = fire.workspaceChangeSincePrior

/-- Of the last `limit` fires, the first reports what was made before the loop began. -/
def LateStart (fire : Fire) (past : List Fire) : Prop :=
  tracker.Stalled fire past ∧ ∃ g ∈ (fire :: past).take tracker.limit, g.progressed = true

theorem fingerprint_eq_iff (g fire : Fire) : g.fingerprint = fire.fingerprint ↔ (g.reason = fire.reason ∧ g.signature = fire.signature) ∧
      g.noNewArtifactSincePrior = fire.noNewArtifactSincePrior ∧ g.workspaceChangeSincePrior = fire.workspaceChangeSincePrior := by
  simp [Fire.fingerprint, and_assoc]

theorem raises_iff_alike (fire : Fire) (past : List Fire) :
    tracker.raises fire past = true ↔ tracker.SameCause fire past ∧ ∀ g ∈ (fire :: past).take tracker.limit,
      g.noNewArtifactSincePrior = fire.noNewArtifactSincePrior ∧ g.workspaceChangeSincePrior = fire.workspaceChangeSincePrior := by
  rw [raises_iff_fingerprints, SameCause, and_assoc]
  refine and_congr_right fun _ => ?_
  simp only [fingerprint_eq_iff]
  exact ⟨fun h => ⟨fun g hg => (h g hg).1, fun g hg => (h g hg).2⟩, fun h g hg => ⟨h.1 g hg, h.2 g hg⟩⟩

theorem progressed_eq_false_iff (g : Fire) : g.progressed = false ↔ g.noNewArtifactSincePrior = true ∧ g.workspaceChangeSincePrior = true := by
  simp [Fire.progressed]

theorem mem_take_self (hlimit : 2 ≤ tracker.limit) (fire : Fire) (past : List Fire) : fire ∈ (fire :: past).take (tracker.limit - 1) := by
  obtain ⟨k, hk⟩ : ∃ k, tracker.limit - 1 = k + 1 := ⟨tracker.limit - 2, by omega⟩
  rw [hk]
  exact List.mem_cons_self

/-- The bound is raised for what it is meant for, except on loops that progress at every fire or at the first. -/
theorem raises_iff_stalled_iff (fire : Fire) (past : List Fire) :
    (tracker.raises fire past = true ↔ tracker.SameCause fire past ∧ tracker.Stalled fire past) ↔
      ¬ (2 ≤ tracker.limit ∧ tracker.SameCause fire past ∧ (tracker.AlwaysProgressed fire past ∨ tracker.LateStart fire past)) := by
  rw [raises_iff_alike]
  by_cases hcause : tracker.SameCause fire past
  · simp only [hcause, true_and]
    by_cases hlimit : 2 ≤ tracker.limit
    · have hself := tracker.mem_take_self hlimit fire past
      have hsub : ∀ g ∈ (fire :: past).take (tracker.limit - 1), g ∈ (fire :: past).take tracker.limit :=
        fun g hg => (List.take_sublist_take_left (Nat.sub_le _ _)).subset hg
      simp only [hlimit, true_and]
      by_cases hstalled : tracker.Stalled fire past
      · -- no progress but perhaps before the first of them
        have hfire := (progressed_eq_false_iff fire).1 (hstalled fire hself)
        have hnever : ¬ tracker.AlwaysProgressed fire past := fun h => by
          have hprogressed := hstalled fire hself
          rw [h.1] at hprogressed
          cases hprogressed
        simp only [hstalled, iff_true, hnever, false_or, LateStart, true_and, not_exists, not_and, Bool.not_eq_true]
        refine forall₂_congr fun g _ => ?_
        rw [progressed_eq_false_iff, hfire.1, hfire.2]
      · have hlate : ¬ tracker.LateStart fire past := fun h => hstalled h.1
        simp only [hstalled, iff_false, hlate, or_false, AlwaysProgressed, not_and]
        constructor
        · intro hdiffer _ hall
          exact hdiffer hall
        · intro hquiet hall
          by_cases hprogressed : fire.progressed = true
          · exact hquiet hprogressed hall
          · refine hstalled fun g hg => ?_
            have hfire := (progressed_eq_false_iff fire).1 (by simpa using hprogressed)
            obtain ⟨hartifact, hworkspace⟩ := hall g (hsub g hg)
            rw [progressed_eq_false_iff, hartifact, hworkspace]
            exact hfire
    · -- a bound of one needs no second fire
      have hone : tracker.limit = 1 := by
        have hpos := tracker.limit_pos
        omega
      have hstalled : tracker.Stalled fire past := by simp [Stalled, hone]
      simp [hstalled, hone]
  · simp [hcause]

def moved : Fire :=
  { fireReason := .text "no_output_deadline", diagnosticSignature := .text "silent_subagent", noNewArtifactSincePrior := false,
    workspaceChangeSincePrior := false }

/-- Three fires with progress before each of them, and the bound is raised. -/
theorem progress_raises_bound : ¬ (({} : SameShapeRetryTracker).raises moved [moved, moved] = true ↔
        ({} : SameShapeRetryTracker).SameCause moved [moved, moved] ∧ ({} : SameShapeRetryTracker).Stalled moved [moved, moved]) := by
  intro h
  have hraised : ({} : SameShapeRetryTracker).raises moved [moved, moved] = true := by decide
  have hprogressed := (h.1 hraised).2 moved (by decide)
  exact absurd hprogressed (by decide)

end SameShapeRetryTracker

end RalphWorkflow.Recovery
