import Mathlib.Data.Fintype.Card
import Mathlib.Data.Fintype.Fin
import Mathlib.Logic.Relation
import RalphWorkflow.Recovery.Failure

/-! What the walk along an exception chain finds. It ends on every graph, and it sees exactly the exceptions that come one after the other when
the cause goes before the context; what hangs on the context of an exception with a cause is out of its sight. -/
namespace RalphWorkflow.Recovery
open Relation List

namespace ExceptionGraph

variable {n : Nat} (g : ExceptionGraph n)

def Linked (a b : Fin n) : Prop := g.cause a = some b ∨ g.context a = some b

def Follows (a b : Fin n) : Prop := g.follow a = some b

/-! ## The walk ends -/

theorem length_le_of_nodup (visited : List (Fin n)) (hnodup : visited.Nodup) : visited.length ≤ n := by
  have hcard := hnodup.length_le_card
  rwa [Fintype.card_fin] at hcard

theorem walk_ends (rounds : Nat) (visited : List (Fin n)) (current : Option (Fin n)) (hnodup : visited.Nodup)
    (hrounds : n < rounds + visited.length) : (g.walk rounds visited current).isSome = true := by
  induction rounds generalizing visited current with
  | zero =>
    have hlength := length_le_of_nodup visited hnodup
    omega
  | succ rounds ih =>
    cases current with
    | none => rfl
    | some current =>
      unfold walk
      by_cases hvisited : current ∈ visited
      · simp [hvisited]
      · by_cases hkilled : g.watchdogKilled current = true
        · simp [hvisited, hkilled]
        · have hnext := ih (current :: visited) (g.follow current) (nodup_cons.2 ⟨hvisited, hnodup⟩) (by simp only [length_cons]; omega)
          simp [hvisited, hkilled, hnext]

theorem findTypedWatchdogCause_ends (exc : Fin n) : (g.findTypedWatchdogCause exc).isSome = true := by
  unfold findTypedWatchdogCause
  by_cases hkilled : g.watchdogKilled exc = true
  · simp [hkilled]
  · have hwalk := g.walk_ends (n + 1) [exc] (g.follow exc) (nodup_singleton exc) (by omega)
    simp [hkilled, hwalk]

/-! ## What it finds -/

variable {visited : List (Fin n)} {found : Fin n}

theorem walk_sound {rounds : Nat} {current : Option (Fin n)} (h : g.walk rounds visited current = some (some found)) :
    g.watchdogKilled found = true ∧ ∃ start, current = some start ∧ ReflTransGen g.Follows start found := by
  induction rounds generalizing visited current with
  | zero => cases h
  | succ rounds ih =>
    cases current with
    | none => cases h
    | some current =>
      unfold walk at h
      by_cases hvisited : current ∈ visited
      · simp [hvisited] at h
      · by_cases hkilled : g.watchdogKilled current = true
        · simp only [hvisited, hkilled, if_true, if_false, Option.some.injEq] at h
          subst h
          exact ⟨hkilled, current, rfl, ReflTransGen.refl⟩
        · simp only [hvisited, hkilled, if_false] at h
          obtain ⟨hfound, start, hstart, hpath⟩ := ih h
          exact ⟨hfound, current, rfl, ReflTransGen.head hstart hpath⟩

/-- No exception passed is the one looked for, and each leads to another or the current one. -/
def Passed (visited : List (Fin n)) (current : Option (Fin n)) : Prop :=
  ∀ v ∈ visited, g.watchdogKilled v = false ∧ ∀ w, g.Follows v w → w ∈ visited ∨ current = some w

theorem Passed.reaches {g : ExceptionGraph n} {current : Option (Fin n)} (h : g.Passed visited current)
    (hend : ∀ w, current = some w → w ∈ visited) {a b : Fin n} (ha : a ∈ visited) (hpath : ReflTransGen g.Follows a b) : b ∈ visited := by
  induction hpath with
  | refl => exact ha
  | tail _ hstep ih => exact ((h _ ih).2 _ hstep).elim id (hend _)

theorem Passed.step {g : ExceptionGraph n} {current : Fin n} (h : g.Passed visited (some current))
    (hkilled : g.watchdogKilled current = false) : g.Passed (current :: visited) (g.follow current) := by
  intro v hv
  rcases mem_cons.1 hv with rfl | hv
  · exact ⟨hkilled, fun w hw => .inr hw⟩
  · refine ⟨(h v hv).1, fun w hw => .inl ?_⟩
    rcases (h v hv).2 w hw with hmem | hcurrent
    · exact mem_cons_of_mem _ hmem
    · cases hcurrent
      exact mem_cons_self

theorem walk_complete {rounds : Nat} {current : Option (Fin n)} (h : g.walk rounds visited current = some none)
    (hpassed : g.Passed visited current) {start : Fin n} (hstart : start ∈ visited) (hpath : ReflTransGen g.Follows start found) :
    g.watchdogKilled found = false := by
  induction rounds generalizing visited current with
  | zero => cases h
  | succ rounds ih =>
    cases current with
    | none => exact (hpassed found (hpassed.reaches (by simp) hstart hpath)).1
    | some current =>
      unfold walk at h
      by_cases hvisited : current ∈ visited
      · have hend : ∀ w, some current = some w → w ∈ visited := by
          rintro w ⟨⟩
          exact hvisited
        exact (hpassed found (hpassed.reaches hend hstart hpath)).1
      · by_cases hkilled : g.watchdogKilled current = true
        · simp [hvisited, hkilled] at h
        · simp only [hvisited, hkilled, if_false] at h
          exact ih h (hpassed.step (by simpa using hkilled)) (mem_cons_of_mem _ hstart)

theorem findTypedWatchdogCause_iff (exc : Fin n) :
    (∃ found, g.findTypedWatchdogCause exc = some (some found)) ↔ ∃ w, ReflTransGen g.Follows exc w ∧ g.watchdogKilled w = true := by
  unfold findTypedWatchdogCause
  by_cases hkilled : g.watchdogKilled exc = true
  · simp only [hkilled, if_true]
    exact iff_of_true ⟨exc, rfl⟩ ⟨exc, ReflTransGen.refl, hkilled⟩
  · simp only [hkilled]
    constructor
    · rintro ⟨found, hfound⟩
      obtain ⟨hwatchdog, start, hstart, hpath⟩ := g.walk_sound hfound
      exact ⟨found, ReflTransGen.head hstart hpath, hwatchdog⟩
    · rintro ⟨w, hpath, hwatchdog⟩
      obtain ⟨result, hresult⟩ := Option.isSome_iff_exists.1 (g.walk_ends (n + 1) [exc] (g.follow exc) (nodup_singleton exc) (by omega))
      cases result with
      | some found => exact ⟨found, hresult⟩
      | none =>
        have hpassed : g.Passed [exc] (g.follow exc) := by
          intro v hv
          rw [mem_singleton.1 hv]
          exact ⟨by simpa using hkilled, fun w hw => .inr hw⟩
        have hnot := g.walk_complete hresult hpassed mem_cons_self hpath
        rw [hwatchdog] at hnot
        cases hnot

theorem findTypedWatchdogCause_sound {exc : Fin n} (h : g.findTypedWatchdogCause exc = some (some found)) : g.watchdogKilled found = true := by
  unfold findTypedWatchdogCause at h
  by_cases hkilled : g.watchdogKilled exc = true
  · simp only [hkilled, if_true, Option.some.injEq] at h
    exact h ▸ hkilled
  · simp only [hkilled] at h
    exact (g.walk_sound h).1

/-! ## The categories -/

/-- A killed watchdog that can be reached is found and decides the category, whatever the texts say. -/
structure TypedCauseFound (exc : Fin n) : Prop where
  ends : (g.findTypedWatchdogCause exc).isSome = true
  found : (∃ w, ReflTransGen g.Linked exc w ∧ g.watchdogKilled w = true) →
    ∃ found, g.findTypedWatchdogCause exc = some (some found) ∧ g.watchdogKilled found = true
  typed : (∃ w, ReflTransGen g.Linked exc w ∧ g.watchdogKilled w = true) → ∀ scans, g.categorize exc scans = (.agent, true, false)

theorem categorize_of_found {exc : Fin n} (h : g.findTypedWatchdogCause exc = some (some found)) (scans : TextScans) :
    g.categorize exc scans = (.agent, true, false) := by
  simp [categorize, categorizeExc, h]

/-- The cause is found exactly when a reachable killed watchdog is on the way of the walk. -/
theorem typedCauseFound_iff (exc : Fin n) : g.TypedCauseFound exc ↔
      ((∃ w, ReflTransGen g.Linked exc w ∧ g.watchdogKilled w = true) → ∃ w, ReflTransGen g.Follows exc w ∧ g.watchdogKilled w = true) := by
  constructor
  · intro h hreachable
    obtain ⟨found, hfound, -⟩ := h.found hreachable
    exact (g.findTypedWatchdogCause_iff exc).1 ⟨found, hfound⟩
  · intro h
    refine ⟨g.findTypedWatchdogCause_ends exc, fun hreachable => ?_, fun hreachable scans => ?_⟩
    · obtain ⟨found, hfound⟩ := (g.findTypedWatchdogCause_iff exc).2 (h hreachable)
      exact ⟨found, hfound, g.findTypedWatchdogCause_sound hfound⟩
    · obtain ⟨found, hfound⟩ := (g.findTypedWatchdogCause_iff exc).2 (h hreachable)
      exact g.categorize_of_found hfound scans

/-- `raise wrapper from cause` while the killed watchdog is handled: the wrapper has both links. -/
def reraised : ExceptionGraph 3 where
  cause exc := if exc = 0 then some 1 else none
  context exc := if exc = 0 then some 2 else none
  watchdogKilled exc := exc = 2
  typeName exc := if exc = 2 then "IdleWatchdogKilledError" else "RuntimeError"
  environmental _ := false

/-- The killed watchdog behind the context of the wrapper is not found. -/
theorem context_hidden_by_cause : ¬ reraised.TypedCauseFound 0 := by
  intro h
  have hnone : reraised.findTypedWatchdogCause 0 = some none := by decide
  obtain ⟨found, hfound, -⟩ := h.found ⟨2, ReflTransGen.single (.inr rfl), rfl⟩
  rw [hnone] at hfound
  cases hfound

end ExceptionGraph

end RalphWorkflow.Recovery
