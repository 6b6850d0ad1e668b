import Mathlib.Algebra.Order.BigOperators.Group.List
import Mathlib.Algebra.Order.Ring.Nat
import Mathlib.Data.Nat.Find
import Mathlib.Order.Basic

/-! A system is a function that says what state an action leads to, when it can be taken. A run is a list of actions. -/
namespace RalphWorkflow.Lib.Run

universe u v

variable {σ : Type u} {α : Type v}

def run (step : σ → α → Option σ) : σ → List α → Option σ
  | s, [] => some s
  | s, a :: rest => (step s a).bind fun next => run step next rest

variable {step : σ → α → Option σ}

theorem run_cons_iff {s t : σ} {a : α} {rest : List α} :
    run step s (a :: rest) = some t ↔ ∃ mid, step s a = some mid ∧ run step mid rest = some t :=
  Option.bind_eq_some_iff

theorem run_append (s : σ) (first second : List α) : run step s (first ++ second) = (run step s first).bind fun mid => run step mid second := by
  induction first generalizing s with
  | nil => rfl
  | cons a first ih =>
    rw [List.cons_append, run, run]
    cases step s a with
    | none => rfl
    | some next => exact ih next

theorem invariant {Inv : σ → Prop} (hstep : ∀ s a t, Inv s → step s a = some t → Inv t) {s t : σ} {actions : List α}
    (h : Inv s) (hrun : run step s actions = some t) : Inv t := by
  induction actions generalizing s with
  | nil =>
    cases hrun
    exact h
  | cons a rest ih =>
    obtain ⟨mid, hmid, hrest⟩ := run_cons_iff.mp hrun
    exact ih (hstep s a mid h hmid) hrest

theorem relates {Inv : σ → Prop} (hinv : ∀ s a t, Inv s → step s a = some t → Inv t) (R : σ → σ → Prop)
    (hrefl : ∀ s, R s s) (htrans : ∀ s t u, R s t → R t u → R s u)
    (hstep : ∀ s a t, Inv s → step s a = some t → R s t) {s t : σ} {actions : List α} (h : Inv s)
    (hrun : run step s actions = some t) : R s t := by
  induction actions generalizing s with
  | nil =>
    cases hrun
    exact hrefl _
  | cons a rest ih =>
    obtain ⟨mid, hmid, hrest⟩ := run_cons_iff.mp hrun
    exact htrans s mid t (hstep s a mid h hmid) (ih (hinv s a mid h hmid) hrest)

/-! ## Every step of a run -/

/-- Every step of the run, as far as its actions can be taken, is as `P` says. -/
def Throughout (step : σ → α → Option σ) (P : σ → α → σ → Prop) : σ → List α → Prop
  | _, [] => True
  | s, a :: rest =>
    match step s a with
    | none => True
    | some next => P s a next ∧ Throughout step P next rest

instance Throughout.decidable {P : σ → α → σ → Prop} [∀ s a t, Decidable (P s a t)] :
    (s : σ) → (actions : List α) → Decidable (Throughout step P s actions)
  | _, [] => .isTrue trivial
  | s, a :: rest =>
    match h : step s a with
    | none => .isTrue (by simp only [Throughout, h])
    | some next =>
      have := Throughout.decidable (P := P) next rest
      decidable_of_iff (P s a next ∧ Throughout step P next rest) (by simp only [Throughout, h])

theorem Throughout.cons {P : σ → α → σ → Prop} {s next : σ} {a : α} {rest : List α} (hstep : step s a = some next)
    (h : P s a next) (hrest : Throughout step P next rest) : Throughout step P s (a :: rest) := by
  rw [Throughout, hstep]
  exact ⟨h, hrest⟩

theorem Throughout.and {P Q : σ → α → σ → Prop} {s : σ} {actions : List α} (hp : Throughout step P s actions)
    (hq : Throughout step Q s actions) : Throughout step (fun s a t => P s a t ∧ Q s a t) s actions := by
  induction actions generalizing s with
  | nil => trivial
  | cons a rest ih =>
    unfold Throughout at hp hq ⊢
    cases hnext : step s a with
    | none => trivial
    | some next =>
      rw [hnext] at hp hq
      exact ⟨⟨hp.1, hq.1⟩, ih hp.2 hq.2⟩

theorem Throughout.of_step {Inv : σ → Prop} {C P : σ → α → σ → Prop}
    (hstep : ∀ s a t, Inv s → C s a t → step s a = some t → Inv t ∧ P s a t) {s : σ} {actions : List α} (hs : Inv s)
    (h : Throughout step C s actions) : Throughout step P s actions := by
  induction actions generalizing s with
  | nil => trivial
  | cons a rest ih =>
    unfold Throughout at h ⊢
    cases hnext : step s a with
    | none => trivial
    | some next =>
      rw [hnext] at h
      obtain ⟨hkeeps, hwanted⟩ := hstep s a next hs h.1 hnext
      exact ⟨hwanted, ih hkeeps h.2⟩

theorem Throughout.invariant {Inv : σ → Prop} {C : σ → α → σ → Prop}
    (hstep : ∀ s a t, Inv s → C s a t → step s a = some t → Inv t) {s t : σ} {actions : List α}
    (h : Throughout step C s actions) (hs : Inv s) (hrun : run step s actions = some t) : Inv t := by
  induction actions generalizing s with
  | nil =>
    cases hrun
    exact hs
  | cons a rest ih =>
    obtain ⟨mid, hmid, hrest⟩ := run_cons_iff.mp hrun
    rw [Throughout, hmid] at h
    exact ih h.2 (hstep s a mid hs h.1 hmid) hrest

/-- Where a step from the invariant is as wanted just when it meets a condition that keeps it, so are runs. -/
theorem Throughout.iff_of_step {Inv : σ → Prop} {C P : σ → α → σ → Prop} (hiff : ∀ s a t, Inv s → step s a = some t → (P s a t ↔ C s a t))
    (hkeeps : ∀ s a t, Inv s → C s a t → step s a = some t → Inv t) {s : σ} {actions : List α} (hs : Inv s) :
    Throughout step P s actions ↔ Throughout step C s actions := by
  induction actions generalizing s with
  | nil => exact Iff.rfl
  | cons a rest ih =>
    unfold Throughout
    cases hnext : step s a with
    | none => exact Iff.rfl
    | some next =>
      constructor
      · rintro ⟨hwanted, hrest⟩
        have hmeets : C s a next := (hiff s a next hs hnext).mp hwanted
        exact ⟨hmeets, (ih (hkeeps s a next hs hmeets hnext)).mp hrest⟩
      · rintro ⟨hmeets, hrest⟩
        exact ⟨(hiff s a next hs hnext).mpr hmeets, (ih (hkeeps s a next hs hmeets hnext)).mpr hrest⟩

theorem Throughout.good_or_bad {Good Bad : σ → Prop} {C : σ → α → σ → Prop} (hgood : ∀ s a t, Good s → C s a t → step s a = some t → Good t)
    (hfall : ∀ s a t, Good s → ¬C s a t → step s a = some t → Bad t)
    (hbad : ∀ s a t, Bad s → step s a = some t → Bad t) {s t : σ} {actions : List α} (hs : Good s)
    (hrun : run step s actions = some t) :
    Throughout step C s actions ∧ Good t ∨ ¬Throughout step C s actions ∧ Bad t := by
  induction actions generalizing s with
  | nil =>
    cases hrun
    exact .inl ⟨trivial, hs⟩
  | cons a rest ih =>
    obtain ⟨mid, hmid, hrest⟩ := run_cons_iff.mp hrun
    rw [Throughout, hmid]
    by_cases hmeets : C s a mid
    · rcases ih (hgood s a mid hs hmeets hmid) hrest with ⟨hthroughout, ht⟩ | ⟨hbroken, ht⟩
      · exact .inl ⟨⟨hmeets, hthroughout⟩, ht⟩
      · exact .inr ⟨fun h => hbroken h.2, ht⟩
    · exact .inr ⟨fun h => hmeets h.1, Run.invariant hbad (hfall s a mid hs hmeets hmid) hrest⟩

theorem Throughout.at_step {P : σ → α → σ → Prop} {s mid next : σ} {before : List α} {a : α} {after : List α}
    (h : Throughout step P s (before ++ a :: after)) (hrun : run step s before = some mid) (hstep : step mid a = some next) :
    P mid a next := by
  induction before generalizing s with
  | nil =>
    cases hrun
    rw [List.nil_append, Throughout, hstep] at h
    exact h.1
  | cons b rest ih =>
    obtain ⟨first, hfirst, hrest⟩ := run_cons_iff.mp hrun
    rw [List.cons_append, Throughout, hfirst] at h
    exact ih h.2 hrest

end RalphWorkflow.Lib.Run

/-! ## Descent

A run whose measure goes down until something happens makes it happen within the first value of the measure. Measures
are sums of weights that never grow.
-/

namespace RalphWorkflow.Lib.Descent


theorem exists_first_of_descends {happens : Nat → Prop} (measure : Nat → Nat) (h : ∀ n, (∀ m ≤ n, ¬ happens m) → measure (n + 1) < measure n) :
    ∃ n ≤ measure 0, happens n ∧ ∀ m < n, ¬ happens m := by
  classical
  have hdescent : ∀ n, (∀ m < n, ¬ happens m) → measure n + n ≤ measure 0 := by
    intro n
    induction n with
    | zero => exact fun _ => le_refl _
    | succ n ih =>
      intro hquiet
      have hbefore := ih fun m hm => hquiet m (Nat.lt_succ_of_lt hm)
      have hdown := h n fun m hm => hquiet m (Nat.lt_succ_of_le hm)
      omega
  have hexists : ∃ n, happens n := by
    by_contra hnever
    push Not at hnever
    have hfar := hdescent (measure 0 + 1) fun m _ => hnever m
    omega
  refine ⟨Nat.find hexists, ?_, Nat.find_spec hexists, fun m hm => Nat.find_min hexists hm⟩
  have hfound := hdescent (Nat.find hexists) fun m hm => Nat.find_min hexists hm
  omega

theorem sum_lt_or_eq {α : Type} {l : List α} {f g : α → Nat} (h : ∀ a ∈ l, f a ≤ g a) : (l.map f).sum < (l.map g).sum ∨ ∀ a ∈ l, f a = g a := by
  by_cases hsmaller : ∃ a ∈ l, f a < g a
  · exact .inl (List.sum_lt_sum f g h hsmaller)
  · push Not at hsmaller
    exact .inr fun a ha => le_antisymm (h a ha) (hsmaller a ha)

end RalphWorkflow.Lib.Descent
