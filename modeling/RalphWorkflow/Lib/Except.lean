import Mathlib.Data.List.Basic

/-! Inversion lemmas for `Except`: a bind that returned, and a loop of checks that returned. Below them, when a computation
returns at all. -/
namespace RalphWorkflow.Lib

universe u v w

theorem bind_eq_ok_iff {ε : Type u} {α β : Type v} (x : Except ε α) (f : α → Except ε β) (b : β) :
    (x >>= f) = .ok b ↔ ∃ a, x = .ok a ∧ f a = .ok b := by
  cases x with
  | error e =>
    constructor
    · intro h
      cases h
    · rintro ⟨a, ha, _⟩
      cases ha
  | ok a =>
    constructor
    · intro h
      exact ⟨a, rfl, h⟩
    · rintro ⟨a', ha, hf⟩
      cases ha
      exact hf

theorem forM_eq_ok_iff {ε : Type u} {α : Type w} (xs : List α) (check : α → Except ε PUnit.{v + 1}) :
    xs.forM check = .ok ⟨⟩ ↔ ∀ x ∈ xs, check x = .ok ⟨⟩ := by
  induction xs with
  | nil => simp [pure, Except.pure]
  | cons x rest ih =>
    change (check x >>= fun _ => rest.forM check) = .ok ⟨⟩ ↔ _
    rw [bind_eq_ok_iff]
    constructor
    · rintro ⟨_, hx, hrest⟩ y hy
      rcases List.mem_cons.mp hy with rfl | hy
      · exact hx
      · exact ih.mp hrest y hy
    · intro h
      exact ⟨⟨⟩, h x List.mem_cons_self, ih.mpr fun y hy => h y (List.mem_cons_of_mem x hy)⟩

theorem forall_of_mapM_eq_ok {ε : Type u} {α : Type w} {β : Type u} {f : α → Except ε β} {xs : List α} {ys : List β}
    (h : xs.mapM f = .ok ys) : ∀ x ∈ xs, ∃ y, f x = .ok y := by
  induction xs generalizing ys with
  | nil =>
    intro x hx
    cases hx
  | cons x rest ih =>
    rw [List.mapM_cons, bind_eq_ok_iff] at h
    obtain ⟨y, hy, h⟩ := h
    obtain ⟨ys', hrest, -⟩ := (bind_eq_ok_iff _ _ _).mp h
    intro z hz
    rcases List.mem_cons.mp hz with rfl | hz
    · exact ⟨y, hy⟩
    · exact ih hrest z hz

/-! ## Exceptions by class -/

inductive PyError
  | valueError (message : String)
  | runtimeError (message : String)
  | keyError (key : String)
  | indexError
  deriving DecidableEq

def Returns {α : Type u} (x : Except PyError α) : Prop := ∃ a, x = .ok a

/-- The computation returned, or raised what `except ValueError` catches. -/
def ReturnsOrCaught {α : Type u} (x : Except PyError α) : Prop := Returns x ∨ ∃ message, x = .error (.valueError message)

theorem returns_ok {α : Type u} (a : α) : Returns (.ok a : Except PyError α) := ⟨a, rfl⟩

theorem not_returns_error {α : Type u} (e : PyError) : ¬ Returns (.error e : Except PyError α) := by
  rintro ⟨a, h⟩
  cases h

theorem Returns.bind {α β : Type u} {x : Except PyError α} {f : α → Except PyError β} (hx : Returns x)
    (hf : ∀ a, x = .ok a → Returns (f a)) : Returns (x >>= f) := by
  obtain ⟨a, ha⟩ := hx
  obtain ⟨b, hb⟩ := hf a ha
  exact ⟨b, (bind_eq_ok_iff _ _ _).mpr ⟨a, ha, hb⟩⟩

theorem returns_bind_iff {α β : Type u} {x : Except PyError α} {f : α → Except PyError β}
    (hf : ∀ a, x = .ok a → Returns (f a)) : Returns (x >>= f) ↔ Returns x := by
  constructor
  · rintro ⟨b, hb⟩
    obtain ⟨a, ha, -⟩ := (bind_eq_ok_iff _ _ _).mp hb
    exact ⟨a, ha⟩
  · intro hx
    exact hx.bind hf

theorem ReturnsOrCaught.bind {α β : Type u} {x : Except PyError α} {f : α → Except PyError β}
    (hx : ReturnsOrCaught x) (hf : ∀ a, x = .ok a → ReturnsOrCaught (f a)) : ReturnsOrCaught (x >>= f) := by
  rcases hx with ⟨a, ha⟩ | ⟨message, hmessage⟩
  · rcases hf a ha with ⟨b, hb⟩ | ⟨message, hmessage⟩
    · exact .inl ⟨b, (bind_eq_ok_iff _ _ _).mpr ⟨a, ha, hb⟩⟩
    · right
      refine ⟨message, ?_⟩
      rw [ha, ← hmessage]
      rfl
  · right
    refine ⟨message, ?_⟩
    rw [hmessage]
    rfl

def catchValueError {α : Type u} (x : Except PyError α) (handler : String → Except PyError α) : Except PyError α :=
  match x with
  | .error (.valueError message) => handler message
  | other => other

theorem returns_catchValueError {α : Type u} {x : Except PyError α} {handler : String → Except PyError α}
    (hx : ReturnsOrCaught x) (hhandler : ∀ message, Returns (handler message)) : Returns (catchValueError x handler) := by
  rcases hx with ⟨a, ha⟩ | ⟨message, hmessage⟩
  · rw [ha]
    exact ⟨a, rfl⟩
  · rw [hmessage]
    exact hhandler message

/-! ## Checks -/

def require (ok : Bool) (message : String) : Except String Unit :=
  if ok then .ok () else .error message

@[simp] theorem require_eq_ok_iff (ok : Bool) (message : String) {u : Unit} : require ok message = .ok u ↔ ok = true := by
  cases ok <;> simp [require]

end RalphWorkflow.Lib
