import Mathlib.Order.Defs.PartialOrder

/-! Pre- and postconditions for `EStateM`. A handler sees the state its computation left, as in a language whose exceptions undo
nothing. The last section is about computations whose state is a log that they only add to. -/
namespace RalphWorkflow.Lib.Effect

variable {ε σ α β : Type}

def Ends (Q : α → σ → Prop) (E : ε → σ → Prop) : EStateM.Result ε σ α → Prop
  | .ok a s => Q a s
  | .error e s => E e s

/-- From a state of `P` the computation ends in `Q` when it returns and in `E` when it raises. -/
def Triple (P : σ → Prop) (x : EStateM ε σ α) (Q : α → σ → Prop) (E : ε → σ → Prop) : Prop :=
  ∀ s, P s → Ends Q E (x s)

theorem Ends.imp {Q Q' : α → σ → Prop} {E E' : ε → σ → Prop} {r : EStateM.Result ε σ α} (h : Ends Q E r)
    (hq : ∀ a s, Q a s → Q' a s) (he : ∀ e s, E e s → E' e s) : Ends Q' E' r := by
  cases r with
  | ok a s => exact hq a s h
  | error e s => exact he e s h

namespace Triple

variable {P P' : σ → Prop} {Q Q' : α → σ → Prop} {E E' : ε → σ → Prop}

theorem consequence {x : EStateM ε σ α} (h : Triple P x Q E) (hp : ∀ s, P' s → P s) (hq : ∀ a s, Q a s → Q' a s)
    (he : ∀ e s, E e s → E' e s) : Triple P' x Q' E' :=
  fun s hs => (h s (hp s hs)).imp hq he

theorem pure {a : α} (h : ∀ s, P s → Q a s) : Triple (ε := ε) P (Pure.pure a) Q E := h

theorem throw {e : ε} (h : ∀ s, P s → E e s) : Triple (α := α) P (MonadExcept.throw e) Q E := h

theorem bind {x : EStateM ε σ α} {f : α → EStateM ε σ β} {R : α → σ → Prop} {Q : β → σ → Prop} (hx : Triple P x R E)
    (hf : ∀ a, Triple (R a) (f a) Q E) : Triple P (x >>= f) Q E := by
  intro s hs
  have hends := hx s hs
  show Ends Q E (EStateM.bind x f s)
  unfold EStateM.bind
  cases hresult : x s with
  | ok a t =>
    rw [hresult] at hends
    exact hf a t hends
  | error e t =>
    rw [hresult] at hends
    exact hends

theorem map {x : EStateM ε σ α} {f : α → β} {Q : β → σ → Prop} (hx : Triple P x (fun a => Q (f a)) E) : Triple P (f <$> x) Q E := by
  intro s hs
  have hends := hx s hs
  show Ends Q E (EStateM.map f x s)
  unfold EStateM.map
  cases hresult : x s with
  | ok a t =>
    rw [hresult] at hends
    exact hends
  | error e t =>
    rw [hresult] at hends
    exact hends

theorem tryCatch {x : EStateM ε σ α} {handler : ε → EStateM ε σ α} {R : ε → σ → Prop} (hx : Triple P x Q R)
    (hhandler : ∀ e, Triple (R e) (handler e) Q E) : Triple P (MonadExcept.tryCatch x handler) Q E := by
  intro s hs
  have hends := hx s hs
  show Ends Q E (EStateM.tryCatch x handler s)
  unfold EStateM.tryCatch
  cases hresult : x s with
  | ok a t =>
    rw [hresult] at hends
    exact hends
  | error e t =>
    rw [hresult] at hends
    exact hhandler e t hends

theorem and {x : EStateM ε σ α} (h : Triple P x Q E) (h' : Triple P' x Q' E') :
    Triple (fun s => P s ∧ P' s) x (fun a s => Q a s ∧ Q' a s) fun e s => E e s ∧ E' e s := by
  intro s hs
  have hleft := h s hs.1
  have hright := h' s hs.2
  cases hresult : x s with
  | ok a t =>
    rw [hresult] at hleft hright
    exact ⟨hleft, hright⟩
  | error e t =>
    rw [hresult] at hleft hright
    exact ⟨hleft, hright⟩

end Triple

def Keeps (I : σ → Prop) (x : EStateM ε σ α) : Prop := Triple I x (fun _ => I) fun _ => I

namespace Keeps

variable {I : σ → Prop}

theorem pure (a : α) : Keeps (ε := ε) I (Pure.pure a) := fun _ hs => hs

theorem throw (e : ε) : Keeps I (MonadExcept.throw e : EStateM ε σ α) := fun _ hs => hs

theorem bind {x : EStateM ε σ α} {f : α → EStateM ε σ β} (hx : Keeps I x) (hf : ∀ a, Keeps I (f a)) : Keeps I (x >>= f) :=
  Triple.bind hx hf

theorem tryCatch {x : EStateM ε σ α} {handler : ε → EStateM ε σ α} (hx : Keeps I x) (hhandler : ∀ e, Keeps I (handler e)) :
    Keeps I (MonadExcept.tryCatch x handler) :=
  Triple.tryCatch hx hhandler

end Keeps

/-! ## Logs -/

section Log

variable {κ : Type} {R R' : κ → Prop}

/-- What the computation adds to its log is of the given kind. -/
def Emits (R : κ → Prop) (x : EStateM ε (List κ) α) : Prop :=
  ∀ I : List κ → Prop, (∀ entry log, R entry → I log → I (entry :: log)) → Keeps I x

namespace Emits

theorem pure (a : α) : Emits (ε := ε) R (Pure.pure a) := fun _ _ => Keeps.pure a

theorem throw (e : ε) : Emits R (MonadExcept.throw e : EStateM ε (List κ) α) := fun _ _ => Keeps.throw e

theorem bind {x : EStateM ε (List κ) α} {f : α → EStateM ε (List κ) β} (hx : Emits R x) (hf : ∀ a, Emits R (f a)) : Emits R (x >>= f) :=
  fun I hI => Keeps.bind (hx I hI) fun a => hf a I hI

theorem tryCatch {x : EStateM ε (List κ) α} {handler : ε → EStateM ε (List κ) α} (hx : Emits R x)
    (hhandler : ∀ e, Emits R (handler e)) : Emits R (MonadExcept.tryCatch x handler) :=
  fun I hI => Keeps.tryCatch (hx I hI) fun e => hhandler e I hI

theorem mono {x : EStateM ε (List κ) α} (h : Emits R x) (hmono : ∀ entry, R entry → R' entry) : Emits R' x :=
  fun I hI => h I fun entry log hentry => hI entry log (hmono entry hentry)

end Emits

end Log

end RalphWorkflow.Lib.Effect

/-! ## Computations whose state only grows

A computation that carries the proof that its state never goes back in a preorder. What the preorder keeps, every such computation
keeps, without a look at its body.
-/

namespace RalphWorkflow.Lib.Effect


variable {ε σ α β : Type}

def resultState : EStateM.Result ε σ α → σ
  | .ok _ s => s
  | .error _ s => s

structure Growing (ε σ : Type) [Preorder σ] (α : Type) where
  run : EStateM ε σ α
  grows : ∀ s, s ≤ resultState (run s)

namespace Growing

variable [Preorder σ]

protected def pure (a : α) : Growing ε σ α := ⟨Pure.pure a, fun s => le_refl s⟩

protected def throw (e : ε) : Growing ε σ α := ⟨MonadExcept.throw e, fun s => le_refl s⟩

protected def bind (x : Growing ε σ α) (f : α → Growing ε σ β) : Growing ε σ β where
  run := x.run >>= fun a => (f a).run
  grows := by
    intro s
    have hx := x.grows s
    show s ≤ resultState (EStateM.bind x.run (fun a => (f a).run) s)
    unfold EStateM.bind
    cases hresult : x.run s with
    | ok a t =>
      rw [hresult] at hx
      exact le_trans hx ((f a).grows t)
    | error e t =>
      rw [hresult] at hx
      exact hx

protected def tryCatch (x : Growing ε σ α) (handler : ε → Growing ε σ α) : Growing ε σ α where
  run := MonadExcept.tryCatch x.run fun e => (handler e).run
  grows := by
    intro s
    have hx := x.grows s
    show s ≤ resultState (EStateM.tryCatch x.run (fun e => (handler e).run) s)
    unfold EStateM.tryCatch
    cases hresult : x.run s with
    | ok a t =>
      rw [hresult] at hx
      exact hx
    | error e t =>
      rw [hresult] at hx
      exact le_trans hx ((handler e).grows t)

instance : Monad (Growing ε σ) where
  pure := Growing.pure
  bind := Growing.bind

instance : MonadExcept ε (Growing ε σ) where
  throw := Growing.throw
  tryCatch := Growing.tryCatch

theorem keeps (x : Growing ε σ α) {I : σ → Prop} (h : ∀ s t, s ≤ t → I s → I t) : Keeps I x.run := by
  intro s hs
  have hgrows := x.grows s
  cases hresult : x.run s with
  | ok a t =>
    rw [hresult] at hgrows
    exact h s t hgrows hs
  | error e t =>
    rw [hresult] at hgrows
    exact h s t hgrows hs

end Growing

/-! ## Triples beside a lost case -/

section Lost

variable [Preorder σ] {Lost P : σ → Prop} {Q : α → σ → Prop} {E : ε → σ → Prop}

/-- From a state of `P` the computation ends as said, or the case is lost. -/
def Guards (Lost P : σ → Prop) (x : Growing ε σ α) (Q : α → σ → Prop) (E : ε → σ → Prop) : Prop :=
  Triple P x.run (fun a s => Q a s ∨ Lost s) fun e s => E e s ∨ Lost s

namespace Guards

theorem pure {a : α} (h : ∀ s, P s → Q a s) : Guards (ε := ε) Lost P (Pure.pure a) Q E :=
  fun s hs => .inl (h s hs)

theorem throw {e : ε} (h : ∀ s, P s → E e s) : Guards (α := α) Lost P (MonadExcept.throw e) Q E :=
  fun s hs => .inl (h s hs)

theorem consequence {P' : σ → Prop} {Q' : α → σ → Prop} {E' : ε → σ → Prop} {x : Growing ε σ α} (h : Guards Lost P x Q E)
    (hp : ∀ s, P' s → P s) (hq : ∀ a s, Q a s → Q' a s) (he : ∀ e s, E e s → E' e s) : Guards Lost P' x Q' E' :=
  Triple.consequence h hp (fun a s => Or.imp_left (hq a s)) fun e s => Or.imp_left (he e s)

theorem cases {P' : σ → Prop} {x : Growing ε σ α} (h : Guards Lost P x Q E) (h' : Guards Lost P' x Q E) : Guards Lost (fun s => P s ∨ P' s) x Q E :=
  fun s hs => hs.elim (h s) (h' s)

theorem bind {x : Growing ε σ α} {f : α → Growing ε σ β} {R : α → σ → Prop} {Q : β → σ → Prop}
    (hlost : ∀ s t, s ≤ t → Lost s → Lost t) (hx : Guards Lost P x R E) (hf : ∀ a, Guards Lost (R a) (f a) Q E) :
    Guards Lost P (x >>= f) Q E := by
  refine Triple.bind (R := fun a s => R a s ∨ Lost s) hx fun a => ?_
  rintro s (hs | hs)
  · exact hf a s hs
  · exact ((f a).keeps hlost s hs).imp (fun _ _ => .inr) fun _ _ => .inr

theorem tryCatch {x : Growing ε σ α} {handler : ε → Growing ε σ α} {R : ε → σ → Prop}
    (hlost : ∀ s t, s ≤ t → Lost s → Lost t) (hx : Guards Lost P x Q R) (hhandler : ∀ e, Guards Lost (R e) (handler e) Q E) :
    Guards Lost P (MonadExcept.tryCatch x handler) Q E := by
  refine Triple.tryCatch (R := fun e s => R e s ∨ Lost s) hx fun e => ?_
  rintro s (hs | hs)
  · exact hhandler e s hs
  · exact ((handler e).keeps hlost s hs).imp (fun _ _ => .inr) fun _ _ => .inr

end Guards

end Lost

end RalphWorkflow.Lib.Effect
