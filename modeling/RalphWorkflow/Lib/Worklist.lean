import Mathlib.Logic.Relation

/-! A walk pops a node, drops it when it was seen or is not expandable (`expand x = none`), and otherwise marks it and pushes its successors. With
the fuel of `walkFuel` the nodes marked are exactly those the relation `Edge` reaches from the stack. -/
namespace RalphWorkflow.Lib.Worklist
open List

universe u

variable {α : Type u}

/-- An edge between two nodes the walk goes through. -/
def Edge (expand : α → Option (List α)) (a b : α) : Prop :=
  (∃ ys, expand a = some ys ∧ b ∈ ys) ∧ (expand b).isSome = true

/-- `y` is reached from `x` through expandable nodes, both ends included. -/
def Reaches (expand : α → Option (List α)) (x y : α) : Prop :=
  (expand x).isSome = true ∧ Relation.ReflTransGen (Edge expand) x y

def sweep [DecidableEq α] (expand : α → Option (List α)) : Nat → List α → List α → List α
  | 0, _, seen => seen
  | _ + 1, [], seen => seen
  | fuel + 1, x :: rest, seen =>
    if x ∈ seen then sweep expand fuel rest seen
    else match expand x with
      | none => sweep expand fuel rest seen
      | some ys => sweep expand fuel (ys.reverse ++ rest) (x :: seen)

def search [DecidableEq α] (goal : α → Bool) (expand : α → Option (List α)) : Nat → List α → List α → Bool
  | 0, _, _ => false
  | _ + 1, [], _ => false
  | fuel + 1, x :: rest, seen =>
    if goal x then true
    else if x ∈ seen then search goal expand fuel rest seen
    else match expand x with
      | none => search goal expand fuel rest seen
      | some ys => search goal expand fuel (ys.reverse ++ rest) (x :: seen)

/-! ## Fuel -/

section Fuel

variable [DecidableEq α]

def unseenPushes (expand : α → Option (List α)) (seen : List α) : List α → Nat
  | [] => 0
  | n :: ns => (if n ∈ seen then 0 else ((expand n).getD []).length) + unseenPushes expand seen ns

/-- Fuel enough for a walk that only goes through `nodes`. -/
def walkFuel (expand : α → Option (List α)) (nodes frontier : List α) : Nat :=
  frontier.length + unseenPushes expand [] nodes + 1

theorem lt_walkFuel (expand : α → Option (List α)) (nodes frontier : List α) :
    frontier.length + unseenPushes expand [] nodes < walkFuel expand nodes frontier :=
  Nat.lt_succ_self _

theorem unseenPushes_cons_le (expand : α → Option (List α)) (nodes seen : List α) (x : α) :
    unseenPushes expand (x :: seen) nodes ≤ unseenPushes expand seen nodes := by
  induction nodes with
  | nil => exact Nat.le_refl _
  | cons n ns ih =>
    refine Nat.add_le_add ?_ ih
    by_cases h : n ∈ seen
    · simp [h]
    · by_cases hx : n = x <;> simp [h, hx]

theorem unseenPushes_mark (expand : α → Option (List α)) (nodes seen : List α) (x : α) (ys : List α)
    (hx : expand x = some ys) (hmem : x ∈ nodes) (hfresh : x ∉ seen) :
    unseenPushes expand (x :: seen) nodes + ys.length ≤ unseenPushes expand seen nodes := by
  induction nodes with
  | nil => exact absurd hmem not_mem_nil
  | cons n ns ih =>
    have hle := unseenPushes_cons_le expand ns seen x
    unfold unseenPushes
    by_cases hn : n = x
    · subst hn
      rw [if_pos mem_cons_self, if_neg hfresh, hx, Option.getD_some]
      omega
    · have htail := ih ((mem_cons.mp hmem).resolve_left fun h => hn h.symm)
      have hhead : n ∈ x :: seen ↔ n ∈ seen := by simp only [mem_cons, hn, false_or]
      simp only [hhead]
      omega

end Fuel

/-! ## What a sweep marks -/

section Sweep

variable {expand : α → Option (List α)}

theorem Reaches.push {x y : α} {ys : List α} (hx : expand x = some ys) {z : α} (hz : z ∈ ys) (h : Reaches expand z y) : Reaches expand x y :=
  ⟨by rw [hx]; rfl, Relation.ReflTransGen.head ⟨⟨ys, hx, hz⟩, h.1⟩ h.2⟩

theorem Reaches.isSome {x y : α} (h : Reaches expand x y) : (expand y).isSome = true := by
  rcases Relation.ReflTransGen.cases_tail h.2 with heq | ⟨_, _, hedge⟩
  · rw [heq]
    exact h.1
  · exact hedge.2

theorem Reaches.tail {x y z : α} {ys : List α} (h : Reaches expand x y) (hy : expand y = some ys)
    (hz : z ∈ ys) (hsome : (expand z).isSome = true) : Reaches expand x z :=
  ⟨h.1, h.2.tail ⟨⟨ys, hy, hz⟩, hsome⟩⟩

theorem sweep_sound [DecidableEq α] (fuel : Nat) (frontier seen : List α) (y : α)
    (hy : y ∈ sweep expand fuel frontier seen) : y ∈ seen ∨ ∃ x ∈ frontier, Reaches expand x y := by
  induction fuel generalizing frontier seen with
  | zero => exact .inl hy
  | succ fuel ih =>
    cases frontier with
    | nil => exact .inl hy
    | cons x rest =>
      have later : (∃ z ∈ rest, Reaches expand z y) → ∃ z ∈ x :: rest, Reaches expand z y :=
        fun ⟨z, hz, hr⟩ => ⟨z, mem_cons_of_mem x hz, hr⟩
      unfold sweep at hy
      split at hy
      · exact (ih rest seen hy).imp_right later
      · split at hy
        · exact (ih rest seen hy).imp_right later
        · rename_i _ ys hys
          rcases ih _ _ hy with hmark | ⟨z, hz, hr⟩
          · rcases mem_cons.mp hmark with rfl | hold
            · exact .inr ⟨y, mem_cons_self, by rw [hys]; rfl, Relation.ReflTransGen.refl⟩
            · exact .inl hold
          · rcases mem_append.mp hz with hpush | hrest
            · exact .inr ⟨x, mem_cons_self, Reaches.push hys (mem_reverse.mp hpush) hr⟩
            · exact .inr (later ⟨z, hrest, hr⟩)

/-- Successors of marked nodes are marked or still on the stack. -/
def ClosedUpTo (expand : α → Option (List α)) (seen frontier : List α) : Prop :=
  ∀ a ∈ seen, ∀ b, Edge expand a b → b ∈ seen ∨ b ∈ frontier

theorem ClosedUpTo.pop_seen {seen rest : List α} {x : α} (h : ClosedUpTo expand seen (x :: rest))
    (hx : x ∈ seen ∨ expand x = none) : ClosedUpTo expand seen rest := by
  intro a ha b hab
  rcases h a ha b hab with hb | hb
  · exact .inl hb
  · rcases mem_cons.mp hb with rfl | hb
    · rcases hx with hx | hx
      · exact .inl hx
      · have hsome := hab.2
        rw [hx] at hsome
        exact absurd hsome Bool.false_ne_true
    · exact .inr hb

theorem ClosedUpTo.mark {seen rest ys : List α} {x : α} (h : ClosedUpTo expand seen (x :: rest))
    (hx : expand x = some ys) : ClosedUpTo expand (x :: seen) (ys.reverse ++ rest) := by
  intro a ha b hab
  rcases mem_cons.mp ha with rfl | ha
  · obtain ⟨⟨zs, hzs, hb⟩, _⟩ := hab
    rw [hx] at hzs
    cases hzs
    exact .inr (mem_append_left rest (mem_reverse.mpr hb))
  · rcases h a ha b hab with hb | hb
    · exact .inl (mem_cons_of_mem x hb)
    · rcases mem_cons.mp hb with rfl | hb
      · exact .inl mem_cons_self
      · exact .inr (mem_append_right _ hb)

theorem sweep_closed [DecidableEq α] (nodes : List α) (hnodes : ∀ x, (expand x).isSome = true → x ∈ nodes) (fuel : Nat)
    (frontier seen : List α) (hfuel : frontier.length + unseenPushes expand seen nodes < fuel)
    (hclosed : ClosedUpTo expand seen frontier) :
    ClosedUpTo expand (sweep expand fuel frontier seen) [] ∧
      (∀ a ∈ seen, a ∈ sweep expand fuel frontier seen) ∧
      ∀ x ∈ frontier, (expand x).isSome = true → x ∈ sweep expand fuel frontier seen := by
  induction fuel generalizing frontier seen with
  | zero => exact absurd hfuel (Nat.not_lt_zero _)
  | succ fuel ih =>
    cases frontier with
    | nil => exact ⟨hclosed, fun a ha => ha, fun x hx => absurd hx not_mem_nil⟩
    | cons x rest =>
      rw [length_cons] at hfuel
      unfold sweep
      split
      · rename_i hseen
        obtain ⟨hc, hs, hf⟩ := ih rest seen (by omega) (hclosed.pop_seen (.inl hseen))
        refine ⟨hc, hs, fun z hz hsome => ?_⟩
        rcases mem_cons.mp hz with rfl | hz
        · exact hs z hseen
        · exact hf z hz hsome
      · rename_i hseen
        split
        · rename_i hnone
          obtain ⟨hc, hs, hf⟩ := ih rest seen (by omega) (hclosed.pop_seen (.inr hnone))
          refine ⟨hc, hs, fun z hz hsome => ?_⟩
          rcases mem_cons.mp hz with rfl | hz
          · rw [hnone] at hsome
            exact absurd hsome Bool.false_ne_true
          · exact hf z hz hsome
        · rename_i ys hys
          have hmark := unseenPushes_mark expand nodes seen x ys hys (hnodes x (by rw [hys]; rfl)) hseen
          obtain ⟨hc, hs, hf⟩ := ih (ys.reverse ++ rest) (x :: seen)
            (by rw [length_append, length_reverse]; omega) (hclosed.mark hys)
          refine ⟨hc, fun a ha => hs a (mem_cons_of_mem x ha), fun z hz hsome => ?_⟩
          rcases mem_cons.mp hz with rfl | hz
          · exact hs z mem_cons_self
          · exact hf z (mem_append_right _ hz) hsome

theorem ClosedUpTo.reaches {seen : List α} (h : ClosedUpTo expand seen []) {x y : α}
    (hx : x ∈ seen) (hr : Relation.ReflTransGen (Edge expand) x y) : y ∈ seen := by
  induction hr with
  | refl => exact hx
  | tail _ hedge ih => exact (h _ ih _ hedge).resolve_right not_mem_nil

theorem mem_sweep_iff [DecidableEq α] (nodes : List α) (hnodes : ∀ x, (expand x).isSome = true → x ∈ nodes)
    (fuel : Nat) (frontier : List α) (hfuel : frontier.length + unseenPushes expand [] nodes < fuel) (y : α) :
    y ∈ sweep expand fuel frontier [] ↔ ∃ x ∈ frontier, Reaches expand x y := by
  constructor
  · intro hy
    exact (sweep_sound fuel frontier [] y hy).resolve_left not_mem_nil
  · rintro ⟨x, hx, hr⟩
    obtain ⟨hclosed, _, hfrontier⟩ := sweep_closed nodes hnodes fuel frontier [] hfuel
      (fun a ha => absurd ha not_mem_nil)
    exact hclosed.reaches (hfrontier x hx hr.1) hr.2

end Sweep

/-! ## What a search finds -/

section Search

variable {goal : α → Bool} {expand : α → Option (List α)}

def SearchStep (goal : α → Bool) (expand : α → Option (List α)) (a b : α) : Prop :=
  goal a = false ∧ ∃ ys, expand a = some ys ∧ b ∈ ys

def Finds (goal : α → Bool) (expand : α → Option (List α)) (x : α) : Prop :=
  ∃ y, Relation.ReflTransGen (SearchStep goal expand) x y ∧ goal y = true

theorem search_sound [DecidableEq α] (fuel : Nat) (frontier seen : List α)
    (h : search goal expand fuel frontier seen = true) : ∃ x ∈ frontier, Finds goal expand x := by
  induction fuel generalizing frontier seen with
  | zero => exact absurd h Bool.false_ne_true
  | succ fuel ih =>
    cases frontier with
    | nil => exact absurd h Bool.false_ne_true
    | cons x rest =>
      have later : (∃ z ∈ rest, Finds goal expand z) → ∃ z ∈ x :: rest, Finds goal expand z :=
        fun ⟨z, hz, hf⟩ => ⟨z, mem_cons_of_mem x hz, hf⟩
      unfold search at h
      split at h
      · rename_i hgoal
        exact ⟨x, mem_cons_self, x, Relation.ReflTransGen.refl, hgoal⟩
      · rename_i hgoal
        split at h
        · exact later (ih rest seen h)
        · split at h
          · exact later (ih rest seen h)
          · rename_i ys hys
            obtain ⟨z, hz, y, hreach, hy⟩ := ih _ _ h
            rcases mem_append.mp hz with hpush | hrest
            · have hstep : SearchStep goal expand x z :=
                ⟨by simpa using hgoal, ys, hys, mem_reverse.mp hpush⟩
              exact ⟨x, mem_cons_self, y, Relation.ReflTransGen.head hstep hreach, hy⟩
            · exact later ⟨z, hrest, y, hreach, hy⟩

end Search

end RalphWorkflow.Lib.Worklist
