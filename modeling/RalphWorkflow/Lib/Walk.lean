import RalphWorkflow.Lib.Text
import Mathlib.Data.List.Induction
import Mathlib.Data.List.Nodup
import Mathlib.Data.List.Pairwise
import Mathlib.Data.Prod.Lex
import Mathlib.Order.WellFounded

/-! A walk is a list of edges, and walks are ranked by their length and then by the places of their edges. A breadth-first search that marks a node
when it queues it keeps for each marked node the first walk to it; `Explored` is what holds between two of its steps. -/
namespace RalphWorkflow.Lib
open List

structure EdgeGraph (ν ε : Type) where
  out : ν → List ε
  target : ε → ν
  place : ε → ℕ
  ordered : ∀ x, (out x).Pairwise fun e f => place e < place f

namespace EdgeGraph

variable {ν ε : Type} (g : EdgeGraph ν ε)

def IsWalk : ν → List ε → ν → Prop
  | x, [], y => x = y
  | x, e :: es, y => e ∈ g.out x ∧ IsWalk (g.target e) es y

def nodes (x : ν) (es : List ε) : List ν := x :: es.map g.target

theorem isWalk_append (x z : ν) (es fs : List ε) : g.IsWalk x (es ++ fs) z ↔ ∃ y, g.IsWalk x es y ∧ g.IsWalk y fs z := by
  induction es generalizing x with
  | nil => simp [IsWalk]
  | cons e es ih => simp [IsWalk, ih, and_assoc]

theorem isWalk_snoc (x z : ν) (es : List ε) (e : ε) : g.IsWalk x (es ++ [e]) z ↔ ∃ y, g.IsWalk x es y ∧ e ∈ g.out y ∧ g.target e = z := by
  rw [isWalk_append]
  rfl

variable {g}

theorem IsWalk.end_unique {x y z : ν} {es : List ε} (h : g.IsWalk x es y) (h' : g.IsWalk x es z) : y = z := by
  induction es generalizing x with
  | nil => exact h.symm.trans h'
  | cons e es ih => exact ih h.2 h'.2

/-! ## Shortest walks -/

variable (g) in
def IsShortest (x : ν) (es : List ε) (y : ν) : Prop :=
  g.IsWalk x es y ∧ ∀ fs, g.IsWalk x fs y → es.length ≤ fs.length

theorem IsWalk.from_node {x y z : ν} {es : List ε} (h : g.IsWalk x es y) (hz : z ∈ g.nodes x es) :
    ∃ fs, g.IsWalk z fs y ∧ fs.length ≤ es.length := by
  induction es generalizing x with
  | nil =>
    have hzx : z = x := mem_singleton.mp hz
    exact ⟨[], hzx.trans h, Nat.le_refl _⟩
  | cons e es ih =>
    rcases mem_cons.mp hz with rfl | hz
    · exact ⟨e :: es, h, Nat.le_refl _⟩
    · obtain ⟨fs, hwalk, hle⟩ := ih h.2 hz
      exact ⟨fs, hwalk, Nat.le_succ_of_le hle⟩

theorem IsShortest.nodup {x y : ν} {es : List ε} (h : g.IsShortest x es y) : (g.nodes x es).Nodup := by
  induction es generalizing x with
  | nil => exact nodup_singleton x
  | cons e es ih =>
    obtain ⟨⟨hout, hwalk⟩, hleast⟩ := h
    have htail : g.IsShortest (g.target e) es y :=
      ⟨hwalk, fun fs hfs => Nat.le_of_succ_le_succ (hleast (e :: fs) ⟨hout, hfs⟩)⟩
    refine nodup_cons.mpr ⟨fun hmem => ?_, ih htail⟩
    -- a return to `x` could be cut off
    obtain ⟨fs, hfs, hle⟩ := hwalk.from_node hmem
    have hshort := hleast fs hfs
    simp only [length_cons] at hshort
    omega

/-! ## The rank of a walk -/

variable (g) in
/-- Walks are compared by length, then by the places of their edges. -/
def rank (es : List ε) : ℕ ×ₗ List ℕ := toLex (es.length, es.map g.place)

theorem rank_lt_of_length {es fs : List ε} (h : es.length < fs.length) : g.rank es < g.rank fs :=
  Prod.Lex.toLex_lt_toLex.mpr (.inl h)

theorem length_le_of_rank_le {es fs : List ε} (h : g.rank es ≤ g.rank fs) : es.length ≤ fs.length :=
  Nat.le_of_not_lt fun hlt => absurd (rank_lt_of_length hlt) (not_lt.mpr h)

theorem rank_lt_iff {es fs : List ε} (h : es.length = fs.length) : g.rank es < g.rank fs ↔ es.map g.place < fs.map g.place := by
  simp [rank, Prod.Lex.toLex_lt_toLex, h]

theorem rank_snoc_lt {es fs : List ε} (h : g.rank es < g.rank fs) (e f : ε) : g.rank (es ++ [e]) < g.rank (fs ++ [f]) := by
  have hle := length_le_of_rank_le h.le
  rcases Nat.lt_or_eq_of_le hle with hlt | heq
  · exact rank_lt_of_length (by simpa using hlt)
  · rw [rank_lt_iff (by simpa using heq), map_append, map_append]
    exact Text.lt_append_of_lt ((rank_lt_iff heq).mp h) (by simpa using heq) _ _

theorem rank_snoc_place (es : List ε) {e f : ε} (h : g.place e < g.place f) : g.rank (es ++ [e]) < g.rank (es ++ [f]) := by
  rw [rank_lt_iff (by simp), map_append, map_append]
  exact append_left_lt (cons_lt_cons_iff.mpr (.inl h))

theorem rank_le_append (es fs : List ε) : g.rank es ≤ g.rank (es ++ fs) := by
  cases fs with
  | nil => rw [append_nil]
  | cons f fs => exact (rank_lt_of_length (by simp)).le

theorem IsWalk.eq_of_rank_eq {x y z : ν} {es fs : List ε} (h : g.IsWalk x es y) (h' : g.IsWalk x fs z)
    (hrank : g.rank es = g.rank fs) : es = fs := by
  have hplaces : es.map g.place = fs.map g.place := (Prod.mk.inj (toLex.injective hrank)).2
  induction es generalizing x fs with
  | nil => simpa using hplaces.symm
  | cons e es ih =>
    cases fs with
    | nil => simp at hplaces
    | cons f fs =>
      obtain ⟨hplace, hrest⟩ := List.cons.inj hplaces
      have hef : e = f := by
        by_contra hne
        have hsymm : Std.Symm fun e f => g.place e ≠ g.place f := ⟨fun _ _ h => h.symm⟩
        have hdistinct : (g.out x).Pairwise fun e f => g.place e ≠ g.place f :=
          (g.ordered x).imp fun hlt => Nat.ne_of_lt hlt
        exact hdistinct.forall h.1 h'.1 hne hplace
      subst hef
      have htail : g.rank es = g.rank fs := by
        have hlen : es.length = fs.length := by simpa using congrArg List.length hrest
        simp only [rank, hlen, hrest]
      rw [ih h.2 h'.2 htail hrest]

variable (g) in
def IsFirst (x : ν) (es : List ε) (y : ν) : Prop :=
  g.IsWalk x es y ∧ ∀ fs, g.IsWalk x fs y → g.rank es ≤ g.rank fs

theorem IsFirst.isShortest {x y : ν} {es : List ε} (h : g.IsFirst x es y) : g.IsShortest x es y :=
  ⟨h.1, fun fs hfs => length_le_of_rank_le (h.2 fs hfs)⟩

theorem IsFirst.unique {x y : ν} {es fs : List ε} (h : g.IsFirst x es y) (h' : g.IsFirst x fs y) : es = fs :=
  h.1.eq_of_rank_eq h'.1 (le_antisymm (h.2 fs h'.1) (h'.2 es h.1))

/-! ## A search that does not go on from its goal -/

section StopAt

variable [DecidableEq ν]

variable (g) in
def stopAt (goal : ν) : EdgeGraph ν ε where
  out x := if x = goal then [] else g.out x
  target := g.target
  place := g.place
  ordered x := by
    split
    · exact List.Pairwise.nil
    · exact g.ordered x

theorem IsWalk.of_stopAt {goal x y : ν} {es : List ε} (h : (g.stopAt goal).IsWalk x es y) : g.IsWalk x es y := by
  induction es generalizing x with
  | nil => exact h
  | cons e es ih =>
    obtain ⟨hout, hrest⟩ := h
    refine ⟨?_, ih hrest⟩
    simp only [stopAt] at hout
    split at hout
    · exact absurd hout not_mem_nil
    · exact hout

theorem IsWalk.stops {goal x : ν} {es : List ε} (h : g.IsWalk x es goal) : ∃ pre post, es = pre ++ post ∧ (g.stopAt goal).IsWalk x pre goal := by
  induction es generalizing x with
  | nil => exact ⟨[], [], rfl, h⟩
  | cons e es ih =>
    by_cases hx : x = goal
    · exact ⟨[], e :: es, rfl, hx⟩
    · obtain ⟨pre, post, rfl, hpre⟩ := ih h.2
      refine ⟨e :: pre, post, rfl, ?_, hpre⟩
      simp only [stopAt, if_neg hx]
      exact h.1

theorem IsFirst.of_stopAt {goal x : ν} {es : List ε} (h : (g.stopAt goal).IsFirst x es goal) : g.IsFirst x es goal := by
  refine ⟨h.1.of_stopAt, fun fs hfs => ?_⟩
  obtain ⟨pre, post, rfl, hpre⟩ := hfs.stops
  exact (h.2 pre hpre).trans (rank_le_append pre post)

end StopAt

/-! ## Breadth-first search -/

variable (g) in
/-- A search from `a` between two steps: the walks popped, queued, and of the node at hand. -/
structure Explored (a : ν) (depth : ℕ) (popped queue pending : List (List ε)) (seen : List ν) : Prop where
  sorted : (popped ++ queue ++ pending).Pairwise fun es fs => g.rank es < g.rank fs
  start : [] ∈ popped ++ queue
  first : ∀ es ∈ popped ++ queue, ∃ x, g.IsFirst a es x
  seen_iff : ∀ x, x ∈ seen ↔ ∃ es ∈ popped ++ queue, g.IsWalk a es x
  walks : ∀ es ∈ pending, ∃ x, g.IsWalk a es x
  parent : ∀ es e, es ++ [e] ∈ popped ++ queue ++ pending → es ∈ popped
  short : ∀ es ∈ popped ++ queue ++ pending, es.length ≤ depth
  closed : ∀ es ∈ popped, es.length < depth → ∀ x, g.IsWalk a es x → ∀ e ∈ g.out x, g.target e ∈ seen ∨ es ++ [e] ∈ pending

namespace Explored

variable {a : ν} {depth : ℕ} {popped queue pending : List (List ε)} {seen : List ν}

theorem init (a : ν) (depth : ℕ) : g.Explored a depth [] [[]] [] [a] where
  sorted := pairwise_singleton _ _
  start := mem_singleton_self _
  first := by
    intro es hes
    rw [mem_singleton.mp hes]
    exact ⟨a, rfl, fun fs _ => rank_le_append [] fs⟩
  seen_iff := by simp [IsWalk, eq_comm]
  walks := by simp
  parent := by simp
  short := by simp
  closed := by simp

theorem frontier (h : g.Explored a depth popped queue pending seen) {x : ν} {walk : List ε} (hwalk : g.IsWalk a walk x) (hx : x ∉ seen) :
    ∃ pre f post, walk = pre ++ f :: post ∧ ∃ es ∈ popped ++ queue, g.rank es ≤ g.rank pre ∧
      (es ∈ queue ∨ depth ≤ es.length ∨ es ++ [f] ∈ pending) := by
  induction walk using List.reverseRecOn generalizing x with
  | nil => exact absurd ((h.seen_iff x).mpr ⟨[], h.start, hwalk⟩) hx
  | append_singleton walk f ih =>
    obtain ⟨y, hy, hout, rfl⟩ := (g.isWalk_snoc a x walk f).mp hwalk
    by_cases hseen : y ∈ seen
    · refine ⟨walk, f, [], rfl, ?_⟩
      obtain ⟨es, hes, hesy⟩ := (h.seen_iff y).mp hseen
      obtain ⟨y', hfirst⟩ := h.first es hes
      obtain rfl := hfirst.1.end_unique hesy
      refine ⟨es, hes, hfirst.2 walk hy, ?_⟩
      rcases mem_append.mp hes with hpopped | hqueue
      · rcases Nat.lt_or_ge es.length depth with hlt | hge
        · exact .inr (.inr ((h.closed es hpopped hlt _ hesy f hout).resolve_left hx))
        · exact .inr (.inl hge)
      · exact .inl hqueue
    · obtain ⟨pre, e, post, rfl, hrest⟩ := ih hy hseen
      exact ⟨pre, e, post ++ [f], by simp, hrest⟩

theorem complete (h : g.Explored a depth popped [] [] seen) {x : ν} {walk : List ε} (hwalk : g.IsWalk a walk x)
    (hle : walk.length ≤ depth) : ∃ es ∈ popped, g.IsFirst a es x := by
  have hseen : x ∈ seen := by
    by_contra hx
    obtain ⟨pre, f, post, rfl, es, -, hrank, hqueue | hdeep | hpending⟩ := h.frontier hwalk hx
    · exact not_mem_nil hqueue
    · have hpre := length_le_of_rank_le hrank
      simp only [length_append, length_cons] at hle
      omega
    · exact not_mem_nil hpending
  obtain ⟨es, hes, hesx⟩ := (h.seen_iff x).mp hseen
  obtain ⟨x', hfirst⟩ := h.first es hes
  obtain rfl := hfirst.1.end_unique hesx
  exact ⟨es, by simpa using hes, hfirst⟩

theorem pop {t : List ε} {x : ν} (h : g.Explored a depth popped (t :: queue) [] seen) (hwalk : g.IsWalk a t x) :
    g.Explored a depth (popped ++ [t]) queue (if t.length < depth then (g.out x).map (t ++ [·]) else []) seen := by
  have hpending : ∀ es, es ∈ (if t.length < depth then (g.out x).map (t ++ [·]) else []) → t.length < depth ∧ ∃ e ∈ g.out x, t ++ [e] = es := by
    intro es hes
    split at hes
    · exact ⟨‹_›, mem_map.mp hes⟩
    · exact absurd hes not_mem_nil
  have hlist : popped ++ [t] ++ queue = popped ++ t :: queue := append_cons .. |>.symm
  have hold : (popped ++ t :: queue).Pairwise fun es fs => g.rank es < g.rank fs := by simpa using h.sorted
  have hbefore : ∀ es ∈ popped, g.rank es < g.rank t := fun es hes =>
    (pairwise_append.mp hold).2.2 es hes t mem_cons_self
  refine ⟨?_, by rw [hlist]; exact h.start, by rw [hlist]; exact h.first, by rw [hlist]; exact h.seen_iff, ?_, ?_, ?_, ?_⟩
  · rw [hlist, pairwise_append]
    refine ⟨hold, ?_, ?_⟩
    · split
      · exact pairwise_map.mpr ((g.ordered x).imp fun hplace => rank_snoc_place t hplace)
      · exact List.Pairwise.nil
    · intro es hes fs hfs
      obtain ⟨-, e, -, rfl⟩ := hpending fs hfs
      rcases eq_nil_or_concat es with rfl | ⟨es, f, rfl⟩
      · exact rank_lt_of_length (by simp)
      · rw [concat_eq_append] at hes ⊢
        have hparent := h.parent es f (by simpa using hes)
        exact rank_snoc_lt (hbefore es hparent) f e
  · intro es hes
    obtain ⟨-, e, he, rfl⟩ := hpending es hes
    exact ⟨_, (g.isWalk_snoc ..).mpr ⟨x, hwalk, he, rfl⟩⟩
  · intro es e hes
    rw [hlist] at hes
    rcases mem_append.mp hes with hes | hes
    · exact mem_append_left _ (h.parent es e (by simpa using hes))
    · obtain ⟨-, f, -, heq⟩ := hpending _ hes
      rw [← (append_inj' heq rfl).1]
      exact mem_append_right _ (mem_singleton_self t)
  · intro es hes
    rw [hlist] at hes
    rcases mem_append.mp hes with hes | hes
    · exact h.short es (by simpa using hes)
    · obtain ⟨hlt, e, -, rfl⟩ := hpending es hes
      rw [length_append]
      exact hlt
  · intro es hes hlt y hy e he
    rcases mem_append.mp hes with hes | hes
    · exact .inl ((h.closed es hes hlt y hy e he).resolve_right not_mem_nil)
    · obtain rfl := mem_singleton.mp hes
      obtain rfl := hwalk.end_unique hy
      rw [if_pos hlt]
      exact .inr (mem_map.mpr ⟨e, he, rfl⟩)

theorem skip {w : List ε} {x : ν} (h : g.Explored a depth popped queue (w :: pending) seen) (hwalk : g.IsWalk a w x)
    (hx : x ∈ seen) : g.Explored a depth popped queue pending seen where
  sorted := h.sorted.sublist (List.Sublist.append_left (sublist_cons_self w pending) _)
  start := h.start
  first := h.first
  seen_iff := h.seen_iff
  walks := fun es hes => h.walks es (mem_cons_of_mem w hes)
  parent := fun es e hes => h.parent es e (List.Sublist.mem hes (List.Sublist.append_left (sublist_cons_self w pending) _))
  short := fun es hes => h.short es (List.Sublist.mem hes (List.Sublist.append_left (sublist_cons_self w pending) _))
  closed := by
    intro es hes hlt y hy e he
    rcases h.closed es hes hlt y hy e he with hseen | hpending
    · exact .inl hseen
    · rcases mem_cons.mp hpending with heq | htail
      · have hend : g.IsWalk a w (g.target e) := heq ▸ (g.isWalk_snoc ..).mpr ⟨y, hy, he, rfl⟩
        rw [hend.end_unique hwalk]
        exact .inl hx
      · exact .inr htail

theorem isFirst_of_not_seen {w : List ε} {x : ν} (h : g.Explored a depth popped queue (w :: pending) seen)
    (hwalk : g.IsWalk a w x) (hx : x ∉ seen) : g.IsFirst a w x := by
  refine ⟨hwalk, fun walk hother => ?_⟩
  have hsorted := pairwise_append.mp h.sorted
  have hw : w ∈ popped ++ queue ++ w :: pending := mem_append_right _ mem_cons_self
  obtain ⟨pre, f, post, rfl, es, hes, hrank, hcases⟩ := h.frontier hother hx
  have hext : g.rank (pre ++ [f]) ≤ g.rank (pre ++ f :: post) := by
    rw [append_cons pre f post]
    exact rank_le_append _ _
  have hsnoc : g.rank (es ++ [f]) ≤ g.rank (pre ++ [f]) := by
    rcases lt_or_eq_of_le hrank with hlt | heq
    · exact (rank_snoc_lt hlt f f).le
    · obtain ⟨y, hfirst⟩ := h.first es hes
      obtain ⟨z, hpre, -⟩ := (g.isWalk_append a x pre (f :: post)).mp hother
      rw [hfirst.1.eq_of_rank_eq hpre heq]
  rcases hcases with hqueue | hdeep | hpending
  · -- the walk leaves from a node still in the queue, which comes after the one being expanded
    rcases eq_nil_or_concat w with rfl | ⟨t, e, rfl⟩
    · exact absurd ((h.seen_iff x).mpr ⟨[], h.start, hwalk⟩) hx
    · rw [concat_eq_append] at hw ⊢
      have ht := h.parent t e (by simp)
      have hlt : g.rank t < g.rank es := (pairwise_append.mp hsorted.1).2.2 t ht es hqueue
      exact ((rank_snoc_lt hlt e f).le.trans hsnoc).trans hext
  · have hshort := h.short w hw
    have hpre := length_le_of_rank_le hrank
    exact (rank_lt_of_length (by simp only [length_append, length_cons]; omega)).le
  · refine le_trans ?_ (hsnoc.trans hext)
    rcases mem_cons.mp hpending with heq | htail
    · rw [heq]
    · exact ((pairwise_cons.mp hsorted.2.1).1 _ htail).le

theorem push {w : List ε} {x : ν} (h : g.Explored a depth popped queue (w :: pending) seen) (hwalk : g.IsWalk a w x)
    (hx : x ∉ seen) : g.Explored a depth popped (queue ++ [w]) pending (seen ++ [x]) := by
  have hlist : popped ++ (queue ++ [w]) ++ pending = popped ++ queue ++ w :: pending := by simp
  have hfirst := h.isFirst_of_not_seen hwalk hx
  refine ⟨by rw [hlist]; exact h.sorted, ?_, ?_, ?_, ?_, by rw [hlist]; exact h.parent, by rw [hlist]; exact h.short, ?_⟩
  · rw [← append_assoc]
    exact mem_append_left _ h.start
  · intro es hes
    rw [← append_assoc] at hes
    rcases mem_append.mp hes with hes | hes
    · exact h.first es hes
    · rw [mem_singleton.mp hes]
      exact ⟨x, hfirst⟩
  · intro y
    rw [← append_assoc, mem_append, h.seen_iff y, mem_singleton]
    constructor
    · rintro (⟨es, hes, hy⟩ | rfl)
      · exact ⟨es, mem_append_left _ hes, hy⟩
      · exact ⟨w, mem_append_right _ (mem_singleton_self w), hwalk⟩
    · rintro ⟨es, hes, hy⟩
      rcases mem_append.mp hes with hes | hes
      · exact .inl ⟨es, hes, hy⟩
      · rw [mem_singleton.mp hes] at hy
        exact .inr (hy.end_unique hwalk)
  · exact fun es hes => h.walks es (mem_cons_of_mem w hes)
  · intro es hes hlt y hy e he
    rcases h.closed es hes hlt y hy e he with hseen | hpending
    · exact .inl (mem_append_left _ hseen)
    · rcases mem_cons.mp hpending with heq | htail
      · have hend : g.IsWalk a w (g.target e) := heq ▸ (g.isWalk_snoc ..).mpr ⟨y, hy, he, rfl⟩
        rw [hend.end_unique hwalk]
        exact .inl (mem_append_right _ (mem_singleton_self x))
      · exact .inr htail

end Explored

end EdgeGraph

end RalphWorkflow.Lib
