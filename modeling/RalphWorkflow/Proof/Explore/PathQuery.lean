import RalphWorkflow.Explore.Graph
import RalphWorkflow.Lib.Walk
import Mathlib.Data.ENat.Lattice
import Mathlib.Data.Set.Card

/-! The paths of a query are the walks of allowed edges within its depth. The search marks a node when it queues it, so that it keeps
one walk to a node, the first one; of all the paths between the endpoints it returns that one. -/
namespace RalphWorkflow.Explore.Graph

open Lib List

/-! ## Paths of allowed edges -/

theorem pairwise_idxOf {α : Type} [DecidableEq α] {xs : List α} (h : xs.Nodup) : xs.Pairwise fun x y => xs.idxOf x < xs.idxOf y := by
  rw [pairwise_iff_getElem]
  intro i j hi hj hij
  rw [h.idxOf_getElem i hi, h.idxOf_getElem j hj]
  exact hij

theorem Tables.edges_nodup (tables : Tables) : tables.edges.Nodup := List.Nodup.of_map _ tables.edgeKeys

def allowed (tables : Tables) (relations : List String) : EdgeGraph String EdgeRow where
  out := iterOutgoing tables relations
  target := EdgeRow.targetId
  place e := tables.edges.idxOf e
  ordered _ := (pairwise_idxOf tables.edges_nodup).sublist filter_sublist

section Claim

variable (tables : Tables) (query : PathQuery)

def PathQuery.depthBound : Nat := bounded 6 query.depth

def PathQuery.maxPathsBound : Nat := bounded 10 query.maxPaths

def queryGraph : EdgeGraph String EdgeRow := allowed tables (relationsActual query.relations)

def IsPath (es : List EdgeRow) : Prop :=
  ∃ a b, resolveTarget tables query.target = some a ∧ resolveTarget tables query.targetB = some b ∧
    (queryGraph tables query).IsWalk a es b ∧ es.length ≤ query.depthBound

def pathNodes (es : List EdgeRow) : List String :=
  (resolveTarget tables query.target).toList ++ es.map EdgeRow.targetId

def simplePaths : Set (List EdgeRow) := {es | IsPath tables query es ∧ (pathNodes tables query es).Nodup}

def weakest (es : List EdgeRow) : ℚ := minConfidence (es.map EdgeRow.confidence)

def SoundResult (result : GraphResult) : Prop :=
  ∃ walks : List (List EdgeRow), (∀ es ∈ walks, IsPath tables query es) ∧
    result.paths = walks.map (pathNodes tables query) ∧ result.edges = walks.flatMap fun es => es.map rowToEdge

def IsBest (es : List EdgeRow) : Prop :=
  IsPath tables query es ∧ (∀ fs, IsPath tables query fs → es.length ≤ fs.length) ∧
    ∀ fs, IsPath tables query fs → fs.length = es.length → weakest fs ≤ weakest es

def FirstIsBest (result : GraphResult) : Prop :=
  (∃ es, IsPath tables query es) → ∃ es, IsBest tables query es ∧ result.paths.head? = some (pathNodes tables query es) ∧
    es.map rowToEdge <+: result.edges

def Counted (result : GraphResult) : Prop :=
  (result.paths.length : ℕ∞) = min (query.maxPathsBound : ℕ∞) (simplePaths tables query).encard

def ReturnsBestPaths : Prop :=
  let result := pathQuery tables query
  SoundResult tables query result ∧
    (result.truncated = false → FirstIsBest tables query result ∧ Counted tables query result)

def IsFirstPath (es : List EdgeRow) : Prop :=
  IsPath tables query es ∧ ∀ fs, IsPath tables query fs → (queryGraph tables query).rank es ≤ (queryGraph tables query).rank fs

def FirstIsStrongest : Prop :=
  ∀ es, IsFirstPath tables query es → ∀ fs, IsPath tables query fs → fs.length = es.length → weakest fs ≤ weakest es

def OneIsEnough : Prop := query.maxPathsBound = 1 ∨ (simplePaths tables query).encard ≤ 1

end Claim

/-! ## The search -/

def trailOf (a : String) (es : List EdgeRow) : Trail where
  current := (es.getLast?.map EdgeRow.targetId).getD a
  nodes := a :: es.map EdgeRow.targetId
  edges := es.map rowToEdge

theorem trailOf_snoc (a : String) (es : List EdgeRow) (e : EdgeRow) :
    (⟨e.targetId, (trailOf a es).nodes ++ [e.targetId], (trailOf a es).edges ++ [rowToEdge e]⟩ : Trail) = trailOf a (es ++ [e]) := by
  simp [trailOf]

section Search

variable {tables : Tables} {relations : List String} {a goal : String} {depth limit : Nat}

def searched (tables : Tables) (relations : List String) (goal : String) : EdgeGraph String EdgeRow :=
  (allowed tables relations).stopAt goal

theorem current_of_walk {x : String} {es : List EdgeRow} (h : (searched tables relations goal).IsWalk a es x) : (trailOf a es).current = x := by
  rcases eq_nil_or_concat es with rfl | ⟨es, e, rfl⟩
  · exact h
  · rw [concat_eq_append] at h ⊢
    obtain ⟨_, _, _, hx⟩ := (EdgeGraph.isWalk_snoc _ a x es e).mp h
    have hend : e.targetId = x := hx
    simpa [trailOf] using hend

theorem out_known {x : String} {e : EdgeRow} (h : e ∈ (searched tables relations goal).out x) :
    e.targetId ∈ a :: tables.edges.map EdgeRow.targetId := by
  have hmem : e ∈ tables.edges := by
    simp only [searched, EdgeGraph.stopAt] at h
    split at h
    · exact absurd h not_mem_nil
    · exact (mem_filter.mp h).1
  exact mem_cons_of_mem a (mem_map_of_mem hmem)

/-- Between two turns of the loop, or while a node is expanded with the walks `pending` to come. -/
structure Held (tables : Tables) (relations : List String) (a goal : String) (depth : Nat)
    (popped queue pending : List (List EdgeRow)) (s : Search) : Prop where
  explored : (searched tables relations goal).Explored a depth popped queue pending s.visited
  queue_eq : s.queue = queue.map (trailOf a)
  found_eq : s.found = (popped.filter fun es => (trailOf a es).current == goal).map (trailOf a)
  count : popped.length + queue.length = s.visited.length
  nodup : s.visited.Nodup
  known : ∀ x ∈ s.visited, x ∈ a :: tables.edges.map EdgeRow.targetId
  whole : s.truncated = false

theorem enqueue_held {popped : List (List EdgeRow)} {t : List EdgeRow} {y : String} (ht : (searched tables relations goal).IsWalk a t y) :
    ∀ (rest : List EdgeRow) (queue : List (List EdgeRow)) (s : Search),
      (∀ e ∈ rest, e ∈ (searched tables relations goal).out y) →
      Held tables relations a goal depth popped queue (rest.map (t ++ [·])) s →
      (enqueue limit (trailOf a t) rest s).visited.length < limit →
      ∃ queue', Held tables relations a goal depth popped queue' [] (enqueue limit (trailOf a t) rest s)
  | [], queue, s, _, h, _ => ⟨queue, h⟩
  | e :: rest, queue, s, hout, h, hbelow => by
    have he := hout e mem_cons_self
    have hrest : ∀ f ∈ rest, f ∈ (searched tables relations goal).out y := fun f hf => hout f (mem_cons_of_mem e hf)
    have hwalk : (searched tables relations goal).IsWalk a (t ++ [e]) e.targetId :=
      (EdgeGraph.isWalk_snoc ..).mpr ⟨y, ht, he, rfl⟩
    by_cases hseen : e.targetId ∈ s.visited
    · simp only [enqueue, if_pos hseen] at hbelow ⊢
      exact enqueue_held ht rest queue s hrest { h with explored := h.explored.skip hwalk hseen } hbelow
    · simp only [enqueue, if_neg hseen] at hbelow ⊢
      have hnext : Held tables relations a goal depth popped (queue ++ [t ++ [e]]) (rest.map (t ++ [·])) { s with
            visited := s.visited ++ [e.targetId]
            queue := s.queue ++
              [⟨e.targetId, (trailOf a t).nodes ++ [e.targetId], (trailOf a t).edges ++ [rowToEdge e]⟩] } := by
        refine ⟨h.explored.push hwalk hseen, ?_, h.found_eq, ?_, ?_, ?_, h.whole⟩
        · simp only [h.queue_eq, trailOf_snoc, map_append, map_cons, map_nil]
        · have hcount := h.count
          simp only [length_append, length_singleton]
          omega
        · refine nodup_append.mpr ⟨h.nodup, nodup_singleton _, fun x hx y hy hxy => hseen ?_⟩
          rw [← mem_singleton.mp hy, ← hxy]
          exact hx
        · intro x hx
          rcases mem_append.mp hx with hold | hnew
          · exact h.known x hold
          · rw [mem_singleton.mp hnew]
            exact out_known he
      split at hbelow
      · exact absurd hbelow (Nat.not_lt.mpr ‹_›)
      · rename_i hlimit
        rw [if_neg hlimit]
        exact enqueue_held ht rest _ _ hrest hnext hbelow

theorem enqueue_found (trail : Trail) (rest : List EdgeRow) (s : Search) : (enqueue limit trail rest s).found = s.found := by
  induction rest generalizing s with
  | nil => rfl
  | cons e rest ih =>
    simp only [enqueue]
    split
    · exact ih s
    · split
      · rfl
      · exact ih _

theorem Held.found {popped queue pending : List (List EdgeRow)} {s : Search} (h : Held tables relations a goal depth popped queue pending s) :
    ∀ trail ∈ s.found, ∃ es, (searched tables relations goal).IsFirst a es goal ∧ es.length ≤ depth ∧ trail = trailOf a es := by
  intro trail htrail
  rw [h.found_eq] at htrail
  obtain ⟨es, hes, rfl⟩ := mem_map.mp htrail
  obtain ⟨hpopped, hgoal⟩ := mem_filter.mp hes
  have hlist : es ∈ popped ++ queue := mem_append_left _ hpopped
  obtain ⟨x, hfirst⟩ := h.explored.first es hlist
  have hx : x = goal := (current_of_walk hfirst.1).symm.trans (by simpa using hgoal)
  exact ⟨es, hx ▸ hfirst, h.explored.short es (mem_append_left _ hlist), rfl⟩

theorem search_spec (maxPaths limit fuel : Nat) :
    ∀ (popped queue : List (List EdgeRow)) (s : Search), Held tables relations a goal depth popped queue [] s →
      tables.edges.length + 2 ≤ fuel + popped.length →
      let r := search (iterOutgoing tables relations) goal maxPaths depth limit fuel s
      (∀ trail ∈ r.found, ∃ es, (searched tables relations goal).IsFirst a es goal ∧ es.length ≤ depth ∧ trail = trailOf a es) ∧
        (r.truncated = false → ∃ popped queue, Held tables relations a goal depth popped queue [] r ∧
          (queue = [] ∨ maxPaths ≤ r.found.length)) := by
  induction fuel with
  | zero =>
    intro popped queue s h hfuel
    -- as many walks as nodes are marked, so that the fuel is never spent
    have hmarked : s.visited.length ≤ (a :: tables.edges.map EdgeRow.targetId).length :=
      (h.nodup.subperm h.known).length_le
    have hcount := h.count
    simp only [length_cons, length_map] at hmarked
    omega
  | succ fuel ih =>
    intro popped queue s h hfuel
    cases queue with
    | nil =>
      have hqueue : s.queue = [] := h.queue_eq
      simp only [search, hqueue]
      exact ⟨h.found, fun _ => ⟨popped, [], h, .inl rfl⟩⟩
    | cons t queue =>
      obtain ⟨y, hfirst⟩ := h.explored.first t (mem_append_right _ mem_cons_self)
      have hwalk := hfirst.1
      have hqueue : s.queue = trailOf a t :: queue.map (trailOf a) := h.queue_eq
      have hcurrent := current_of_walk hwalk
      have hpop := h.explored.pop hwalk
      have hcount : (popped ++ [t]).length + queue.length = s.visited.length := by
        rw [← h.count]
        simp only [length_append, length_cons, length_nil]
        omega
      have hspent : tables.edges.length + 2 ≤ fuel + (popped ++ [t]).length := by
        simp only [length_append, length_cons, length_nil]
        omega
      simp only [search, hqueue]
      split
      · rename_i henough
        exact ⟨h.found, fun _ => ⟨popped, t :: queue, h, .inr henough⟩⟩
      · split
        · -- the goal comes up; no edge leaves it
          rename_i hgoal
          have hy : y = goal := hcurrent.symm.trans hgoal
          refine ih (popped ++ [t]) queue _ ⟨?_, rfl, ?_, hcount, h.nodup, h.known, h.whole⟩ hspent
          · have hout : (searched tables relations goal).out y = [] := by simp [searched, EdgeGraph.stopAt, hy]
            rw [hout, map_nil, ite_self] at hpop
            exact hpop
          · simp [h.found_eq, filter_append, hgoal]
        · rename_i hgoal
          have hfound : s.found = ((popped ++ [t]).filter fun es => (trailOf a es).current == goal).map (trailOf a) := by
            simp [h.found_eq, filter_append, hgoal]
          have hnodes : (trailOf a t).nodes.length = t.length + 1 := by simp [trailOf]
          split
          · rename_i hdeep
            have hlt : ¬ t.length < depth := by omega
            rw [if_neg hlt] at hpop
            exact ih (popped ++ [t]) queue _ ⟨hpop, rfl, hfound, hcount, h.nodup, h.known, h.whole⟩ hspent
          · rename_i hdeep
            have hlt : t.length < depth := by omega
            rw [if_pos hlt] at hpop
            have hy : y ≠ goal := fun heq => hgoal (hcurrent.trans heq)
            have hout : (searched tables relations goal).out y = iterOutgoing tables relations y := by
              simp [searched, EdgeGraph.stopAt, hy, allowed]
            rw [hcurrent, ← hout]
            have hscan : Held tables relations a goal depth (popped ++ [t]) queue
                (((searched tables relations goal).out y).map (t ++ [·])) { s with queue := queue.map (trailOf a) } :=
              ⟨hpop, rfl, hfound, hcount, h.nodup, h.known, h.whole⟩
            split
            · refine ⟨?_, fun hwhole => by simp at hwhole⟩
              simp only [enqueue_found]
              exact h.found
            · rename_i hbelow
              obtain ⟨queue', hnext⟩ := enqueue_held hwalk _ queue _ (fun e he => he) hscan (Nat.lt_of_not_le hbelow)
              exact ih (popped ++ [t]) queue' _ hnext hspent

end Search

/-! ## The result -/

section Result

variable {tables : Tables} {query : PathQuery} {a b : String}

theorem pathSearch_spec (tables : Tables) (query : PathQuery) (a b : String) : (∀ trail ∈ (pathSearch tables query a b).found,
        ∃ es, (queryGraph tables query).IsFirst a es b ∧ es.length ≤ query.depthBound ∧ trail = trailOf a es) ∧
      ((pathSearch tables query a b).truncated = false →
        (∃ es, (queryGraph tables query).IsFirst a es b ∧ es.length ≤ query.depthBound ∧ (pathSearch tables query a b).found = [trailOf a es]) ∨
          (∀ es, (queryGraph tables query).IsWalk a es b → query.depthBound < es.length) ∧
            (pathSearch tables query a b).found = []) := by
  have hstart : Held tables (relationsActual query.relations) a b query.depthBound [] [[]] [] { queue := [⟨a, [a], []⟩], visited := [a] } :=
    ⟨.init a _, rfl, rfl, rfl, nodup_singleton a, fun x hx => mem_cons.mpr (.inl (mem_singleton.mp hx)), rfl⟩
  obtain ⟨hsound, hwhole⟩ := search_spec query.maxPathsBound (bounded 100 query.limit) (tables.edges.length + 2) [] [[]] _ hstart
    (Nat.le_refl _)
  have hfirst : ∀ trail ∈ (pathSearch tables query a b).found,
      ∃ es, (queryGraph tables query).IsFirst a es b ∧ es.length ≤ query.depthBound ∧ trail = trailOf a es := by
    intro trail htrail
    obtain ⟨es, hes, hle, heq⟩ := hsound trail htrail
    exact ⟨es, EdgeGraph.IsFirst.of_stopAt hes, hle, heq⟩
  refine ⟨hfirst, fun hfull => ?_⟩
  obtain ⟨popped, queue, hheld, hend⟩ := hwhole hfull
  -- the walks found are all the first one, and each is found once
  have hnodup : popped.Nodup := (pairwise_append.mp (pairwise_append.mp hheld.explored.sorted).1).1.imp
    fun hlt heq => absurd (heq ▸ hlt) (lt_irrefl _)
  have hfound := hheld.found_eq
  have hgoal : ∀ es ∈ popped.filter fun es => (trailOf a es).current == b,
      (searched tables (relationsActual query.relations) b).IsFirst a es b ∧ es.length ≤ query.depthBound := by
    intro es hes
    obtain ⟨hpopped, hend⟩ := mem_filter.mp hes
    have hlist : es ∈ popped ++ queue := mem_append_left _ hpopped
    obtain ⟨x, hx⟩ := hheld.explored.first es hlist
    have hxb : x = b := (current_of_walk hx.1).symm.trans (by simpa using hend)
    exact ⟨hxb ▸ hx, hheld.explored.short es (mem_append_left _ hlist)⟩
  have hdistinct : (popped.filter fun es => (trailOf a es).current == b).Nodup := hnodup.filter _
  cases hcase : popped.filter fun es => (trailOf a es).current == b with
  | nil =>
    rw [hcase] at hfound
    have hnone : (pathSearch tables query a b).found = [] := hfound
    have hqueue : queue = [] := by
      rcases hend with hempty | hmany
      · exact hempty
      · have hpos : 0 < query.maxPathsBound := bounded_pos 10 query.maxPaths
        rw [hfound, map_nil, length_nil] at hmany
        omega
    subst hqueue
    refine .inr ⟨fun es hes => Nat.lt_of_not_le fun hle => ?_, hnone⟩
    obtain ⟨pre, post, rfl, hpre⟩ := hes.stops
    have hshort : pre.length ≤ query.depthBound := by
      rw [length_append] at hle
      omega
    obtain ⟨fs, hfs, hfirst⟩ := hheld.explored.complete hpre hshort
    have hmem : fs ∈ popped.filter fun es => (trailOf a es).current == b :=
      mem_filter.mpr ⟨hfs, by simpa using current_of_walk hfirst.1⟩
    rw [hcase] at hmem
    exact not_mem_nil hmem
  | cons es rest =>
    rw [hcase] at hfound hgoal hdistinct
    have hes := hgoal es mem_cons_self
    have hrest : rest = [] := by
      refine eq_nil_iff_forall_not_mem.mpr fun fs hfs => ?_
      have heq := hes.1.unique (hgoal fs (mem_cons_of_mem es hfs)).1
      exact (nodup_cons.mp hdistinct).1 (heq ▸ hfs)
    subst hrest
    exact .inl ⟨es, EdgeGraph.IsFirst.of_stopAt hes.1, hes.2, hfound⟩

theorem isPath_iff (ha : resolveTarget tables query.target = some a) (hb : resolveTarget tables query.targetB = some b) (es : List EdgeRow) :
    IsPath tables query es ↔ (queryGraph tables query).IsWalk a es b ∧ es.length ≤ query.depthBound := by
  simp [IsPath, ha, hb]

theorem pathNodes_eq (ha : resolveTarget tables query.target = some a) (es : List EdgeRow) : pathNodes tables query es = (trailOf a es).nodes := by
  simp [pathNodes, ha, trailOf]

theorem pathQuery_shows (ha : resolveTarget tables query.target = some a) (hb : resolveTarget tables query.targetB = some b) :
    (pathQuery tables query).truncated = (pathSearch tables query a b).truncated ∧
      ∃ shown : List Trail, (pathQuery tables query).paths = shown.map Trail.nodes ∧
        (pathQuery tables query).edges = shown.flatMap Trail.edges ∧
        (∀ trail ∈ shown, trail ∈ (pathSearch tables query a b).found) ∧
        ((pathSearch tables query a b).found = [] → shown = []) ∧
        ∀ trail, (pathSearch tables query a b).found = [trail] → shown = [trail] := by
  simp only [pathQuery, ha, hb]
  split
  · rename_i hnone
    exact ⟨rfl, [], rfl, rfl, by simp, fun _ => rfl, fun trail hone => by simp [hnone] at hone⟩
  · rename_i hsome
    refine ⟨rfl, _, rfl, rfl, fun trail htrail => ?_, fun hnone => absurd hnone hsome, fun trail hone => ?_⟩
    · exact (mem_insertionSort _).mp (mem_of_mem_take htrail)
    · obtain ⟨n, hn⟩ := Nat.exists_eq_succ_of_ne_zero (bounded_pos 10 query.maxPaths).ne'
      rw [hone, insertionSort_cons, insertionSort_nil, orderedInsert_nil, hn, take_succ_cons, take_nil]

theorem exists_walks {p : List EdgeRow → Prop} (shown : List Trail) (h : ∀ trail ∈ shown, ∃ es, p es ∧ trail = trailOf a es) :
    ∃ walks : List (List EdgeRow), shown = walks.map (trailOf a) ∧ ∀ es ∈ walks, p es := by
  induction shown with
  | nil => exact ⟨[], rfl, by simp⟩
  | cons trail shown ih =>
    obtain ⟨es, hes, rfl⟩ := h trail mem_cons_self
    obtain ⟨walks, rfl, hwalks⟩ := ih fun trail htrail => h trail (mem_cons_of_mem _ htrail)
    exact ⟨es :: walks, rfl, forall_mem_cons.mpr ⟨hes, hwalks⟩⟩

theorem shown_sound (ha : resolveTarget tables query.target = some a) (hb : resolveTarget tables query.targetB = some b) :
    SoundResult tables query (pathQuery tables query) := by
  obtain ⟨-, shown, hpaths, hedges, hshown, -⟩ := pathQuery_shows ha hb
  obtain ⟨walks, rfl, hwalks⟩ := exists_walks (a := a) shown fun trail htrail => by
    obtain ⟨es, hes, hle, heq⟩ := (pathSearch_spec tables query a b).1 trail (hshown trail htrail)
    exact ⟨es, (isPath_iff ha hb es).mpr ⟨hes.1, hle⟩, heq⟩
  refine ⟨walks, hwalks, ?_, ?_⟩
  · rw [hpaths, map_map]
    exact map_congr_left fun es _ => (pathNodes_eq ha es).symm
  · rw [hedges, flatMap_map]
    rfl

theorem no_paths (ha : resolveTarget tables query.target = none ∨ resolveTarget tables query.targetB = none)
    (es : List EdgeRow) : ¬ IsPath tables query es := by
  rintro ⟨a, b, hresolved, hresolved', -⟩
  rcases ha with hnone | hnone
  · simp [hnone] at hresolved
  · simp [hnone] at hresolved'

theorem best_without_paths (h : ∀ es, ¬ IsPath tables query es) (result : GraphResult) (hpaths : result.paths = []) :
    (FirstIsBest tables query result ∧ Counted tables query result) ∧ FirstIsStrongest tables query ∧ OneIsEnough tables query := by
  have hempty : simplePaths tables query = ∅ := Set.eq_empty_of_forall_notMem fun es hes => h es hes.1
  refine ⟨⟨fun ⟨es, hes⟩ => absurd hes (h es), ?_⟩, fun es hes => absurd hes.1 (h es), .inr ?_⟩
  · simp [Counted, hpaths, hempty]
  · simp [hempty]

theorem pathQuery_unresolved (h : resolveTarget tables query.target = none ∨ resolveTarget tables query.targetB = none) :
    (pathQuery tables query).paths = [] ∧ (pathQuery tables query).edges = [] := by
  unfold pathQuery
  rcases h with hnone | hnone
  · simp [hnone]
  · rw [hnone]
    cases resolveTarget tables query.target <;> exact ⟨rfl, rfl⟩

theorem min_eq_one_iff {m : ℕ} {n : ℕ∞} (hm : 0 < m) (hn : n ≠ 0) : 1 = min (m : ℕ∞) n ↔ m = 1 ∨ n ≤ 1 := by
  have hone : 1 ≤ n := Order.one_le_iff_ne_zero.mpr hn
  have hm' : (1 : ℕ∞) ≤ m := by exact_mod_cast hm
  constructor
  · intro h
    rcases min_choice (m : ℕ∞) n with hmin | hmin
    · exact .inl (by exact_mod_cast (h.trans hmin).symm)
    · exact .inr (h.trans hmin).symm.le
  · rintro (rfl | hle)
    · exact (min_eq_left hone).symm
    · rw [le_antisymm hle hone]
      exact (min_eq_right hm').symm

theorem IsFirstPath.unique (ha : resolveTarget tables query.target = some a)
    (hb : resolveTarget tables query.targetB = some b) {es fs : List EdgeRow} (h : IsFirstPath tables query es)
    (h' : IsFirstPath tables query fs) : es = fs :=
  ((isPath_iff ha hb es).mp h.1).1.eq_of_rank_eq ((isPath_iff ha hb fs).mp h'.1).1 (le_antisymm (h.2 fs h'.1) (h'.2 es h.1))

theorem best_of_first (ha : resolveTarget tables query.target = some a) (hb : resolveTarget tables query.targetB = some b)
    {es : List EdgeRow} (hes : (queryGraph tables query).IsFirst a es b) (hle : es.length ≤ query.depthBound)
    (result : GraphResult) (hpaths : result.paths = [pathNodes tables query es])
    (hedges : result.edges = es.map rowToEdge) :
    FirstIsBest tables query result ∧ Counted tables query result ↔ FirstIsStrongest tables query ∧ OneIsEnough tables query := by
  have hpath : IsPath tables query es := (isPath_iff ha hb es).mpr ⟨hes.1, hle⟩
  have hfirst : IsFirstPath tables query es := ⟨hpath, fun fs hfs => hes.2 fs ((isPath_iff ha hb fs).mp hfs).1⟩
  have hshortest : ∀ fs, IsPath tables query fs → es.length ≤ fs.length := fun fs hfs =>
    EdgeGraph.length_le_of_rank_le (hfirst.2 fs hfs)
  have hbest : FirstIsBest tables query result ↔ FirstIsStrongest tables query := by
    constructor
    · intro h fs hfs
      obtain ⟨es', hbest, hhead, hprefix⟩ := h ⟨es, hpath⟩
      have hlength : es'.length = es.length := by
        rw [hpaths, List.head?_cons, Option.some.injEq] at hhead
        simpa [pathNodes] using (congrArg List.length hhead).symm
      have hsame : es' = es := by
        rw [hedges] at hprefix
        exact map_injective_iff.mpr rowToEdge_injective ( hprefix.eq_of_length (by simpa using hlength))
      rw [hfs.unique ha hb hfirst, ← hsame]
      exact hbest.2.2
    · intro h _
      refine ⟨es, ⟨hpath, hshortest, h es hfirst⟩, by rw [hpaths, List.head?_cons], ?_⟩
      rw [hedges]
  have hsimple : es ∈ simplePaths tables query := by
    refine ⟨hpath, ?_⟩
    rw [pathNodes_eq ha]
    exact hes.isShortest.nodup
  have hsome : (simplePaths tables query).encard ≠ 0 := Set.encard_ne_zero.mpr ⟨es, hsimple⟩
  have hcounted : Counted tables query result ↔ OneIsEnough tables query := by
    simp only [Counted, hpaths, length_singleton, Nat.cast_one]
    exact min_eq_one_iff (bounded_pos 10 query.maxPaths) hsome
  rw [hbest, hcounted]

/-- The paths of an uncut result are the best exactly when no shortest path is stronger than the first, or only one is asked for or there. -/
theorem returns_best_paths_iff (tables : Tables) (query : PathQuery) : ReturnsBestPaths tables query ↔
      ((pathQuery tables query).truncated = false → FirstIsStrongest tables query ∧ OneIsEnough tables query) := by
  by_cases hresolved : resolveTarget tables query.target = none ∨ resolveTarget tables query.targetB = none
  · obtain ⟨hpaths, hedges⟩ := pathQuery_unresolved hresolved
    obtain ⟨hbest, hcondition⟩ := best_without_paths (no_paths hresolved) _ hpaths
    exact ⟨fun _ _ => hcondition, fun _ => ⟨⟨[], by simp, hpaths, hedges⟩, fun _ => hbest⟩⟩
  · obtain ⟨a, ha⟩ := Option.ne_none_iff_exists'.mp fun hnone => hresolved (.inl hnone)
    obtain ⟨b, hb⟩ := Option.ne_none_iff_exists'.mp fun hnone => hresolved (.inr hnone)
    obtain ⟨htruncated, shown, hpaths, hedges, -, hshown_nil, hshown_one⟩ := pathQuery_shows ha hb
    have hsound := shown_sound ha hb
    simp only [ReturnsBestPaths, hsound, true_and]
    refine forall_congr' fun hwhole => ?_
    rcases (pathSearch_spec tables query a b).2 (htruncated ▸ hwhole) with ⟨es, hfirst, hle, hfound⟩ | ⟨hlong, hfound⟩
    · rw [hshown_one _ hfound] at hpaths hedges
      refine best_of_first ha hb hfirst hle _ ?_ ?_
      · rw [hpaths, map_singleton, pathNodes_eq ha]
      · rw [hedges, flatMap_singleton]
        rfl
    · rw [hshown_nil hfound] at hpaths
      have hnone : ∀ es, ¬ IsPath tables query es := fun es hes => by
        obtain ⟨hwalk, hle⟩ := (isPath_iff ha hb es).mp hes
        exact absurd hle (Nat.not_le.mpr (hlong es hwalk))
      obtain ⟨hbest, hcondition⟩ := best_without_paths hnone _ hpaths
      exact ⟨fun _ => hcondition, fun _ => hbest⟩

/-! ## Two ways round -/

def diamond : Tables where
  symbols := ["a", "b", "c", "d"].map fun name => ⟨name, "m." ++ name, "function", "m.py", "s", "python_ast", 1⟩
  edges := [⟨"e1", "a", "b", "calls_syntax", "m.py", "extracted", 1 / 2, none⟩,
    ⟨"e2", "a", "c", "calls_syntax", "m.py", "extracted", 1, none⟩,
    ⟨"e3", "b", "d", "calls_syntax", "m.py", "extracted", 1 / 2, none⟩,
    ⟨"e4", "c", "d", "calls_syntax", "m.py", "extracted", 1, none⟩]
  symbolKeys := by decide
  edgeKeys := by decide

def acrossDiamond : PathQuery := { target := "m.a", targetB := "m.d" }

/-- Three paths are asked for and two lead across; one is returned. -/
theorem one_of_two_paths : ¬ ReturnsBestPaths diamond acrossDiamond := by
  intro h
  have hwhole : (pathQuery diamond acrossDiamond).truncated = false := by decide +kernel
  have hpaths : (pathQuery diamond acrossDiamond).paths = [["a", "b", "d"]] := by decide +kernel
  have hstrong : IsPath diamond acrossDiamond
      [⟨"e2", "a", "c", "calls_syntax", "m.py", "extracted", 1, none⟩, ⟨"e4", "c", "d", "calls_syntax", "m.py", "extracted", 1, none⟩] :=
    ⟨"a", "d", by decide +kernel, by decide +kernel, ⟨by decide +kernel, by decide +kernel, rfl⟩, by decide +kernel⟩
  have hweak : IsPath diamond acrossDiamond
      [⟨"e1", "a", "b", "calls_syntax", "m.py", "extracted", 1 / 2, none⟩, ⟨"e3", "b", "d", "calls_syntax", "m.py", "extracted", 1 / 2, none⟩] :=
    ⟨"a", "d", by decide +kernel, by decide +kernel, ⟨by decide +kernel, by decide +kernel, rfl⟩, by decide +kernel⟩
  have hcounted := (h.2 hwhole).2
  rw [Counted, hpaths] at hcounted
  have htwo : 1 < (simplePaths diamond acrossDiamond).encard :=
    Set.one_lt_encard_iff.mpr ⟨_, _, ⟨hstrong, by decide +kernel⟩, ⟨hweak, by decide +kernel⟩, by decide +kernel⟩
  have hasked : (1 : ℕ∞) < (acrossDiamond.maxPathsBound : ℕ∞) := by decide +kernel
  have hmin := lt_min hasked htwo
  rw [← hcounted] at hmin
  exact absurd hmin (lt_irrefl _)

end Result

end RalphWorkflow.Explore.Graph
