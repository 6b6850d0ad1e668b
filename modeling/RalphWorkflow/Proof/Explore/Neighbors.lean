import RalphWorkflow.Explore.Graph
import Mathlib.Data.Set.Card

/-! The walk of a query goes in layers. It keeps an edge each time it follows it, from either end, and records a node only when a
symbol row has its id, so that its result is exact where no edge has both ends expanded and every node reached is a symbol. -/
namespace RalphWorkflow.Explore.Graph

open Lib List

/-! ## The neighbourhood -/

section Claim

variable (tables : Tables) (query : NeighborsQuery) (root : String)

def NeighborsQuery.depthBound : Nat := bounded 3 query.depth

def NeighborsQuery.limitBound : Nat := bounded 100 query.limit

def adjacent (x : String) : List (EdgeRow × String) :=
  (if followsOut query.direction then
      (iterOutgoing tables (relationsActual query.relations) x).map fun edge => (edge, edge.targetId) else []) ++
    if followsIn query.direction then
      (iterIncoming tables (relationsActual query.relations) x).map fun edge => (edge, edge.sourceId) else []

def Within : Nat → String → Prop
  | 0, x => x = root
  | k + 1, x => Within k x ∨ ∃ y, Within k y ∧ ∃ edge, (edge, x) ∈ adjacent tables query y

def reached : Set String := {x | Within tables query root query.depthBound x}

def traversed : Set EdgeRow :=
  {edge | ∃ x, Within tables query root (query.depthBound - 1) x ∧ ∃ y, (edge, y) ∈ adjacent tables query x}

def IsSymbol (x : String) : Prop := ∃ row ∈ tables.symbols, row.symbolId = x

def symbolsMet : Set String :=
  {y | IsSymbol tables y ∧ ∃ x, Within tables query root (query.depthBound - 1) x ∧ ∃ edge, (edge, y) ∈ adjacent tables query x}

def Shown (result : GraphResult) (x : String) : Prop := ∃ node ∈ result.nodes, node.id = x

structure ReturnsNeighbours (result : GraphResult) : Prop where
  walked : ∀ edge ∈ result.edges, ∃ row ∈ traversed tables query root, edge = rowToEdge row
  once : result.edges.Nodup
  ends : result.truncated = false → ∀ edge ∈ result.edges, ∀ x, x = edge.source ∨ x = edge.target → x ≠ root → Shown result x
  exact_below : (reached tables query root).encard < query.limitBound → (traversed tables query root).encard < query.limitBound →
    (∀ x, x ≠ root → (Shown result x ↔ x ∈ reached tables query root)) ∧ result.truncated = false
  nodes_kept : result.truncated = false → ∀ x ∈ reached tables query root, x ≠ root → IsSymbol tables x → Shown result x
  edges_kept : result.truncated = false → ∀ row ∈ traversed tables query root, rowToEdge row ∈ result.edges

def FollowedOnce : Prop :=
  query.direction = "both" → ∀ row ∈ traversed tables query root,
    Within tables query root (query.depthBound - 1) row.sourceId → ¬ Within tables query root (query.depthBound - 1) row.targetId

/-- The limit is reached, or else it takes all the edges, and every node reached is a symbol. -/
def SymbolsOnly : Prop :=
  (symbolsMet tables query root).encard < query.limitBound →
    (traversed tables query root).encard ≤ query.limitBound ∧ ∀ x ∈ reached tables query root, x ≠ root → IsSymbol tables x

end Claim

/-! ## Following edges -/

section Steps

variable {tables : Tables} {query : NeighborsQuery} {root : String} {relations : List String} {limit : Nat}

/-- An edge followed, and its far end put on the next frontier. -/
def meet (tables : Tables) (visit : Visit) (step : EdgeRow × String) : Visit :=
  let seen := look tables visit step.1 step.2
  if step.2 ∈ seen.visitedIds then seen
  else { seen with visitedIds := seen.visitedIds ++ [step.2], frontier := seen.frontier ++ [step.2] }

def meetAll (tables : Tables) (visit : Visit) (steps : List (EdgeRow × String)) : Visit := steps.foldl (meet tables) visit

theorem meetAll_append (visit : Visit) (steps later : List (EdgeRow × String)) :
    meetAll tables visit (steps ++ later) = meetAll tables (meetAll tables visit steps) later := foldl_append

def record (tables : Tables) (nodes : Dict String GraphNode) (x : String) : Dict String GraphNode :=
  match nodes.get? x, tables.symbols.find? fun row => row.symbolId == x with
  | none, some row => nodes.set x (rowToNodeFromSymbol row)
  | _, _ => nodes

theorem nodeForSymbol_visit (x : String) (visit : Visit) :
    (nodeForSymbol tables x visit).2 = { visit with visitedNodes := record tables visit.visitedNodes x } := by
  simp only [nodeForSymbol, record]
  cases visit.visitedNodes.get? x with
  | some node => rfl
  | none =>
    cases tables.symbols.find? fun row => row.symbolId == x with
    | some row => rfl
    | none =>
      dsimp only
      split
      · rfl
      · split <;> rfl

theorem meet_eq (visit : Visit) (step : EdgeRow × String) : meet tables visit step = { visit with
      visitedNodes := record tables visit.visitedNodes step.2
      visitedEdges := visit.visitedEdges ++ [rowToEdge step.1]
      visitedIds := visit.visitedIds ++ if step.2 ∈ visit.visitedIds then [] else [step.2]
      frontier := visit.frontier ++ if step.2 ∈ visit.visitedIds then [] else [step.2] } := by
  simp only [meet, look, nodeForSymbol_visit]
  split <;> simp

theorem isSymbol_iff (x : String) : IsSymbol tables x ↔ (tables.symbols.find? fun row => row.symbolId == x) ≠ none := by
  simp [IsSymbol]

theorem mem_keys_set {κ ν : Type} [DecidableEq κ] (d : Dict κ ν) (k k' : κ) (v : ν) : k' ∈ (d.set k v).keys ↔ k' = k ∨ k' ∈ d.keys := by
  simp only [Dict.mem_keys_iff, Dict.contains, Dict.get?_set]
  split <;> simp [*]

theorem keys_record (nodes : Dict String GraphNode) (x y : String) :
    y ∈ (record tables nodes x).keys ↔ y ∈ nodes.keys ∨ (IsSymbol tables y ∧ y = x) := by
  simp only [record, isSymbol_iff]
  cases hknown : nodes.get? x with
  | some node =>
    have hkey : x ∈ nodes.keys := (Dict.mem_keys_iff _ _).mpr ((Dict.contains_iff _ _).mpr ⟨node, hknown⟩)
    exact ⟨.inl, fun h => h.elim id fun hsymbol => hsymbol.2 ▸ hkey⟩
  | none =>
    cases hrow : tables.symbols.find? fun row => row.symbolId == x with
    | some row =>
      rw [mem_keys_set]
      constructor
      · rintro (rfl | hkey)
        · exact .inr ⟨by rw [hrow]; exact Option.some_ne_none row, rfl⟩
        · exact .inl hkey
      · rintro (hkey | ⟨-, rfl⟩)
        · exact .inr hkey
        · exact .inl rfl
    | none =>
      refine ⟨.inl, fun h => h.elim id ?_⟩
      rintro ⟨hsymbol, rfl⟩
      exact absurd hrow hsymbol

variable {visit : Visit} {k : Nat} {inner : List String}

theorem full_mono {visit' : Visit} (h : visit.visitedNodes.keys ⊆ visit'.visitedNodes.keys)
    (hfull : visit.full limit = true) : visit'.full limit = true := by
  have hle := (List.Nodup.subperm visit.visitedNodes.nodup h).length_le
  simp only [Dict.keys, length_map] at hle
  simp only [Visit.full, decide_eq_true_eq] at hfull ⊢
  omega

theorem keys_meetAll (visit : Visit) (steps : List (EdgeRow × String)) (y : String) : y ∈ (meetAll tables visit steps).visitedNodes.keys ↔
      y ∈ visit.visitedNodes.keys ∨ (IsSymbol tables y ∧ y ∈ steps.map Prod.snd) := by
  induction steps generalizing visit with
  | nil => simp [meetAll]
  | cons step steps ih =>
    have hcons : meetAll tables visit (step :: steps) = meetAll tables (meet tables visit step) steps := rfl
    rw [hcons, ih, meet_eq, keys_record, map_cons, mem_cons]
    tauto

theorem full_meetAll (steps : List (EdgeRow × String)) (h : visit.full limit = true) : (meetAll tables visit steps).full limit = true :=
  full_mono (fun y hy => (keys_meetAll visit steps y).mpr (.inl hy)) h

theorem edges_meetAll (visit : Visit) (steps : List (EdgeRow × String)) :
    (meetAll tables visit steps).visitedEdges = visit.visitedEdges ++ steps.map fun step => rowToEdge step.1 := by
  induction steps generalizing visit with
  | nil => simp [meetAll]
  | cons step steps ih =>
    have hcons : meetAll tables visit (step :: steps) = meetAll tables (meet tables visit step) steps := rfl
    rw [hcons, ih, meet_eq, append_assoc]
    rfl

theorem ids_meetAll (visit : Visit) (steps : List (EdgeRow × String)) :
    ∃ fresh : List String, (meetAll tables visit steps).visitedIds = visit.visitedIds ++ fresh ∧
      (meetAll tables visit steps).frontier = visit.frontier ++ fresh ∧ fresh.Nodup ∧
      ∀ x, x ∈ fresh ↔ x ∉ visit.visitedIds ∧ x ∈ steps.map Prod.snd := by
  induction steps generalizing visit with
  | nil => exact ⟨[], by simp [meetAll]⟩
  | cons step steps ih =>
    have hcons : meetAll tables visit (step :: steps) = meetAll tables (meet tables visit step) steps := rfl
    obtain ⟨fresh, hids, hfrontier, hnodup, hmem⟩ := ih (meet tables visit step)
    have hids' : (meet tables visit step).visitedIds = visit.visitedIds ++ if step.2 ∈ visit.visitedIds then [] else [step.2] := by
      rw [meet_eq]
    have hfrontier' : (meet tables visit step).frontier = visit.frontier ++ if step.2 ∈ visit.visitedIds then [] else [step.2] := by
      rw [meet_eq]
    rw [hcons, hids, hfrontier, hids', hfrontier']
    by_cases hknown : step.2 ∈ visit.visitedIds
    · refine ⟨fresh, by simp [hknown], by simp [hknown], hnodup, fun x => ?_⟩
      rw [hmem, hids', if_pos hknown, append_nil, map_cons, mem_cons]
      exact ⟨fun ⟨hx, hin⟩ => ⟨hx, .inr hin⟩, fun ⟨hx, hin⟩ => ⟨hx, hin.resolve_left fun heq => hx (heq ▸ hknown)⟩⟩
    · refine ⟨step.2 :: fresh, by simp [hknown], by simp [hknown], nodup_cons.mpr ⟨fun hin => ?_, hnodup⟩, fun x => ?_⟩
      · exact ((hmem _).mp hin).1 (by simp [hids', hknown])
      · rw [mem_cons, hmem, hids', if_neg hknown, mem_append, mem_singleton, map_cons, mem_cons]
        constructor
        · rintro (rfl | ⟨hx, hin⟩)
          · exact ⟨hknown, .inl rfl⟩
          · exact ⟨fun h => hx (.inl h), .inr hin⟩
        · rintro ⟨hx, heq | hin⟩
          · exact .inl heq
          · by_cases heq : x = step.2
            · exact .inl heq
            · exact .inr ⟨fun h => h.elim hx heq, hin⟩

def Visit.Named (visit : Visit) : Prop := ∀ x node, visit.visitedNodes.get? x = some node → node.id = x

theorem named_meet (h : visit.Named) (step : EdgeRow × String) : (meet tables visit step).Named := by
  intro x node hnode
  rw [meet_eq] at hnode
  simp only [record] at hnode
  split at hnode
  · rename_i row _ hrow
    rw [Dict.get?_set] at hnode
    split at hnode
    · rename_i heq
      obtain rfl := Option.some.inj hnode
      have hid := List.find?_some hrow
      rw [heq]
      simpa [rowToNodeFromSymbol] using hid
    · exact h x node hnode
  · exact h x node hnode

theorem named_meetAll (h : visit.Named) (steps : List (EdgeRow × String)) : (meetAll tables visit steps).Named := by
  induction steps generalizing visit with
  | nil => exact h
  | cons step steps ih => exact ih (named_meet h step)

def Visit.mark (visit : Visit) (flag : Bool) : Visit := { visit with truncated := visit.truncated || flag }

theorem full_mark (visit : Visit) (flag : Bool) : (visit.mark flag).full limit = visit.full limit := rfl

theorem mark_mark (visit : Visit) (flag flag' : Bool) : (visit.mark flag).mark flag' = visit.mark (flag || flag') := by
  simp [Visit.mark, Bool.or_assoc]

theorem mark_false (visit : Visit) : visit.mark false = visit := by
  simp [Visit.mark]

theorem mark_true (visit : Visit) : { visit with truncated := true } = visit.mark true := by
  simp [Visit.mark]

theorem meetAll_mark (visit : Visit) (steps : List (EdgeRow × String)) (flag : Bool) :
    meetAll tables (visit.mark flag) steps = (meetAll tables visit steps).mark flag := by
  induction steps generalizing visit with
  | nil => rfl
  | cons step steps ih =>
    have hcons : ∀ visit, meetAll tables visit (step :: steps) = meetAll tables (meet tables visit step) steps := fun _ => rfl
    have hmeet : meet tables (visit.mark flag) step = (meet tables visit step).mark flag := by
      rw [meet_eq, meet_eq]
      rfl
    rw [hcons, hcons, hmeet, ih]

theorem truncated_meetAll (visit : Visit) (steps : List (EdgeRow × String)) : (meetAll tables visit steps).truncated = visit.truncated := by
  induction steps generalizing visit with
  | nil => rfl
  | cons step steps ih =>
    have hcons : meetAll tables visit (step :: steps) = meetAll tables (meet tables visit step) steps := rfl
    rw [hcons, ih, meet_eq]

/-! ## Turns -/

/-- A part of the walk meets the steps it should, in order, or stops early at the limit, and says so. -/
def Follows (tables : Tables) (limit : Nat) (visit : Visit) (steps : List (EdgeRow × String)) (after : Visit) : Prop :=
  ∃ taken, taken.Sublist steps ∧
    after = (meetAll tables visit taken).mark ((meetAll tables visit taken).full limit) ∧
    ((meetAll tables visit taken).full limit = false → taken = steps)

theorem followEdges_cons (far : EdgeRow → String) (edge : EdgeRow) (rows : List EdgeRow) (visit : Visit) :
    followEdges tables limit far (edge :: rows) visit = followEdges tables limit far rows (meet tables visit (edge, far edge)) ∨
      (meet tables visit (edge, far edge)).full limit = true ∧
        followEdges tables limit far (edge :: rows) visit = (meet tables visit (edge, far edge)).mark true := by
  rw [← mark_true]
  simp only [followEdges, meet]
  split
  · exact .inl rfl
  · split
    · rename_i hfull
      exact .inr ⟨hfull, rfl⟩
    · exact .inl rfl

theorem followEdges_spec (far : EdgeRow → String) (rows : List EdgeRow) (visit : Visit) :
    ∃ taken flag, taken.Sublist (rows.map fun edge => (edge, far edge)) ∧
      followEdges tables limit far rows visit = (meetAll tables visit taken).mark flag ∧
      (flag = true → (meetAll tables visit taken).full limit = true) ∧
      (flag = false → taken = rows.map fun edge => (edge, far edge)) := by
  induction rows generalizing visit with
  | nil => exact ⟨[], false, List.Sublist.refl _, (mark_false visit).symm, by simp, fun _ => rfl⟩
  | cons edge rows ih =>
    rcases @followEdges_cons tables limit far edge rows visit with hon | ⟨hfull, hstop⟩
    · obtain ⟨taken, flag, hsub, heq, hfull, hall⟩ := ih (meet tables visit (edge, far edge))
      exact ⟨(edge, far edge) :: taken, flag, hsub.cons_cons _, hon.trans heq, hfull, fun hno => by rw [hall hno]; rfl⟩
    · exact ⟨[(edge, far edge)], true, (nil_sublist _).cons_cons _, hstop, fun _ => hfull, fun h => absurd h (by simp)⟩

theorem loop_spec (follow : Bool) (far : EdgeRow → String) (rows : List EdgeRow) (visit : Visit) :
    ∃ taken flag, taken.Sublist (if follow then rows.map fun edge => (edge, far edge) else []) ∧
      (if follow then followEdges tables limit far rows visit else visit) = (meetAll tables visit taken).mark flag ∧
      (flag = true → (meetAll tables visit taken).full limit = true) ∧
      (flag = false → taken = if follow then rows.map fun edge => (edge, far edge) else []) := by
  cases follow with
  | true => simpa using followEdges_spec far rows visit
  | false => exact ⟨[], false, List.Sublist.refl _, (mark_false visit).symm, by simp, fun _ => rfl⟩

theorem expandNode_follows (query : NeighborsQuery) (x : String) (visit : Visit) : Follows tables limit visit (adjacent tables query x)
      (expandNode tables (relationsActual query.relations) query.direction limit x visit) := by
  obtain ⟨outs, flag, hsub, heq, hfull, hall⟩ := @loop_spec tables limit (followsOut query.direction) EdgeRow.targetId
    (iterOutgoing tables (relationsActual query.relations) x) visit
  obtain ⟨ins, flag', hsub', heq', hfull', hall'⟩ := @loop_spec tables limit (followsIn query.direction) EdgeRow.sourceId
    (iterIncoming tables (relationsActual query.relations) x) ((meetAll tables visit outs).mark flag)
  rw [meetAll_mark, ← meetAll_append] at heq' hfull'
  rw [mark_mark] at heq'
  rw [full_mark] at hfull'
  -- a loop that stopped early did so at the limit, which is still reached after the other loop
  have hstopped : (flag || flag') = true → (meetAll tables visit (outs ++ ins)).full limit = true := by
    intro hflags
    rcases Bool.or_eq_true_iff.mp hflags with hflag | hflag
    · rw [meetAll_append]
      exact full_meetAll ins (hfull hflag)
    · exact hfull' hflag
  refine ⟨outs ++ ins, hsub.append hsub', ?_, fun hbelow => ?_⟩
  · simp only [expandNode, heq, heq', mark_true, full_mark]
    cases hlimit : (meetAll tables visit (outs ++ ins)).full limit with
    | true => rw [if_pos rfl, mark_mark, Bool.or_true]
    | false =>
      have hflags : (flag || flag') = false := Bool.eq_false_iff.mpr fun h => by simp [hstopped h] at hlimit
      rw [if_neg (by simp), hflags]
  · have hflags : (flag || flag') = false := Bool.eq_false_iff.mpr fun h => by simp [hstopped h] at hbelow
    obtain ⟨hno, hno'⟩ := Bool.or_eq_false_iff.mp hflags
    rw [hall hno, hall' hno']
    rfl

theorem Follows.trans {middle after : Visit} {steps later : List (EdgeRow × String)}
    (h : Follows tables limit visit steps middle) (hbelow : middle.full limit = false)
    (h' : Follows tables limit middle later after) : Follows tables limit visit (steps ++ later) after := by
  obtain ⟨taken, -, rfl, hall⟩ := h
  rw [full_mark] at hbelow
  obtain rfl := hall hbelow
  obtain ⟨taken', hsub, rfl, hall'⟩ := h'
  rw [hbelow, mark_false, ← meetAll_append] at hall' ⊢
  refine ⟨taken ++ taken', hsub.append_left taken, rfl, fun hfull => ?_⟩
  rw [hall' hfull]

theorem Follows.stop {after : Visit} {steps : List (EdgeRow × String)} (h : Follows tables limit visit steps after)
    (hfull : after.full limit = true) (later : List (EdgeRow × String)) :
    Follows tables limit visit (steps ++ later) after := by
  obtain ⟨taken, hsub, rfl, -⟩ := h
  rw [full_mark] at hfull
  exact ⟨taken, hsub.trans (sublist_append_left _ _), rfl, fun hbelow => by simp [hfull] at hbelow⟩

theorem Follows.nil (h : visit.full limit = false) : Follows tables limit visit [] visit :=
  ⟨[], List.Sublist.refl _, by simp [meetAll, h, mark_false], fun _ => rfl⟩

theorem expandFrontier_follows (query : NeighborsQuery) (frontier : List String) (visit : Visit) (h : visit.full limit = false) :
    Follows tables limit visit (frontier.flatMap (adjacent tables query))
      (expandFrontier tables (relationsActual query.relations) query.direction limit frontier visit) := by
  induction frontier generalizing visit with
  | nil => exact Follows.nil h
  | cons x frontier ih =>
    have hnode := @expandNode_follows tables limit query x visit
    simp only [expandFrontier, flatMap_cons]
    split
    · rename_i hfull
      exact hnode.stop hfull _
    · rename_i hbelow
      exact hnode.trans (Bool.not_eq_true _ ▸ hbelow) (ih _ (Bool.not_eq_true _ ▸ hbelow))

/-! ## Layers -/

theorem Within.mono {j : Nat} (hjk : j ≤ k) {x : String} (h : Within tables query root j x) : Within tables query root k x := by
  induction hjk with
  | refl => exact h
  | step _ ih => exact .inl ih

/-- Before the layer `k + 1`: the nodes expanded, those to expand next, and what was kept of them. -/
structure Layered (tables : Tables) (query : NeighborsQuery) (root : String) (limit k : Nat) (inner frontier : List String)
    (visit : Visit) : Prop where
  nodup : (inner ++ frontier).Nodup
  ids : ∀ x, x ∈ visit.visitedIds ↔ x ∈ inner ++ frontier
  within : ∀ x, x ∈ inner ++ frontier ↔ Within tables query root k x
  closed : ∀ x ∈ inner, ∀ step ∈ adjacent tables query x, step.2 ∈ inner ++ frontier
  edges : visit.visitedEdges = (inner.flatMap (adjacent tables query)).map fun step => rowToEdge step.1
  keys : ∀ x, x ∈ visit.visitedNodes.keys ↔ IsSymbol tables x ∧ x ∈ (inner.flatMap (adjacent tables query)).map Prod.snd
  named : visit.Named
  whole : visit.truncated = false
  below : visit.full limit = false

/-- What is kept: the steps met from nodes within `d`, all of them unless the limit was reached. -/
structure Walked (tables : Tables) (query : NeighborsQuery) (root : String) (limit d : Nat) (inner : List String)
    (taken : List (EdgeRow × String)) (visit : Visit) : Prop where
  nodup : inner.Nodup
  within : ∀ x ∈ inner, Within tables query root d x
  sublist : taken.Sublist (inner.flatMap (adjacent tables query))
  edges : visit.visitedEdges = taken.map fun step => rowToEdge step.1
  keys : ∀ x, x ∈ visit.visitedNodes.keys ↔ IsSymbol tables x ∧ x ∈ taken.map Prod.snd
  named : visit.Named
  flagged : visit.truncated = visit.full limit
  whole : visit.truncated = false →
    taken = inner.flatMap (adjacent tables query) ∧ ∀ x, Within tables query root d x → x ∈ inner

theorem Layered.next {frontier : List String} (h : Layered tables query root limit k inner frontier visit) (hempty : visit.frontier = [])
    (hbelow : (meetAll tables visit (frontier.flatMap (adjacent tables query))).full limit = false) :
    Layered tables query root limit (k + 1) (inner ++ frontier)
      (meetAll tables visit (frontier.flatMap (adjacent tables query))).frontier
      (meetAll tables visit (frontier.flatMap (adjacent tables query))) := by
  obtain ⟨fresh, hids, hfrontier, hnodup, hmem⟩ := @ids_meetAll tables visit (frontier.flatMap (adjacent tables query))
  rw [hempty, nil_append] at hfrontier
  have hfresh : ∀ x, x ∈ fresh ↔ x ∉ inner ++ frontier ∧ ∃ y ∈ frontier, ∃ edge, (edge, x) ∈ adjacent tables query y := by
    intro x
    rw [hmem, h.ids]
    refine and_congr_right fun _ => ?_
    simp only [mem_map, mem_flatMap, Prod.exists, exists_eq_right]
    exact ⟨fun ⟨edge, y, hy, hstep⟩ => ⟨y, hy, edge, hstep⟩, fun ⟨y, hy, edge, hstep⟩ => ⟨edge, y, hy, hstep⟩⟩
  rw [hfrontier]
  refine ⟨?_, ?_, ?_, ?_, ?_, ?_, named_meetAll h.named _, ?_, hbelow⟩
  · exact nodup_append.mpr ⟨h.nodup, hnodup, fun x hx y hy hxy => ((hfresh y).mp hy).1 (hxy ▸ hx)⟩
  · intro x
    rw [hids, mem_append, h.ids, ← mem_append]
  · intro x
    rw [mem_append, hfresh]
    simp only [Within]
    rw [← h.within x]
    constructor
    · rintro (hx | ⟨-, y, hy, hstep⟩)
      · exact .inl hx
      · exact .inr ⟨y, (h.within y).mp (mem_append_right _ hy), hstep⟩
    · rintro (hx | ⟨y, hy, edge, hstep⟩)
      · exact .inl hx
      · by_cases hx : x ∈ inner ++ frontier
        · exact .inl hx
        · rcases mem_append.mp ((h.within y).mpr hy) with hinner | hfront
          · exact .inl (h.closed y hinner _ hstep)
          · exact .inr ⟨hx, y, hfront, edge, hstep⟩
  · intro x hx step hstep
    rcases mem_append.mp hx with hinner | hfront
    · exact mem_append_left _ (h.closed x hinner step hstep)
    · by_cases hknown : step.2 ∈ inner ++ frontier
      · exact mem_append_left _ hknown
      · exact mem_append_right _ ((hfresh step.2).mpr ⟨hknown, x, hfront, step.1, hstep⟩)
  · rw [edges_meetAll, h.edges, flatMap_append, map_append]
  · intro x
    rw [keys_meetAll, h.keys, flatMap_append, map_append, mem_append]
    tauto
  · rw [truncated_meetAll]
    exact h.whole

theorem Layered.closed_all (h : Layered tables query root limit k inner [] visit) (d : Nat) (x : String) (hx : Within tables query root d x) :
    x ∈ inner := by
  induction d generalizing x with
  | zero => simpa using (h.within x).mpr (Within.mono (Nat.zero_le k) hx)
  | succ d ih =>
    rcases hx with hx | ⟨y, hy, edge, hstep⟩
    · exact ih x hx
    · simpa using h.closed y (ih y hy) (edge, x) hstep

theorem Layered.walked {d : Nat} {frontier : List String}
    (h : Layered tables query root limit (k + 1) inner frontier visit) (hinner : ∀ x, x ∈ inner ↔ Within tables query root k x)
    (hle : k ≤ d) (hend : k = d ∨ frontier = []) :
    Walked tables query root limit d inner (inner.flatMap (adjacent tables query)) visit where
  nodup := (nodup_append.mp h.nodup).1
  within := fun x hx => Within.mono hle ((hinner x).mp hx)
  sublist := List.Sublist.refl _
  edges := h.edges
  keys := h.keys
  named := h.named
  flagged := h.whole.trans h.below.symm
  whole := by
    refine fun _ => ⟨rfl, fun x hx => ?_⟩
    rcases hend with rfl | rfl
    · exact (hinner x).mpr hx
    · exact h.closed_all d x hx

theorem Layered.expand {d : Nat} {frontier : List String} (h : Layered tables query root limit k inner frontier visit) (hle : k ≤ d) {after : Visit}
    (hafter : Follows tables limit { visit with frontier := [] } (frontier.flatMap (adjacent tables query)) after) :
    (after.truncated = true ∧ ∃ taken, Walked tables query root limit d (inner ++ frontier) taken after) ∨
      (after.truncated = false ∧ Layered tables query root limit (k + 1) (inner ++ frontier) after.frontier after) := by
  have hstart : Layered tables query root limit k inner frontier { visit with frontier := [] } :=
    ⟨h.nodup, h.ids, h.within, h.closed, h.edges, h.keys, h.named, h.whole, h.below⟩
  obtain ⟨taken, hsub, rfl, hall⟩ := hafter
  have hflag : (meetAll tables { visit with frontier := [] } taken).truncated = false := (truncated_meetAll _ _).trans h.whole
  cases hfull : (meetAll tables { visit with frontier := [] } taken).full limit with
  | true =>
    have htruncated : ((meetAll tables { visit with frontier := [] } taken).mark true).truncated = true := by simp [Visit.mark]
    refine .inl ⟨htruncated, inner.flatMap (adjacent tables query) ++ taken, h.nodup, ?_, ?_, ?_, ?_, ?_, ?_, ?_⟩
    · exact fun x hx => Within.mono hle ((h.within x).mp hx)
    · rw [flatMap_append]
      exact hsub.append_left _
    · exact (edges_meetAll _ _).trans (by rw [hstart.edges, map_append])
    · intro x
      refine (keys_meetAll _ _ x).trans ?_
      rw [hstart.keys, map_append, mem_append]
      tauto
    · exact named_meetAll hstart.named taken
    · rw [htruncated, full_mark, hfull]
    · exact fun hwhole => by simp [htruncated] at hwhole
  | false =>
    obtain rfl := hall hfull
    rw [mark_false]
    exact .inr ⟨hflag, hstart.next rfl hfull⟩

theorem walkLayers_spec (d n : Nat) :
    ∀ (k : Nat) (inner frontier : List String) (visit : Visit), Layered tables query root limit k inner frontier visit →
      k + n = d → ∃ inner taken, Walked tables query root limit d inner taken
        (walkLayers tables (relationsActual query.relations) query.direction limit (n + 1) frontier visit) := by
  induction n with
  | zero =>
    intro k inner frontier visit h hk
    rcases h.expand (Nat.le_of_eq hk) (expandFrontier_follows query frontier _ h.below) with ⟨htruncated, taken, hwalked⟩ | ⟨hwhole, hnext⟩
    · refine ⟨inner ++ frontier, taken, ?_⟩
      simp only [walkLayers, htruncated, or_true, if_true]
      exact hwalked
    · refine ⟨inner ++ frontier, (inner ++ frontier).flatMap (adjacent tables query), ?_⟩
      simp only [walkLayers, ite_self]
      exact hnext.walked h.within (Nat.le_of_eq hk) (.inl hk)
  | succ n ih =>
    intro k inner frontier visit h hk
    have hle : k ≤ d := by omega
    rcases h.expand hle (expandFrontier_follows query frontier _ h.below) with ⟨htruncated, taken, hwalked⟩ | ⟨hwhole, hnext⟩
    · refine ⟨inner ++ frontier, taken, ?_⟩
      rw [walkLayers]
      simp only [htruncated, or_true, if_true]
      exact hwalked
    · rw [walkLayers]
      split
      · rename_i hstop
        have hempty := hstop.resolve_right (by simp [hwhole])
        rw [hempty] at hnext
        exact ⟨_, _, hnext.walked h.within hle (.inr rfl)⟩
      · exact ih (k + 1) _ _ _ hnext (by omega)

theorem neighborWalk_walked (tables : Tables) (query : NeighborsQuery) (root : String) :
    ∃ inner taken, Walked tables query root query.limitBound (query.depthBound - 1) inner taken (neighborWalk tables query root) := by
  obtain ⟨n, hn⟩ := Nat.exists_eq_succ_of_ne_zero (bounded_pos 3 query.depth).ne'
  have hstart : Layered tables query root query.limitBound 0 [] [root] { visitedIds := [root] } := by
    refine ⟨nodup_singleton root, fun x => Iff.rfl, fun x => mem_singleton, by simp, rfl, ?_, ?_, rfl, ?_⟩
    · simp [Dict.keys, EmptyCollection.emptyCollection, Dict.empty]
    · intro x node hnode
      simp [Dict.get?_empty] at hnode
    · exact decide_eq_false (Nat.not_le.mpr (bounded_pos 100 query.limit))
  have hdepth : query.depthBound = n + 1 := hn
  rw [hdepth, Nat.add_sub_cancel]
  have hwalk := walkLayers_spec n n 0 [] [root] _ hstart (Nat.zero_add n)
  rw [neighborWalk, hn]
  exact hwalk

end Steps

/-! ## Edges followed twice -/

section Rows

variable {tables : Tables} {query : NeighborsQuery} {root : String}

def adjacentRows (tables : Tables) (query : NeighborsQuery) (x : String) : List EdgeRow := (adjacent tables query x).map Prod.fst

theorem adjacentRows_eq (x : String) : adjacentRows tables query x =
      (if followsOut query.direction then iterOutgoing tables (relationsActual query.relations) x else []) ++
        if followsIn query.direction then iterIncoming tables (relationsActual query.relations) x else [] := by
  have hfst : ∀ (far : EdgeRow → String) (rows : List EdgeRow), (rows.map fun edge => (edge, far edge)).map Prod.fst = rows := by
    intro far rows
    rw [map_map]
    exact map_id rows
  simp only [adjacentRows, adjacent, map_append]
  split <;> split <;> simp only [hfst, map_nil]

variable {x : String} {row : EdgeRow}

theorem mem_outs {follow : Bool} {relations : List String}
    (h : row ∈ if follow then iterOutgoing tables relations x else []) : follow = true ∧ row.sourceId = x := by
  split at h
  · exact ⟨‹_›, by simpa using (Bool.and_eq_true_iff.mp (mem_filter.mp h).2).1⟩
  · exact absurd h not_mem_nil

theorem mem_ins {follow : Bool} {relations : List String}
    (h : row ∈ if follow then iterIncoming tables relations x else []) : follow = true ∧ row.targetId = x := by
  split at h
  · exact ⟨‹_›, by simpa using (Bool.and_eq_true_iff.mp (mem_filter.mp h).2).1⟩
  · exact absurd h not_mem_nil

theorem both_iff (direction : String) : direction = "both" ↔ followsOut direction = true ∧ followsIn direction = true := by
  simp only [followsOut, followsIn, Bool.or_eq_true, beq_iff_eq]
  constructor
  · exact fun h => ⟨.inr h, .inr h⟩
  · rintro ⟨rfl | h, h' | h'⟩
    · exact absurd h' (by decide)
    · exact h'
    · exact h
    · exact h

theorem disjoint_rows {y : String} (hxy : x ≠ y) (hx : row ∈ adjacentRows tables query x) (hy : row ∈ adjacentRows tables query y) :
    query.direction = "both" ∧ (row.sourceId = x ∧ row.targetId = y ∨ row.sourceId = y ∧ row.targetId = x) := by
  rw [adjacentRows_eq, mem_append] at hx hy
  rw [both_iff]
  rcases hx with hx | hx <;> rcases hy with hy | hy
  · exact absurd ((mem_outs hx).2.symm.trans (mem_outs hy).2) hxy
  · exact ⟨⟨(mem_outs hx).1, (mem_ins hy).1⟩, .inl ⟨(mem_outs hx).2, (mem_ins hy).2⟩⟩
  · exact ⟨⟨(mem_outs hy).1, (mem_ins hx).1⟩, .inr ⟨(mem_outs hy).2, (mem_ins hx).2⟩⟩
  · exact absurd ((mem_ins hx).2.symm.trans (mem_ins hy).2) hxy

theorem mem_iter_both (h : row ∈ adjacentRows tables query x) : row ∈ iterOutgoing tables (relationsActual query.relations) row.sourceId ∧
      row ∈ iterIncoming tables (relationsActual query.relations) row.targetId := by
  have hrow : row ∈ tables.edges ∧
      ((relationsActual query.relations).isEmpty || (relationsActual query.relations).contains row.relation) = true := by
    rw [adjacentRows_eq, mem_append] at h
    rcases h with h | h
    all_goals
      split at h
      · obtain ⟨hmem, hkept⟩ := mem_filter.mp h
        exact ⟨hmem, (Bool.and_eq_true_iff.mp hkept).2⟩
      · exact absurd h not_mem_nil
  exact ⟨mem_filter.mpr ⟨hrow.1, by rw [hrow.2]; simp⟩, mem_filter.mpr ⟨hrow.1, by rw [hrow.2]; simp⟩⟩

theorem mem_traversed (row : EdgeRow) :
    row ∈ traversed tables query root ↔ ∃ x, Within tables query root (query.depthBound - 1) x ∧ row ∈ adjacentRows tables query x := by
  simp [traversed, adjacentRows]

theorem rows_nodup {inner : List String} (hnodup : inner.Nodup)
    (hinner : ∀ x, x ∈ inner → Within tables query root (query.depthBound - 1) x) (h : FollowedOnce tables query root) :
    (inner.flatMap (adjacentRows tables query)).Nodup := by
  have hedges : tables.edges.Nodup := List.Nodup.of_map _ tables.edgeKeys
  have hends : ∀ {x : String} {row : EdgeRow}, x ∈ inner → row ∈ adjacentRows tables query x → row ∈ traversed tables query root :=
    fun hx hrow => (mem_traversed _).mpr ⟨_, hinner _ hx, hrow⟩
  rw [nodup_flatMap]
  constructor
  · intro x hx
    have hrows := @adjacentRows_eq tables query x
    rw [hrows, nodup_append]
    refine ⟨?_, ?_, fun row hout row' hin heq => ?_⟩
    · split
      · exact hedges.filter _
      · exact nodup_nil
    · split
      · exact hedges.filter _
      · exact nodup_nil
    · obtain rfl := heq
      obtain ⟨hfollows, hsource⟩ := mem_outs hout
      obtain ⟨hfollows', htarget⟩ := mem_ins hin
      have hmem : row ∈ adjacentRows tables query x := hrows ▸ mem_append_left _ hout
      exact h ((both_iff _).mpr ⟨hfollows, hfollows'⟩) row (hends hx hmem) (hsource ▸ hinner x hx) (htarget ▸ hinner x hx)
  · refine hnodup.imp_of_mem fun {x y} hx hy hxy row hrow hrow' => ?_
    obtain ⟨hboth, ⟨hsource, htarget⟩ | ⟨hsource, htarget⟩⟩ := disjoint_rows hxy hrow hrow'
    · exact h hboth row (hends hx hrow) (hsource ▸ hinner x hx) (htarget ▸ hinner y hy)
    · exact h hboth row (hends hx hrow) (hsource ▸ hinner y hy) (htarget ▸ hinner x hx)

theorem followedOnce_of_nodup {inner : List String} (hall : ∀ x, Within tables query root (query.depthBound - 1) x → x ∈ inner)
    (h : (inner.flatMap (adjacentRows tables query)).Nodup) : FollowedOnce tables query root := by
  intro hboth row hrow hsource htarget
  obtain ⟨x, -, hmem⟩ := (mem_traversed row).mp hrow
  obtain ⟨hout, hin⟩ := mem_iter_both hmem
  obtain ⟨hfollows, hfollows'⟩ := (both_iff _).mp hboth
  obtain ⟨heach, hpair⟩ := nodup_flatMap.mp h
  have hsplit : ∀ y, adjacentRows tables query y =
      iterOutgoing tables (relationsActual query.relations) y ++ iterIncoming tables (relationsActual query.relations) y := by
    intro y
    rw [adjacentRows_eq, if_pos hfollows, if_pos hfollows']
  by_cases hloop : row.sourceId = row.targetId
  · have hnodup := heach _ (hall _ hsource)
    rw [hsplit, nodup_append] at hnodup
    exact hnodup.2.2 row hout row (hloop ▸ hin) rfl
  · have hsymm : Std.Symm (Function.onFun List.Disjoint (adjacentRows tables query)) := ⟨fun _ _ h => h.symm⟩
    have hdisjoint := hpair.forall (hall _ hsource) (hall _ htarget) hloop
    exact hdisjoint (hsplit row.sourceId ▸ mem_append_left _ hout) (hsplit row.targetId ▸ mem_append_right _ hin)

end Rows

/-! ## The result -/

section Result

variable {tables : Tables} {query : NeighborsQuery} {root : String} {inner : List String}
  {taken : List (EdgeRow × String)}

theorem encard_mem_le {α : Type} (xs : List α) : {x | x ∈ xs}.encard ≤ xs.length := by
  classical
  have hcoe : {x | x ∈ xs} = (xs.toFinset : Set α) := by simp
  rw [hcoe, Set.encard_coe_eq_coe_finsetCard]
  exact_mod_cast toFinset_card_le xs

theorem encard_mem {α : Type} {xs : List α} (h : xs.Nodup) : {x | x ∈ xs}.encard = xs.length := by
  classical
  have hcoe : {x | x ∈ xs} = (xs.toFinset : Set α) := by simp
  rw [hcoe, Set.encard_coe_eq_coe_finsetCard, toFinset_card_of_nodup h]

variable {x : String}

theorem adjacent_ends {y : String} {row : EdgeRow} (h : (row, y) ∈ adjacent tables query x) :
    row.sourceId = x ∧ row.targetId = y ∨ row.targetId = x ∧ row.sourceId = y := by
  rcases mem_append.mp h with h | h
  · split at h
    · obtain ⟨row', hrow, heq⟩ := mem_map.mp h
      obtain ⟨rfl, rfl⟩ := Prod.mk.inj heq
      exact .inl ⟨by simpa using (Bool.and_eq_true_iff.mp (mem_filter.mp hrow).2).1, rfl⟩
    · exact absurd h not_mem_nil
  · split at h
    · obtain ⟨row', hrow, heq⟩ := mem_map.mp h
      obtain ⟨rfl, rfl⟩ := Prod.mk.inj heq
      exact .inr ⟨by simpa using (Bool.and_eq_true_iff.mp (mem_filter.mp hrow).2).1, rfl⟩
    · exact absurd h not_mem_nil

theorem depthBound_eq (query : NeighborsQuery) : query.depthBound = query.depthBound - 1 + 1 :=
  (Nat.succ_pred_eq_of_pos (bounded_pos 3 query.depth)).symm

theorem reached_of_within (h : Within tables query root (query.depthBound - 1) x) : x ∈ reached tables query root :=
  Within.mono (Nat.sub_le _ _) h

theorem reached_of_adjacent {y : String} {row : EdgeRow} (hx : Within tables query root (query.depthBound - 1) x)
    (h : (row, y) ∈ adjacent tables query x) : y ∈ reached tables query root := by
  have hfar : Within tables query root (query.depthBound - 1 + 1) y := .inr ⟨x, hx, row, h⟩
  rw [← depthBound_eq query] at hfar
  exact hfar

theorem far_end_of_within (d : Nat) (h : Within tables query root (d + 1) x) (hx : x ≠ root) :
    ∃ y, Within tables query root d y ∧ ∃ row, (row, x) ∈ adjacent tables query y := by
  induction d with
  | zero => exact h.resolve_left hx
  | succ d ih =>
    rcases h with h | h
    · obtain ⟨y, hy, hstep⟩ := ih h
      exact ⟨y, .inl hy, hstep⟩
    · exact h

theorem far_end_of_reached (h : x ∈ reached tables query root) (hx : x ≠ root) :
    ∃ y, Within tables query root (query.depthBound - 1) y ∧ ∃ row, (row, x) ∈ adjacent tables query y := by
  have hwithin : Within tables query root query.depthBound x := h
  rw [depthBound_eq query] at hwithin
  exact far_end_of_within _ hwithin hx

theorem traversed_ends {row : EdgeRow} (h : row ∈ traversed tables query root) (hx : x = row.sourceId ∨ x = row.targetId) :
    x ∈ reached tables query root := by
  obtain ⟨y, hy, z, hstep⟩ := h
  have hnear := reached_of_within hy
  have hfar := reached_of_adjacent hy hstep
  rcases adjacent_ends hstep with ⟨rfl, rfl⟩ | ⟨rfl, rfl⟩
  · rcases hx with rfl | rfl
    · exact hnear
    · exact hfar
  · rcases hx with rfl | rfl
    · exact hfar
    · exact hnear

theorem met_of_symbol (hx : x ∈ reached tables query root) (hne : x ≠ root) (hsymbol : IsSymbol tables x) : x ∈ symbolsMet tables query root := by
  obtain ⟨y, hy, row, hstep⟩ := far_end_of_reached hx hne
  exact ⟨hsymbol, y, hy, row, hstep⟩

theorem symbolsMet_subset : symbolsMet tables query root ⊆ reached tables query root :=
  fun _ ⟨_, _, hx, _, hstep⟩ => reached_of_adjacent hx hstep

section Walk

variable {visit : Visit} (w : Walked tables query root query.limitBound (query.depthBound - 1) inner taken visit)

include w

theorem Walked.keys_met {x : String} (hx : x ∈ visit.visitedNodes.keys) : x ∈ symbolsMet tables query root := by
  obtain ⟨hsymbol, hfar⟩ := (w.keys x).mp hx
  obtain ⟨step, hstep, rfl⟩ := mem_map.mp hfar
  obtain ⟨y, hy, hadjacent⟩ := mem_flatMap.mp (w.sublist.mem hstep)
  exact ⟨hsymbol, y, w.within y hy, step.1, hadjacent⟩

theorem Walked.met_keys (hwhole : visit.truncated = false) {x : String} (hx : x ∈ symbolsMet tables query root) : x ∈ visit.visitedNodes.keys := by
  obtain ⟨hsymbol, y, hy, row, hstep⟩ := hx
  obtain ⟨hall, hinner⟩ := w.whole hwhole
  rw [w.keys, hall]
  exact ⟨hsymbol, mem_map.mpr ⟨(row, x), mem_flatMap.mpr ⟨y, hinner y hy, hstep⟩, rfl⟩⟩

theorem Walked.recorded_le : (visit.visitedNodes.entries.length : ℕ∞) ≤ (symbolsMet tables query root).encard := by
  have hnodup : visit.visitedNodes.keys.Nodup := visit.visitedNodes.nodup
  have hlength : visit.visitedNodes.keys.length = visit.visitedNodes.entries.length := by simp [Dict.keys]
  rw [← hlength, ← encard_mem hnodup]
  exact Set.encard_le_encard fun x hx => w.keys_met hx

theorem Walked.whole_iff : visit.truncated = false ↔ (symbolsMet tables query root).encard < query.limitBound := by
  constructor
  · intro hwhole
    have hsubset : symbolsMet tables query root ⊆ {x | x ∈ visit.visitedNodes.keys} := fun x hx => w.met_keys hwhole hx
    have hle := (Set.encard_le_encard hsubset).trans (encard_mem_le _)
    have hbelow : visit.visitedNodes.entries.length < query.limitBound := by
      have hfull := w.flagged.symm.trans hwhole
      simpa [Visit.full] using hfull
    refine hle.trans_lt ?_
    simp only [Dict.keys, length_map]
    exact_mod_cast hbelow
  · intro hbelow
    have hlt := w.recorded_le.trans_lt hbelow
    rw [w.flagged]
    have hlt' : visit.visitedNodes.entries.length < query.limitBound := by exact_mod_cast hlt
    exact decide_eq_false (Nat.not_le.mpr hlt')

theorem Walked.edge_traversed {edge : GraphEdge} (h : edge ∈ visit.visitedEdges) : ∃ row ∈ traversed tables query root, edge = rowToEdge row := by
  rw [w.edges] at h
  obtain ⟨step, hstep, rfl⟩ := mem_map.mp h
  obtain ⟨y, hy, hadjacent⟩ := mem_flatMap.mp (w.sublist.mem hstep)
  exact ⟨step.1, ⟨y, w.within y hy, step.2, hadjacent⟩, rfl⟩

theorem Walked.traversed_kept (hwhole : visit.truncated = false) {row : EdgeRow} (h : row ∈ traversed tables query root) :
    rowToEdge row ∈ visit.visitedEdges := by
  obtain ⟨y, hy, z, hstep⟩ := h
  obtain ⟨hall, hinner⟩ := w.whole hwhole
  rw [w.edges, hall]
  exact mem_map.mpr ⟨(row, z), mem_flatMap.mpr ⟨y, hinner y hy, hstep⟩, rfl⟩

theorem Walked.edges_eq : visit.visitedEdges = (taken.map Prod.fst).map rowToEdge := by
  rw [w.edges, map_map]
  rfl

theorem Walked.rows_sublist : (taken.map Prod.fst).Sublist (inner.flatMap (adjacentRows tables query)) := by
  have h := w.sublist.map Prod.fst
  rwa [map_flatMap] at h

theorem Walked.edges_nodup (h : FollowedOnce tables query root) : visit.visitedEdges.Nodup := by
  rw [w.edges_eq]
  exact ((rows_nodup w.nodup w.within h).sublist w.rows_sublist).map rowToEdge_injective

theorem Walked.length_eq (h : FollowedOnce tables query root) (hwhole : visit.truncated = false) :
    (visit.visitedEdges.length : ℕ∞) = (traversed tables query root).encard := by
  rw [← encard_mem (w.edges_nodup h), ← (rowToEdge_injective.injOn (s := traversed tables query root)).encard_image]
  congr 1
  ext edge
  constructor
  · intro hedge
    obtain ⟨row, hrow, rfl⟩ := w.edge_traversed hedge
    exact ⟨row, hrow, rfl⟩
  · rintro ⟨row, hrow, rfl⟩
    exact w.traversed_kept hwhole hrow

end Walk

theorem neighbors_resolved (hroot : resolveTarget tables query.target = some root) :
    (neighbors tables query).truncated = (neighborWalk tables query root).truncated ∧
      (neighbors tables query).edges = ((neighborWalk tables query root).visitedEdges.insertionSort fun e f =>
        edgeKey e ≤ edgeKey f).take query.limitBound ∧
      (neighbors tables query).nodes = ((neighborWalk tables query root).visitedNodes.values.insertionSort fun m n =>
        nodeKey m ≤ nodeKey n).take query.limitBound := by
  unfold neighbors
  rw [hroot]
  exact ⟨rfl, rfl, rfl⟩

variable (hroot : resolveTarget tables query.target = some root)

include hroot

theorem edges_subset {edge : GraphEdge} (h : edge ∈ (neighbors tables query).edges) : edge ∈ (neighborWalk tables query root).visitedEdges := by
  rw [(neighbors_resolved hroot).2.1] at h
  exact (mem_insertionSort _).mp (mem_of_mem_take h)

theorem shown_iff (hwhole : (neighbors tables query).truncated = false) (x : String) :
    Shown (neighbors tables query) x ↔ x ∈ symbolsMet tables query root := by
  obtain ⟨inner, taken, w⟩ := neighborWalk_walked tables query root
  obtain ⟨htruncated, -, hnodes⟩ := neighbors_resolved hroot
  rw [htruncated] at hwhole
  have hbelow : (neighborWalk tables query root).visitedNodes.entries.length < query.limitBound := by
    have hfull := w.flagged.symm.trans hwhole
    simpa [Visit.full] using hfull
  have hlength : ((neighborWalk tables query root).visitedNodes.values.insertionSort fun m n => nodeKey m ≤ nodeKey n).length ≤
      query.limitBound := by
    rw [length_insertionSort, Dict.values, length_map]
    exact hbelow.le
  rw [Shown, hnodes, take_of_length_le hlength]
  constructor
  · rintro ⟨node, hnode, rfl⟩
    obtain ⟨k, hk⟩ := (Dict.mem_values_iff _ _).mp ((mem_insertionSort _).mp hnode)
    rw [w.named k node hk]
    exact w.keys_met ((Dict.mem_keys_iff _ _).mpr ((Dict.contains_iff _ _).mpr ⟨node, hk⟩))
  · intro hx
    obtain ⟨node, hnode⟩ := (Dict.contains_iff _ _).mp ((Dict.mem_keys_iff _ _).mp (w.met_keys hwhole hx))
    exact ⟨node, (mem_insertionSort _).mpr ((Dict.mem_values_iff _ _).mpr ⟨x, hnode⟩), w.named x node hnode⟩

theorem neighbors_whole_iff : (neighbors tables query).truncated = false ↔ (symbolsMet tables query root).encard < query.limitBound := by
  obtain ⟨inner, taken, w⟩ := neighborWalk_walked tables query root
  rw [(neighbors_resolved hroot).1]
  exact w.whole_iff

theorem returns_of_once (honce : FollowedOnce tables query root) (honly : SymbolsOnly tables query root) :
    ReturnsNeighbours tables query root (neighbors tables query) := by
  obtain ⟨inner, taken, w⟩ := neighborWalk_walked tables query root
  obtain ⟨htruncated, hedges, -⟩ := neighbors_resolved hroot
  have hshown : (neighbors tables query).truncated = false → ∀ x ∈ reached tables query root, x ≠ root → Shown (neighbors tables query) x := by
    intro hwhole x hx hne
    have hbelow := (neighbors_whole_iff hroot).mp hwhole
    exact (shown_iff hroot hwhole x).mpr (met_of_symbol hx hne ((honly hbelow).2 x hx hne))
  refine ⟨fun edge hedge => w.edge_traversed (edges_subset hroot hedge), ?_, ?_, ?_, ?_, ?_⟩
  · rw [hedges]
    exact (((perm_insertionSort _ _).nodup_iff).mpr (w.edges_nodup honce)).sublist (take_sublist _ _)
  · intro hwhole edge hedge x hx hne
    obtain ⟨row, hrow, rfl⟩ := w.edge_traversed (edges_subset hroot hedge)
    exact hshown hwhole x (traversed_ends hrow hx) hne
  · intro hreached _
    have hwhole := (neighbors_whole_iff hroot).mpr ((Set.encard_le_encard symbolsMet_subset).trans_lt hreached)
    refine ⟨fun x hne => ⟨fun hx => symbolsMet_subset ((shown_iff hroot hwhole x).mp hx), fun hx => hshown hwhole x hx hne⟩, hwhole⟩
  · exact fun hwhole x hx hne _ => hshown hwhole x hx hne
  · intro hwhole row hrow
    have hle : ((neighborWalk tables query root).visitedEdges.length : ℕ∞) ≤ query.limitBound := by
      rw [w.length_eq honce (htruncated ▸ hwhole)]
      exact (honly ((neighbors_whole_iff hroot).mp hwhole)).1
    rw [hedges, take_of_length_le (by rw [length_insertionSort]; exact_mod_cast hle), mem_insertionSort]
    exact w.traversed_kept (htruncated ▸ hwhole) hrow

theorem symbolsOnly_of_returns (h : ReturnsNeighbours tables query root (neighbors tables query)) : SymbolsOnly tables query root := by
  intro hbelow
  have hwhole := (neighbors_whole_iff hroot).mpr hbelow
  have hkept : rowToEdge '' traversed tables query root ⊆ {edge | edge ∈ (neighbors tables query).edges} := by
    rintro _ ⟨row, hrow, rfl⟩
    exact h.edges_kept hwhole row hrow
  constructor
  · rw [← (rowToEdge_injective.injOn (s := traversed tables query root)).encard_image]
    refine ((Set.encard_le_encard hkept).trans (encard_mem_le _)).trans ?_
    rw [(neighbors_resolved hroot).2.1]
    exact_mod_cast length_take_le _ _
  · intro x hx hne
    obtain ⟨y, hy, row, hstep⟩ := far_end_of_reached hx hne
    have hrow : row ∈ traversed tables query root := ⟨y, hy, x, hstep⟩
    have hend : x = (rowToEdge row).source ∨ x = (rowToEdge row).target := by
      rcases adjacent_ends hstep with ⟨-, hx⟩ | ⟨-, hx⟩
      · exact .inr hx.symm
      · exact .inl hx.symm
    have hshown := h.ends hwhole _ (h.edges_kept hwhole row hrow) x hend hne
    exact ((shown_iff hroot hwhole x).mp hshown).1

theorem once_of_returns (h : ReturnsNeighbours tables query root (neighbors tables query))
    (hbelow : (symbolsMet tables query root).encard < query.limitBound)
    (hedges : (traversed tables query root).encard < query.limitBound) : FollowedOnce tables query root := by
  obtain ⟨inner, taken, w⟩ := neighborWalk_walked tables query root
  obtain ⟨htruncated, hshown, -⟩ := neighbors_resolved hroot
  have hwhole := (neighbors_whole_iff hroot).mpr hbelow
  obtain ⟨hall, hinner⟩ := w.whole (htruncated ▸ hwhole)
  -- the result has no edge twice, so that it is shorter than the limit and nothing was cut
  have hlength : ((neighbors tables query).edges.length : ℕ∞) < query.limitBound := by
    rw [← encard_mem h.once]
    refine (Set.encard_le_encard fun edge hedge => ?_ : _ ≤ (rowToEdge '' traversed tables query root).encard).trans_lt ?_
    · obtain ⟨row, hrow, rfl⟩ := h.walked edge hedge
      exact ⟨row, hrow, rfl⟩
    · rw [(rowToEdge_injective.injOn (s := traversed tables query root)).encard_image]
      exact hedges
  have hlength' : (neighbors tables query).edges.length < query.limitBound := by exact_mod_cast hlength
  have huncut : (neighbors tables query).edges = (neighborWalk tables query root).visitedEdges.insertionSort fun e f => edgeKey e ≤ edgeKey f := by
    rw [hshown] at hlength' ⊢
    refine take_of_length_le ?_
    rw [length_take] at hlength'
    omega
  have hnodup := h.once
  rw [huncut, (perm_insertionSort _ _).nodup_iff, w.edges_eq, hall, map_flatMap] at hnodup
  exact followedOnce_of_nodup hinner (List.Nodup.of_map _ hnodup)

/-- Exact where no edge is followed from both ends and, unless cut off, only symbols are reached. -/
theorem returns_neighbours_iff :
    (FollowedOnce tables query root ∧ SymbolsOnly tables query root → ReturnsNeighbours tables query root (neighbors tables query)) ∧
      (ReturnsNeighbours tables query root (neighbors tables query) → SymbolsOnly tables query root ∧
        ((symbolsMet tables query root).encard < query.limitBound → (traversed tables query root).encard < query.limitBound →
          FollowedOnce tables query root)) :=
  ⟨fun ⟨honce, honly⟩ => returns_of_once hroot honce honly,
    fun h => ⟨symbolsOnly_of_returns hroot h, fun hbelow hedges => once_of_returns hroot h hbelow hedges⟩⟩

end Result

/-! ## An import that is not resolved -/

def importing : Tables where
  symbols := [⟨"a", "m.a", "function", "m.py", "s", "python_ast", 1⟩]
  edges := [⟨"e1", "a", "unresolved:os", "imports", "m.py", "extracted", 1, none⟩]
  symbolKeys := by decide
  edgeKeys := by decide

def ofImporting : NeighborsQuery := { target := "m.a" }

theorem returns_neighbours_importing : (FollowedOnce importing ofImporting "a" ∧ SymbolsOnly importing ofImporting "a" →
        ReturnsNeighbours importing ofImporting "a" (neighbors importing ofImporting)) ∧
      (ReturnsNeighbours importing ofImporting "a" (neighbors importing ofImporting) → SymbolsOnly importing ofImporting "a" ∧
        ((symbolsMet importing ofImporting "a").encard < ofImporting.limitBound →
          (traversed importing ofImporting "a").encard < ofImporting.limitBound → FollowedOnce importing ofImporting "a")) :=
  returns_neighbours_iff (by decide +kernel)

/-- The edge is returned, its other end is not. -/
theorem unresolved_end_left_out : resolveTarget importing ofImporting.target = some "a" ∧
      ¬ ReturnsNeighbours importing ofImporting "a" (neighbors importing ofImporting) := by
  refine ⟨by decide +kernel, fun h => ?_⟩
  have hwhole : (neighbors importing ofImporting).truncated = false := by decide +kernel
  have hedge : rowToEdge ⟨"e1", "a", "unresolved:os", "imports", "m.py", "extracted", 1, none⟩ ∈
      (neighbors importing ofImporting).edges := by decide +kernel
  have hnodes : (neighbors importing ofImporting).nodes = [] := by decide +kernel
  obtain ⟨node, hnode, -⟩ := h.ends hwhole _ hedge "unresolved:os" (.inr rfl) (by decide)
  rw [hnodes] at hnode
  exact not_mem_nil hnode

end RalphWorkflow.Explore.Graph
