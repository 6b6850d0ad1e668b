import Mathlib.Data.List.Nodup
import Mathlib.Data.List.Perm.Subperm
import Mathlib.Logic.Relation
import Mathlib.Order.WellFounded

/-! The search marks a node while its successors are visited, a path, and again when they are done. It accepts exactly the graphs without a cycle,
no deeper than there are nodes with successors. -/
namespace RalphWorkflow.Lib.Dfs
open Relation List

universe u

variable {α : Type u}

def visitAll (one : α → List α → Except α (List α)) : List α → List α → Except α (List α)
  | [], done => .ok done
  | node :: rest, done =>
    match one node done with
    | .error cycle => .error cycle
    | .ok done' => visitAll one rest done'

/-- What is finished afterwards, or the node a cycle was met at. The number bounds the depth. -/
def visit [DecidableEq α] (next : α → List α) : Nat → List α → α → List α → Except α (List α)
  | 0, _, node, _ => .error node
  | depth + 1, path, node, done =>
    if node ∈ done then .ok done
    else if node ∈ path then .error node
    else
      match visitAll (visit next depth (node :: path)) (next node) done with
      | .error cycle => .error cycle
      | .ok done' => .ok (node :: done')

def Edge (next : α → List α) (a b : α) : Prop := b ∈ next a

def Acyclic (next : α → List α) : Prop := ∀ a, ¬ TransGen (Edge next) a a

/-! ## What has been finished -/

inductive Finished (next : α → List α) : List α → Prop
  | nil : Finished next []
  | cons {a : α} {done : List α} : next a ⊆ done → Finished next done → Finished next (a :: done)

theorem Finished.acc {next : α → List α} {done : List α} (h : Finished next done) : ∀ a ∈ done, Acc (fun y x => Edge next x y) a := by
  induction h with
  | nil =>
    intro a ha
    cases ha
  | cons hsub _ ih =>
    intro a ha
    rcases mem_cons.mp ha with rfl | ha
    · exact Acc.intro _ fun y hy => ih y (hsub hy)
    · exact ih a ha

theorem not_cycle_of_acc {next : α → List α} {a : α} (h : Acc (fun y x => Edge next x y) a) : ¬ TransGen (Edge next) a a := by
  induction h with
  | intro x _ ih =>
    intro hcycle
    obtain ⟨y, hxy, hyx⟩ := TransGen.head'_iff.mp hcycle
    exact ih y hxy (TransGen.tail' hyx hxy)

structure Visited (next : α → List α) (done : List α) (nodes : List α) (done' : List α) : Prop where
  finished : Finished next done'
  keeps : done ⊆ done'
  covers : nodes ⊆ done'

theorem visitAll_visited {next : α → List α} {one : α → List α → Except α (List α)}
    (hone : ∀ node done done', one node done = .ok done' → Finished next done → Visited next done [node] done')
    {nodes done done' : List α} (h : visitAll one nodes done = .ok done') (hdone : Finished next done) :
    Visited next done nodes done' := by
  induction nodes generalizing done with
  | nil =>
    cases h
    exact ⟨hdone, List.Subset.refl _, nil_subset _⟩
  | cons node rest ih =>
    rw [visitAll] at h
    split at h
    · cases h
    · rename_i mid hmid
      have hfirst := hone node done mid hmid hdone
      have hrest := ih h hfirst.finished
      refine ⟨hrest.finished, fun x hx => hrest.keeps (hfirst.keeps hx), ?_⟩
      intro x hx
      rcases mem_cons.mp hx with rfl | hx
      · exact hrest.keeps (hfirst.covers (mem_singleton_self x))
      · exact hrest.covers hx

theorem visitAll_error {one : α → List α → Except α (List α)} {nodes done : List α} {cycle : α}
    (h : visitAll one nodes done = .error cycle) : ∃ node ∈ nodes, ∃ seen, one node seen = .error cycle := by
  induction nodes generalizing done with
  | nil => cases h
  | cons node rest ih =>
    rw [visitAll] at h
    split at h
    · rename_i hone
      cases h
      exact ⟨node, mem_cons_self, done, hone⟩
    · obtain ⟨n, hn, seen, hseen⟩ := ih h
      exact ⟨n, mem_cons_of_mem node hn, seen, hseen⟩

section

variable [DecidableEq α]

theorem visit_visited {next : α → List α} {depth : Nat} {path : List α} {node : α} {done done' : List α}
    (h : visit next depth path node done = .ok done') (hdone : Finished next done) :
    Visited next done [node] done' := by
  induction depth generalizing path node done done' with
  | zero => cases h
  | succ depth ih =>
    rw [visit] at h
    split at h
    · rename_i hmem
      cases h
      exact ⟨hdone, List.Subset.refl _, cons_subset.mpr ⟨hmem, nil_subset _⟩⟩
    · split at h
      · cases h
      · split at h
        · cases h
        · rename_i mid hmid
          cases h
          have hnext := visitAll_visited (fun _ _ _ hone hd => ih hone hd) hmid hdone
          refine ⟨Finished.cons hnext.covers hnext.finished, ?_, ?_⟩
          · exact fun x hx => mem_cons_of_mem node (hnext.keeps hx)
          · exact cons_subset.mpr ⟨mem_cons_self, nil_subset _⟩

/-! ## When it stops early -/

/-- The path that leads to a node being visited: every node on it reaches the visited one, none twice. -/
structure Leads (next : α → List α) (sources : List α) (path : List α) (node : α) : Prop where
  reaches : ∀ p ∈ path, TransGen (Edge next) p node
  inside : path ⊆ sources
  nodup : path.Nodup

theorem visit_error {next : α → List α} {sources : List α} (hsources : ∀ a, next a ≠ [] → a ∈ sources) {depth : Nat}
    {path : List α} {node : α} {done : List α} {cycle : α} (hpath : Leads next sources path node)
    (hdepth : sources.length < depth + path.length) (h : visit next depth path node done = .error cycle) :
    TransGen (Edge next) cycle cycle := by
  induction depth generalizing path node done with
  | zero =>
    have hlength := (hpath.nodup.subperm hpath.inside).length_le
    omega
  | succ depth ih =>
    rw [visit] at h
    split at h
    · cases h
    · split at h
      · rename_i hmem
        cases h
        exact hpath.reaches _ hmem
      · rename_i hfresh
        split at h
        · rename_i hall
          cases h
          obtain ⟨child, hchild, seen, hseen⟩ := visitAll_error hall
          refine ih ⟨?_, ?_, nodup_cons.mpr ⟨hfresh, hpath.nodup⟩⟩ ?_ hseen
          · intro p hp
            rcases mem_cons.mp hp with rfl | hp
            · exact TransGen.single hchild
            · exact (hpath.reaches p hp).tail hchild
          · have hsource := hsources node (ne_nil_of_mem hchild)
            exact cons_subset.mpr ⟨hsource, hpath.inside⟩
          · rw [length_cons]
            omega
        · cases h

theorem accepts_iff_acyclic {next : α → List α} {sources : List α} (hsources : ∀ a, next a ≠ [] → a ∈ sources) :
    (∃ done, visitAll (visit next (sources.length + 1) []) sources [] = .ok done) ↔ Acyclic next := by
  constructor
  · rintro ⟨done, hdone⟩ a hcycle
    have hvisited := visitAll_visited (fun _ _ _ hone hd => visit_visited hone hd) hdone Finished.nil
    obtain ⟨b, hab, -⟩ := TransGen.head'_iff.mp hcycle
    have hmem := hvisited.covers (hsources a (ne_nil_of_mem hab))
    exact not_cycle_of_acc (hvisited.finished.acc a hmem) hcycle
  · intro hacyclic
    cases hresult : visitAll (visit next (sources.length + 1) []) sources [] with
    | ok done => exact ⟨done, rfl⟩
    | error cycle =>
      obtain ⟨node, -, seen, hseen⟩ := visitAll_error hresult
      have hroot : Leads next sources [] node := by
        refine ⟨?_, nil_subset _, nodup_nil⟩
        intro p hp
        cases hp
      exact absurd (visit_error hsources hroot (by simp) hseen) (hacyclic cycle)

end

end RalphWorkflow.Lib.Dfs
