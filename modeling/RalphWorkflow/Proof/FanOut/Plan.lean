import Mathlib.Data.Fintype.Card
import Mathlib.Data.List.Flatten
import Mathlib.Data.List.Pairwise
import Mathlib.Data.Set.Finite.Basic
import RalphWorkflow.Pipeline.Parallel.Coordinator

/-! `validate_graph` accepts a list of units exactly when their ids are distinct, their dependencies name units of the list,
and no unit depends on itself over others. A plan loses none of this when units are taken out that no other one needs. -/
namespace RalphWorkflow.FanOut
open Relation Lib Pipeline List

def ids (units : List WorkUnit) : List String := units.map WorkUnit.unitId

def DependsOn (units : List WorkUnit) (a b : String) : Prop := ∃ unit ∈ units, unit.unitId = a ∧ b ∈ unit.dependencies

structure ValidPlan (units : List WorkUnit) : Prop where
  unique : (ids units).Nodup
  known : ∀ unit ∈ units, ∀ dep ∈ unit.dependencies, dep ∈ ids units
  acyclic : ∀ a, ¬ TransGen (DependsOn units) a a

variable {units : List WorkUnit}

theorem mem_ids {unit : WorkUnit} (h : unit ∈ units) : unit.unitId ∈ ids units :=
  mem_map.mpr ⟨unit, h, rfl⟩

theorem unit_eq_of_id (hunique : (ids units).Nodup) {a b : WorkUnit} (ha : a ∈ units) (hb : b ∈ units) (h : a.unitId = b.unitId) : a = b :=
  inj_on_of_nodup_map hunique ha hb h

/-! ## The checks -/

theorem checkUnique_iff (seen unitIds : List String) : checkUnique seen unitIds = .ok () ↔ unitIds.Nodup ∧ ∀ x ∈ unitIds, x ∉ seen := by
  induction unitIds generalizing seen with
  | nil =>
    refine iff_of_true rfl ⟨nodup_nil, ?_⟩
    intro x hx
    cases hx
  | cons x rest ih =>
    rw [checkUnique]
    split
    · rename_i hseen
      refine iff_of_false (fun h => by cases h) ?_
      exact fun h => h.2 x mem_cons_self hseen
    · rename_i hfresh
      rw [ih, nodup_cons]
      constructor
      · rintro ⟨hnodup, hrest⟩
        refine ⟨⟨fun hx => hrest x hx mem_cons_self, hnodup⟩, ?_⟩
        intro y hy
        rcases mem_cons.mp hy with rfl | hy
        · exact hfresh
        · exact fun hmem => hrest y hy (mem_cons_of_mem x hmem)
      · rintro ⟨⟨hx, hnodup⟩, hall⟩
        refine ⟨hnodup, ?_⟩
        intro y hy hmem
        rcases mem_cons.mp hmem with rfl | hmem
        · exact hx hy
        · exact hall y (mem_cons_of_mem x hy) hmem

theorem checkDependencies_iff (known : List String) (unit : WorkUnit) : checkDependencies known unit = .ok () ↔
      unit.unitId ∉ unit.dependencies ∧ ∀ dep ∈ unit.dependencies, dep ∈ known := by
  unfold checkDependencies
  rw [bind_eq_ok_iff]
  constructor
  · rintro ⟨_, hself, hall⟩
    rw [require_eq_ok_iff] at hself
    refine ⟨by simpa using hself, ?_⟩
    intro dep hdep
    have hdep' := (forM_eq_ok_iff _ _).mp hall dep hdep
    rw [require_eq_ok_iff] at hdep'
    simpa using hdep'
  · rintro ⟨hself, hall⟩
    refine ⟨(), (require_eq_ok_iff _ _).mpr (by simpa using hself), (forM_eq_ok_iff _ _).mpr ?_⟩
    intro dep hdep
    exact (require_eq_ok_iff _ _).mpr (by simpa using hall dep hdep)

theorem dependencyMap_entries (hunique : (ids units).Nodup) :
    (dependencyMap units).entries = units.map fun unit => (unit.unitId, unit.dependencies) := by
  refine Dict.entries_ofList _ ?_
  rw [List.map_map]
  exact hunique

theorem dependencyMap_keys (hunique : (ids units).Nodup) : (dependencyMap units).keys = ids units := by
  unfold Dict.keys
  rw [dependencyMap_entries hunique, List.map_map]
  rfl

theorem edge_iff (hunique : (ids units).Nodup) (a b : String) :
    Dfs.Edge (fun node => (dependencyMap units).getD node []) a b ↔ DependsOn units a b := by
  show b ∈ ((dependencyMap units).get? a).getD [] ↔ _
  constructor
  · intro hb
    cases hget : (dependencyMap units).get? a with
    | none =>
      rw [hget] at hb
      cases hb
    | some deps =>
      rw [hget] at hb
      rw [Dict.get?_eq_some_iff, dependencyMap_entries hunique] at hget
      obtain ⟨unit, hunit, heq⟩ := mem_map.mp hget
      cases heq
      exact ⟨unit, hunit, rfl, hb⟩
  · rintro ⟨unit, hunit, rfl, hb⟩
    have hget : (dependencyMap units).get? unit.unitId = some unit.dependencies := by
      rw [Dict.get?_eq_some_iff, dependencyMap_entries hunique]
      exact mem_map.mpr ⟨unit, hunit, rfl⟩
    rw [hget]
    exact hb

theorem validateAcyclic_iff (hunique : (ids units).Nodup) :
    validateAcyclic (dependencyMap units) = .ok () ↔ ∀ a, ¬ TransGen (DependsOn units) a a := by
  have hedges : Dfs.Edge (fun node => (dependencyMap units).getD node []) = DependsOn units := by
    funext a b
    exact propext (edge_iff hunique a b)
  have hsources : ∀ a, (dependencyMap units).getD a [] ≠ [] → a ∈ (dependencyMap units).keys := by
    intro a ha
    rw [dependencyMap_keys hunique]
    obtain ⟨b, hb⟩ := exists_mem_of_ne_nil _ ha
    obtain ⟨unit, hunit, rfl, -⟩ := (edge_iff hunique a b).mp hb
    exact mem_ids hunit
  have haccepts := Dfs.accepts_iff_acyclic hsources
  unfold Dfs.Acyclic at haccepts
  rw [hedges] at haccepts
  rw [← haccepts]
  unfold validateAcyclic
  dsimp only
  split
  · rename_i done hdone
    exact iff_of_true rfl ⟨done, hdone⟩
  · rename_i node hnode
    refine iff_of_false (fun h => by cases h) ?_
    rintro ⟨done, hdone⟩
    rw [hnode] at hdone
    cases hdone

theorem not_self (hacyclic : ∀ a, ¬ TransGen (DependsOn units) a a) {unit : WorkUnit} (hunit : unit ∈ units) : unit.unitId ∉ unit.dependencies :=
  fun hself => hacyclic unit.unitId (TransGen.single ⟨unit, hunit, rfl, hself⟩)

theorem validateGraph_iff (units : List WorkUnit) : validateGraph units = .ok () ↔ ValidPlan units := by
  unfold validateGraph
  rw [bind_eq_ok_iff]
  constructor
  · rintro ⟨_, hunique, hrest⟩
    have hnodup := ((checkUnique_iff _ _).mp hunique).1
    rw [bind_eq_ok_iff] at hrest
    obtain ⟨_, hknown, hacyclic⟩ := hrest
    refine ⟨hnodup, ?_, (validateAcyclic_iff hnodup).mp hacyclic⟩
    intro unit hunit
    exact ((checkDependencies_iff _ _).mp ((forM_eq_ok_iff _ _).mp hknown unit hunit)).2
  · intro h
    refine ⟨(), (checkUnique_iff _ _).mpr ⟨h.unique, fun _ _ => not_mem_nil⟩, ?_⟩
    rw [bind_eq_ok_iff]
    refine ⟨⟨⟩, (forM_eq_ok_iff _ _).mpr ?_, (validateAcyclic_iff h.unique).mpr h.acyclic⟩
    intro unit hunit
    exact (checkDependencies_iff _ _).mpr ⟨not_self h.acyclic hunit, h.known unit hunit⟩

/-! ## Ready units -/

theorem ValidPlan.exists_ready (h : ValidPlan units) {done : List String} {a : String}
    (ha : a ∈ ids units) (hundone : a ∉ done) : ∃ unit ∈ units, unit.unitId ∉ done ∧ ∀ dep ∈ unit.dependencies, dep ∈ done := by
  have hwf : WellFounded fun y x : ↥{b | b ∈ ids units} => TransGen (DependsOn units) x.1 y.1 := by
    have : Finite ↥{b | b ∈ ids units} := finite_toSet (ids units)
    have : IsTrans ↥{b | b ∈ ids units} fun y x => TransGen (DependsOn units) x.1 y.1 :=
      ⟨fun _ _ _ hab hbc => hbc.trans hab⟩
    have : Std.Irrefl fun y x : ↥{b | b ∈ ids units} => TransGen (DependsOn units) x.1 y.1 :=
      ⟨fun x hx => h.acyclic x.1 hx⟩
    exact Finite.wellFounded_of_trans_of_irrefl _
  obtain ⟨⟨m, hm⟩, hundone', hmin⟩ := hwf.has_min {b | b.1 ∉ done} ⟨⟨a, ha⟩, hundone⟩
  obtain ⟨unit, hunit, rfl⟩ := mem_map.mp hm
  refine ⟨unit, hunit, hundone', ?_⟩
  intro dep hdep
  by_contra hnot
  exact hmin ⟨dep, h.known unit hunit dep hdep⟩ hnot (TransGen.single ⟨unit, hunit, rfl, hdep⟩)

end RalphWorkflow.FanOut

/-! ## Disjoint edit areas

Paths are compared part by part. Where a plan is accepted for workers that share a checkout, no directory of one unit lies
on the way to a directory of another, and no directory of any unit touches a reserved one.
-/

namespace RalphWorkflow.FanOut

open Lib Lib.Text Pipeline List


def Encloses (outer inner : String) : Prop := pathParts outer <+: pathParts inner

def InEditArea (unit : WorkUnit) (path : String) : Prop := ∃ directory ∈ unit.allowedDirectories, Encloses directory path

/-- No directory of one unit is equal to, an ancestor of or a descendant of a directory of the other. -/
def AreasApart (u v : WorkUnit) : Prop :=
  ∀ a ∈ u.allowedDirectories, ∀ b ∈ v.allowedDirectories, ¬ Encloses a b ∧ ¬ Encloses b a

def reservedDirectories : List String := [".agent", ".git", ".worktrees"]

/-! ## Paths part by part -/

theorem pathPartsOverlap_iff (a b : List String) : pathPartsOverlap a b = true ↔ a <+: b ∨ b <+: a := by
  unfold pathPartsOverlap
  split
  · rename_i hle
    rw [beq_iff_eq, prefix_iff_eq_take, eq_comm]
    refine ⟨.inl, fun h => h.elim id fun hba => ?_⟩
    rw [List.IsPrefix.eq_of_length_le hba hle, take_length]
  · rename_i hlt
    rw [beq_iff_eq]
    refine ⟨fun h => .inr (prefix_iff_eq_take.mpr h.symm), fun h => ?_⟩
    rcases h with hab | hba
    · exact absurd hab.length_le hlt
    · exact (prefix_iff_eq_take.mp hba).symm

theorem encloses_total {a b path : String} (ha : Encloses a path) (hb : Encloses b path) : Encloses a b ∨ Encloses b a :=
  prefix_or_prefix_of_prefix ha hb

theorem AreasApart.disjoint {u v : WorkUnit} (h : AreasApart u v) (path : String) : ¬ (InEditArea u path ∧ InEditArea v path) := by
  rintro ⟨⟨a, ha, hpath⟩, ⟨b, hb, hpath'⟩⟩
  obtain ⟨hab, hba⟩ := h a ha b hb
  exact (encloses_total hpath hpath').elim hab hba

/-! ## The areas of a plan -/

theorem pathPartsOverlap_symm (a b : List String) : pathPartsOverlap a b = pathPartsOverlap b a := by
  unfold pathPartsOverlap
  by_cases hlt : a.length < b.length
  · rw [if_pos hlt.le, if_neg (by omega)]
  · by_cases heq : a.length = b.length
    · rw [if_pos heq.le, if_pos heq.ge, heq, take_length, ← heq, take_length]
      exact Bool.beq_comm
    · rw [if_neg (by omega), if_pos (by omega)]

def Apart (a b : EditArea) : Prop := checkOverlap a b = .ok ()

theorem apart_iff (a b : EditArea) :
    Apart a b ↔ a.unitId = b.unitId ∨ pathPartsOverlap (pathParts a.directory) (pathParts b.directory) = false := by
  unfold Apart checkOverlap
  rw [require_eq_ok_iff, Bool.or_eq_true, beq_iff_eq, Bool.not_eq_true']

theorem Apart.symm {a b : EditArea} (h : Apart a b) : Apart b a := by
  rw [apart_iff] at h ⊢
  rw [pathPartsOverlap_symm]
  exact h.imp_left Eq.symm

instance : Std.Symm Apart := ⟨fun _ _ h => h.symm⟩

theorem checkNoOverlap_iff (areas : List EditArea) : checkNoOverlap areas = .ok () ↔ areas.Pairwise Apart := by
  induction areas with
  | nil => exact iff_of_true rfl List.Pairwise.nil
  | cons area rest ih =>
    rw [checkNoOverlap, bind_eq_ok_iff, pairwise_cons, ← ih]
    constructor
    · rintro ⟨_, hhead, hrest⟩
      exact ⟨(forM_eq_ok_iff _ _).mp hhead, hrest⟩
    · rintro ⟨hhead, hrest⟩
      exact ⟨(), (forM_eq_ok_iff _ _).mpr hhead, hrest⟩

def areasOf (unit : WorkUnit) : List EditArea := (sortedText unit.allowedDirectories).map fun d => ⟨unit.unitId, d⟩

theorem editAreas_pairwise_iff (units : List WorkUnit) : (editAreas units).Pairwise Apart ↔ (units.flatMap areasOf).Pairwise Apart := by
  have hperm : (editAreas units).Perm (units.flatMap areasOf) :=
    (perm_insertionSort (fun a b : WorkUnit => a.unitId ≤ b.unitId) units).flatMap_right areasOf
  exact hperm.pairwise_iff fun h => h.symm

theorem mem_areasOf {units : List WorkUnit} {unit : WorkUnit} (hunit : unit ∈ units) {directory : String}
    (h : directory ∈ unit.allowedDirectories) : ⟨unit.unitId, directory⟩ ∈ units.flatMap areasOf :=
  mem_flatMap.mpr ⟨unit, hunit, mem_map.mpr ⟨directory, (mem_sortedText _ _).mpr h, rfl⟩⟩

theorem apart_of_checked {units : List WorkUnit} (h : checkNoOverlap (editAreas units) = .ok ()) {u v : WorkUnit}
    (hu : u ∈ units) (hv : v ∈ units) (hids : u.unitId ≠ v.unitId) : AreasApart u v := by
  rw [checkNoOverlap_iff, editAreas_pairwise_iff] at h
  intro a ha b hb
  have hdistinct : (⟨u.unitId, a⟩ : EditArea) ≠ ⟨v.unitId, b⟩ := fun heq => hids (congrArg EditArea.unitId heq)
  have hapart := (apart_iff _ _).mp (h.forall (mem_areasOf hu ha) (mem_areasOf hv hb) hdistinct)
  have hoverlap := hapart.resolve_left hids
  rw [← Bool.not_eq_true, pathPartsOverlap_iff] at hoverlap
  exact not_or.mp hoverlap

/-! ## What the checks let pass -/

theorem checkReserved_ok {unitId directory : String} (h : checkReserved unitId directory = .ok ()) :
    ∃ first rest, pathParts directory = first :: rest ∧ first ∉ reservedDirectories := by
  unfold checkReserved at h
  split at h
  · cases h
  · rename_i first rest hparts
    refine ⟨first, rest, hparts, ?_⟩
    split at h
    · cases h
    · rename_i hworktrees
      split at h
      · cases h
      · rename_i hreserved
        rw [Bool.or_eq_true, Bool.or_eq_true, not_or, not_or] at hreserved
        simp only [decide_eq_true_eq] at hreserved
        simp only [reservedDirectories, mem_cons, not_mem_nil, or_false, not_or]
        exact ⟨hreserved.1.2, hreserved.2, hworktrees⟩

theorem validateRelativeSubpath_ok {path path' : String} (h : validateRelativeSubpath path = .ok path') :
    isAbsolute path = false ∧ ".." ∉ pathParts path := by
  unfold validateRelativeSubpath at h
  simp only [bind_eq_ok_iff, require_eq_ok_iff] at h
  obtain ⟨_, -, _, -, _, habsolute, _, hparent, -⟩ := h
  refine ⟨by simpa using habsolute, by simpa using hparent⟩

theorem relative_of_built (plan : WorkUnitsPlan) {unit : WorkUnit} (hunit : unit ∈ plan.workUnits) {directory : String}
    (h : directory ∈ unit.allowedDirectories) : isAbsolute directory = false ∧ ".." ∉ pathParts directory := by
  obtain ⟨_, hpath⟩ := forall_of_mapM_eq_ok (plan.built unit hunit) directory h
  exact validateRelativeSubpath_ok hpath

theorem reserved_parts {reserved : String} (h : reserved ∈ reservedDirectories) : pathParts reserved = [reserved] := by
  simp only [reservedDirectories, mem_cons, not_mem_nil, or_false] at h
  rcases h with rfl | rfl | rfl <;> decide

theorem reserved_free {directory first : String} {rest : List String} (hparts : pathParts directory = first :: rest)
    (hfirst : first ∉ reservedDirectories) {reserved : String} (h : reserved ∈ reservedDirectories) :
    ¬ Encloses reserved directory ∧ ¬ Encloses directory reserved := by
  unfold Encloses
  rw [hparts, reserved_parts h, prefix_cons_iff, prefix_cons_iff]
  constructor
  · rintro (hnil | ⟨tail, hcons, -⟩)
    · cases hnil
    · exact hfirst ((List.cons.inj hcons).1 ▸ h)
  · rintro (hnil | ⟨tail, hcons, -⟩)
    · cases hnil
    · exact hfirst ((List.cons.inj hcons).1 ▸ h)

/-! ## Plans for a shared checkout -/

theorem checkEditAreas_ok {unit : WorkUnit} (h : checkEditAreas unit = .ok ()) {directory : String}
    (hdirectory : directory ∈ unit.allowedDirectories) : checkReserved unit.unitId directory = .ok () := by
  unfold checkEditAreas at h
  obtain ⟨_, -, hall⟩ := (bind_eq_ok_iff _ _ _).mp h
  exact (forM_eq_ok_iff _ _).mp hall directory hdirectory

theorem edit_areas_disjoint (plan : WorkUnitsPlan) (h : validateForSameWorkspace plan.workUnits = .ok ()) : plan.workUnits.Pairwise AreasApart ∧
      (∀ unit ∈ plan.workUnits, ∀ directory ∈ unit.allowedDirectories,
        isAbsolute directory = false ∧ ".." ∉ pathParts directory ∧ pathParts directory ≠ [] ∧
          ∀ reserved ∈ reservedDirectories, ¬ Encloses reserved directory ∧ ¬ Encloses directory reserved) ∧
      ∀ path, plan.workUnits.Pairwise fun u v => ¬ (InEditArea u path ∧ InEditArea v path) := by
  obtain ⟨_, hareas, hoverlap⟩ := (bind_eq_ok_iff _ _ _).mp h
  have hunique : (ids plan.workUnits).Nodup := ((validateGraph_iff _).mp plan.graph).unique
  have happart : plan.workUnits.Pairwise AreasApart :=
    (pairwise_map.mp hunique).imp_of_mem fun hu hv hids => apart_of_checked hoverlap hu hv hids
  refine ⟨happart, fun unit hunit directory hdirectory => ?_, fun path => happart.imp fun hapart => hapart.disjoint path⟩
  obtain ⟨habsolute, hparent⟩ := relative_of_built plan hunit hdirectory
  have hchecked := (forM_eq_ok_iff _ _).mp hareas unit hunit
  obtain ⟨first, rest, hparts, hfirst⟩ := checkReserved_ok (checkEditAreas_ok hchecked hdirectory)
  refine ⟨habsolute, hparent, ?_, fun reserved hreserved => reserved_free hparts hfirst hreserved⟩
  rw [hparts]
  exact cons_ne_nil _ _

/-- Two units whose directories share a textual prefix, in spellings that are not normal. -/
def neighbours : WorkUnitsPlan where
  workUnits := [⟨"api", ["./src//api/"], []⟩, ⟨"client", ["src/api2", "docs"], ["api"]⟩]
  built := by decide
  graph := by decide

theorem neighbours_apart : neighbours.workUnits.Pairwise AreasApart ∧
    ∀ path, neighbours.workUnits.Pairwise fun u v => ¬ (InEditArea u path ∧ InEditArea v path) :=
  have h := edit_areas_disjoint neighbours (by decide)
  ⟨h.1, h.2.2⟩

end RalphWorkflow.FanOut
