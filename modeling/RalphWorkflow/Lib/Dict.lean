import Mathlib.Data.List.Nodup

/-! A finite map kept as its entries in insertion order, each key once. Assigning to a key that is already there keeps its place; assigning to a new
key appends. -/
namespace RalphWorkflow.Lib
open List

universe u v

structure Dict (κ : Type u) (ν : Type v) where
  entries : List (κ × ν)
  nodup : (entries.map Prod.fst).Nodup

namespace Dict

variable {κ : Type u} {ν : Type v} [DecidableEq κ]

instance [DecidableEq ν] : DecidableEq (Dict κ ν) := fun d e =>
  decidable_of_iff (d.entries = e.entries) ⟨fun h => by cases d; cases e; cases h; rfl, fun h => h ▸ rfl⟩

def keys (d : Dict κ ν) : List κ := d.entries.map Prod.fst

def values (d : Dict κ ν) : List ν := d.entries.map Prod.snd

def get? (d : Dict κ ν) (k : κ) : Option ν := d.entries.lookup k

def getD (d : Dict κ ν) (k : κ) (default : ν) : ν := (d.get? k).getD default

def contains (d : Dict κ ν) (k : κ) : Bool := (d.get? k).isSome

def empty : Dict κ ν := ⟨[], nodup_nil⟩

instance : EmptyCollection (Dict κ ν) := ⟨empty⟩

/-! ## Assignment -/

def assign (k : κ) (v : ν) : List (κ × ν) → List (κ × ν)
  | [] => [(k, v)]
  | (k', v') :: rest => if k' = k then (k, v) :: rest else (k', v') :: assign k v rest

theorem assign_keys (k : κ) (v : ν) (es : List (κ × ν)) : (assign k v es).map Prod.fst =
      if k ∈ es.map Prod.fst then es.map Prod.fst else es.map Prod.fst ++ [k] := by
  induction es with
  | nil => rfl
  | cons e rest ih =>
    obtain ⟨k', v'⟩ := e
    by_cases h : k' = k
    · subst h
      simp [assign]
    · have hne : ¬ k = k' := fun hk => h hk.symm
      simp only [assign, if_neg h, map_cons, ih, mem_cons, hne, false_or]
      split <;> rfl

theorem assign_nodup (k : κ) (v : ν) (es : List (κ × ν)) (h : (es.map Prod.fst).Nodup) : ((assign k v es).map Prod.fst).Nodup := by
  rw [assign_keys]
  split
  · exact h
  · rename_i hk
    exact h.append (nodup_singleton k) (by simpa using hk)

theorem lookup_cons_ite (k k₀ : κ) (v₀ : ν) (rest : List (κ × ν)) : ((k₀, v₀) :: rest).lookup k = if k = k₀ then some v₀ else rest.lookup k := by
  by_cases h : k = k₀
  · subst h
    simp
  · have hb : (k == k₀) = false := by simp [h]
    simp only [List.lookup_cons, hb, if_neg h]

theorem lookup_assign (k k' : κ) (v : ν) (es : List (κ × ν)) : (assign k v es).lookup k' = if k' = k then some v else es.lookup k' := by
  induction es with
  | nil => exact lookup_cons_ite k' k v []
  | cons e rest ih =>
    obtain ⟨k₀, v₀⟩ := e
    by_cases h₀ : k₀ = k
    · subst h₀
      simp only [assign, if_pos, lookup_cons_ite]
      split <;> rfl
    · simp only [assign, if_neg h₀, lookup_cons_ite, ih]
      by_cases h : k' = k₀
      · simp [h, h₀]
      · simp only [if_neg h]

def set (d : Dict κ ν) (k : κ) (v : ν) : Dict κ ν :=
  ⟨assign k v d.entries, assign_nodup k v d.entries d.nodup⟩

def ofList (es : List (κ × ν)) : Dict κ ν :=
  es.foldl (fun d e => d.set e.1 e.2) empty

@[simp] theorem get?_set (d : Dict κ ν) (k k' : κ) (v : ν) : (d.set k v).get? k' = if k' = k then some v else d.get? k' :=
  lookup_assign k k' v d.entries

@[simp] theorem getD_set (d : Dict κ ν) (k k' : κ) (v default : ν) : (d.set k v).getD k' default = if k' = k then v else d.getD k' default := by
  unfold getD
  rw [get?_set]
  split <;> rfl

@[simp] theorem get?_empty (k : κ) : (∅ : Dict κ ν).get? k = none := rfl

theorem assign_fresh (k : κ) (v : ν) (es : List (κ × ν)) (h : k ∉ es.map Prod.fst) : assign k v es = es ++ [(k, v)] := by
  induction es with
  | nil => rfl
  | cons e rest ih =>
    obtain ⟨k', v'⟩ := e
    rw [map_cons, mem_cons, not_or] at h
    have hne : ¬ k' = k := fun hk => h.1 hk.symm
    rw [assign, if_neg hne, ih h.2]
    rfl

theorem entries_ofList (es : List (κ × ν)) (h : (es.map Prod.fst).Nodup) : (ofList es).entries = es := by
  have hfold : ∀ (rest : List (κ × ν)) (d : Dict κ ν), ((d.entries ++ rest).map Prod.fst).Nodup →
      (rest.foldl (fun d e => d.set e.1 e.2) d).entries = d.entries ++ rest := by
    intro rest
    induction rest with
    | nil => exact fun d _ => (append_nil d.entries).symm
    | cons e rest ih =>
      intro d hd
      have hfresh : e.1 ∉ d.entries.map Prod.fst := by
        rw [map_append, map_cons] at hd
        exact fun hmem => (nodup_append.mp hd).2.2 e.1 hmem e.1 mem_cons_self rfl
      have hset : (d.set e.1 e.2).entries = d.entries ++ [e] := assign_fresh e.1 e.2 d.entries hfresh
      rw [foldl_cons, ih (d.set e.1 e.2) (by rwa [hset, append_assoc]), hset, append_assoc]
      rfl
  exact hfold es empty h

theorem assign_self (k : κ) (v : ν) (es : List (κ × ν)) (h : es.lookup k = some v) : assign k v es = es := by
  induction es with
  | nil => cases h
  | cons e rest ih =>
    obtain ⟨k', v'⟩ := e
    rw [lookup_cons_ite] at h
    by_cases heq : k' = k
    · subst heq
      rw [if_pos rfl] at h
      cases h
      rw [assign, if_pos rfl]
    · rw [if_neg fun hk => heq hk.symm] at h
      rw [assign, if_neg heq, ih h]

theorem set_eq_self {d : Dict κ ν} {k : κ} {v : ν} (h : d.get? k = some v) : d.set k v = d := by
  obtain ⟨entries, hnodup⟩ := d
  simp only [set, assign_self k v entries h]

theorem get?_ofList_map (f : κ → ν) (ks : List κ) (k : κ) : (ofList (ks.map fun k => (k, f k))).get? k = if k ∈ ks then some (f k) else none := by
  have hfold : ∀ (ks : List κ) (d : Dict κ ν), ((ks.map fun k => (k, f k)).foldl (fun d e => d.set e.1 e.2) d).get? k =
      if k ∈ ks then some (f k) else d.get? k := by
    intro ks
    induction ks with
    | nil => exact fun d => rfl
    | cons key ks ih =>
      intro d
      rw [map_cons, foldl_cons, ih, get?_set]
      by_cases hmem : k ∈ ks
      · rw [if_pos hmem, if_pos (mem_cons_of_mem _ hmem)]
      · by_cases hkey : k = key
        · subst hkey
          simp [hmem]
        · simp [hmem, hkey]
  exact hfold ks empty

/-! ## Membership -/

theorem get?_eq_some_iff (d : Dict κ ν) (k : κ) (v : ν) : d.get? k = some v ↔ (k, v) ∈ d.entries := by
  obtain ⟨es, hes⟩ := d
  show es.lookup k = some v ↔ (k, v) ∈ es
  induction es with
  | nil => simp
  | cons e rest ih =>
    obtain ⟨k₀, v₀⟩ := e
    rw [map_cons, nodup_cons] at hes
    by_cases h : k = k₀
    · subst h
      have hfresh : ∀ w, (k, w) ∉ rest := fun w hw => hes.1 (mem_map.mpr ⟨(k, w), hw, rfl⟩)
      simp only [lookup_cons_self, Option.some.injEq, mem_cons, Prod.mk.injEq, true_and, hfresh,
        or_false, eq_comm]
    · rw [lookup_cons_ite, if_neg h, ih hes.2, mem_cons, Prod.mk.injEq]
      simp only [h, false_and, false_or]

theorem contains_iff (d : Dict κ ν) (k : κ) : d.contains k = true ↔ ∃ v, d.get? k = some v := by
  unfold contains
  exact Option.isSome_iff_exists

theorem mem_values_of_get? (d : Dict κ ν) (k : κ) (v : ν) (h : d.get? k = some v) : v ∈ d.values :=
  mem_map.mpr ⟨(k, v), (get?_eq_some_iff d k v).mp h, rfl⟩

theorem mem_keys_iff (d : Dict κ ν) (k : κ) : k ∈ d.keys ↔ d.contains k = true := by
  rw [contains_iff]
  unfold keys
  rw [mem_map]
  constructor
  · rintro ⟨⟨k', v⟩, hmem, rfl⟩
    exact ⟨v, (get?_eq_some_iff d k' v).mpr hmem⟩
  · rintro ⟨v, hv⟩
    exact ⟨(k, v), (get?_eq_some_iff d k v).mp hv, rfl⟩

theorem mem_values_iff (d : Dict κ ν) (v : ν) : v ∈ d.values ↔ ∃ k, d.get? k = some v := by
  constructor
  · intro h
    obtain ⟨⟨k, v'⟩, hmem, rfl⟩ := mem_map.mp h
    exact ⟨k, (get?_eq_some_iff d k v').mpr hmem⟩
  · rintro ⟨k, hk⟩
    exact mem_values_of_get? d k v hk

/-! ## Deletion -/

def erase (d : Dict κ ν) (k : κ) : Dict κ ν :=
  ⟨d.entries.filter fun e => e.1 ≠ k, d.nodup.sublist (filter_sublist.map Prod.fst)⟩

@[simp] theorem get?_erase (d : Dict κ ν) (k k' : κ) : (d.erase k).get? k' = if k' = k then none else d.get? k' := by
  apply Option.ext
  intro v
  have hmem : (k', v) ∈ (d.erase k).entries ↔ (k', v) ∈ d.entries ∧ k' ≠ k := by
    simp only [erase, mem_filter, decide_eq_true_eq]
  rw [get?_eq_some_iff, hmem]
  by_cases h : k' = k
  · simp [h]
  · simp [h, get?_eq_some_iff]

/-! ## Selection -/

def filter (d : Dict κ ν) (p : κ → ν → Bool) : Dict κ ν :=
  ⟨d.entries.filter fun e => p e.1 e.2, d.nodup.sublist (filter_sublist.map Prod.fst)⟩

theorem get?_filter_eq_some_iff {d : Dict κ ν} {p : κ → ν → Bool} {k : κ} {v : ν} :
    (d.filter p).get? k = some v ↔ d.get? k = some v ∧ p k v = true := by
  rw [get?_eq_some_iff, get?_eq_some_iff]
  exact mem_filter

def drop (d : Dict κ ν) (n : Nat) : Dict κ ν :=
  ⟨d.entries.drop n, d.nodup.sublist ((drop_sublist n d.entries).map Prod.fst)⟩

theorem get?_of_drop {d : Dict κ ν} {n : Nat} {k : κ} {v : ν} (h : (d.drop n).get? k = some v) : d.get? k = some v := by
  rw [get?_eq_some_iff] at h ⊢
  exact mem_of_mem_drop h

def map {μ : Type v} (d : Dict κ ν) (f : κ → ν → μ) : Dict κ μ :=
  ⟨d.entries.map fun e => (e.1, f e.1 e.2), by
    have hkeys : (d.entries.map fun e => (e.1, f e.1 e.2)).map Prod.fst = d.entries.map Prod.fst := by
      rw [map_map]
      rfl
    rw [hkeys]
    exact d.nodup⟩

omit [DecidableEq κ] in
theorem keys_map {μ : Type v} (d : Dict κ ν) (f : κ → ν → μ) : (d.map f).keys = d.keys := by
  rw [keys, keys, map, map_map]
  rfl

end Dict

end RalphWorkflow.Lib
