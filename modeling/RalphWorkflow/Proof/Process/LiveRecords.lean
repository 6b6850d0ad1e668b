import Mathlib.Data.List.Perm.Basic
import RalphWorkflow.Process.Tracking

/-! A record becomes terminal once, whatever the threads do: the status is written under the lock and looked at there again. Its entries are
safe only as long as nobody writes under its PID for another record. -/
namespace RalphWorkflow.Processes
open Lib Option

variable {s next : ProcessManager} {i j : Nat} {r other : ProcessRecord} {label : Label}

structure Held (s : ProcessManager) : Prop where
  listed : ∀ i r, s.spawns[i]? = some r → r.live = true → i ∈ s.listActive
  held : ∀ i r, s.spawns[i]? = some r → r.live = true → r.stage = .tracked → (s.procs r.kind).get? r.pid = some i

def owed (s : ProcessManager) (i : Nat) : Nat :=
  s.unemitted.count i + if s.marking.map Prod.fst = some i then 1 else 0

def tally (s : ProcessManager) (f : ProcessRecord → Nat) (i : Nat) : Nat :=
  (s.spawns[i]?.map f).getD 0

/-- Terminal once or never, and with an event for it, or owed it. -/
structure Once (s : ProcessManager) : Prop where
  once : ∀ (i : Nat) (r : ProcessRecord), s.spawns[i]? = some r → r.transitions = if r.status.terminal then 1 else 0
  told : ∀ i, tally s (·.events) i + owed s i = tally s (·.transitions) i

def Free (s : ProcessManager) (i : Nat) (entry : ProcessRecord → Prop) : Prop :=
  ∀ j other, j ≠ i → s.spawns[j]? = some other → other.live = true → ¬entry other

def Listed (pid : Int) (other : ProcessRecord) : Prop :=
  other.pid = pid

def HeldAs (kind : Kind) (pid : Int) (other : ProcessRecord) : Prop :=
  other.stage = .tracked ∧ other.kind = kind ∧ other.pid = pid

/-- A spawn and a mark write an entry only while no other live record has it. -/
def Guarded (s : ProcessManager) : Label → Prop
  | .enter i => ∀ r, s.spawns[i]? = some r → Free s i (Listed r.pid)
  | .track i => ∀ r, s.spawns[i]? = some r → Free s i (HeldAs r.kind r.pid)
  | .pop =>
    ∀ i rest r, s.marking = some (i, rest) → s.spawns[i]? = some r →
      match rest with
      | kind :: _ => Free s i (HeldAs kind r.pid)
      | [] => Free s i (Listed r.pid)
  | _ => True

/-! ## Updates -/

variable {f : ProcessRecord → ProcessRecord} {k : Nat}

theorem update_get (h : s.spawns[j]? = some r) : (s.update i f).spawns[j]? = some (if i = j then f r else r) := by
  simp only [ProcessManager.update, List.getElem?_modify, h]
  rfl

theorem get_of_update (h : (s.update i f).spawns[j]? = some r) : ∃ before, s.spawns[j]? = some before ∧ r = if i = j then f before else before := by
  simp only [ProcessManager.update, List.getElem?_modify] at h
  obtain ⟨before, hbefore, hr⟩ := map_eq_some_iff.mp h
  exact ⟨before, hbefore, hr.symm⟩

theorem mem_listActive : i ∈ s.listActive ↔ (∃ pid, s.records.get? pid = some i) ∧ ∃ r, s.spawns[i]? = some r ∧ r.status.terminal = false := by
  rw [ProcessManager.listActive, List.mem_filter, Dict.mem_values_iff]
  refine and_congr_right fun _ => ?_
  cases s.spawns[i]? <;> simp

theorem live_iff : r.live = true ↔ r.status.terminal = false ∧ r.stage ≠ .launched := by
  simp [ProcessRecord.live]

/-! ## Entries -/

def Own (s : ProcessManager) : Prop :=
  ∀ pid i, s.records.get? pid = some i → ∃ r, s.spawns[i]? = some r ∧ r.pid = pid

theorem get?_of_listed (hown : Own s) (hget : s.spawns[i]? = some r) (h : i ∈ s.listActive) : s.records.get? r.pid = some i := by
  obtain ⟨⟨pid, hpid⟩, -⟩ := mem_listActive.mp h
  obtain ⟨same, hsame, rfl⟩ := hown pid i hpid
  cases hget.symm.trans hsame
  exact hpid

theorem listed_of_get? (hget : s.spawns[i]? = some r) (hlive : r.live = true) (h : s.records.get? r.pid = some i) : i ∈ s.listActive :=
  mem_listActive.mpr ⟨⟨r.pid, h⟩, r, hget, (live_iff.mp hlive).1⟩

theorem Held.quiet (h : Held s) (hrecords : next.records = s.records) (hprocs : next.procs = s.procs)
    (hspawns : ∀ (i : Nat) (r : ProcessRecord), next.spawns[i]? = some r → r.live = true →
      ∃ before : ProcessRecord, s.spawns[i]? = some before ∧ before.live = true ∧ before.pid = r.pid ∧ before.kind = r.kind ∧
        before.stage = r.stage) : Held next where
  listed i r hget hlive := by
    obtain ⟨before, hbefore, halive, -⟩ := hspawns i r hget hlive
    obtain ⟨hentry, -⟩ := mem_listActive.mp (h.listed i before hbefore halive)
    rw [← hrecords] at hentry
    exact mem_listActive.mpr ⟨hentry, r, hget, (live_iff.mp hlive).1⟩
  held i r hget hlive htracked := by
    obtain ⟨before, hbefore, halive, hpid, hkind, hstage⟩ := hspawns i r hget hlive
    rw [hprocs, ← hpid, ← hkind]
    exact h.held i before hbefore halive (hstage.trans htracked)

theorem Held.update (h : Held s) (hspawns : next.spawns = (s.update i f).spawns)
    (hf : ∀ r, ((f r).live = true → r.live = true) ∧ (f r).pid = r.pid ∧ (f r).kind = r.kind ∧ (f r).stage = r.stage)
    (hrecords : next.records = s.records) (hprocs : next.procs = s.procs) : Held next := by
  refine h.quiet hrecords hprocs fun j r hget hlive => ?_
  rw [hspawns] at hget
  obtain ⟨before, hbefore, rfl⟩ := get_of_update hget
  refine ⟨before, hbefore, ?_⟩
  obtain ⟨halive, hpid, hkind, hstage⟩ := hf before
  split_ifs at hlive ⊢ with hij
  · exact ⟨halive hlive, hpid.symm, hkind.symm, hstage.symm⟩
  · exact ⟨hlive, rfl, rfl, rfl⟩

theorem Own.keeps (h : Own s) (hrecords : ∀ pid i, next.records.get? pid = some i → s.records.get? pid = some i)
    (hspawns : ∀ (i : Nat) (r : ProcessRecord), s.spawns[i]? = some r →
      ∃ after : ProcessRecord, next.spawns[i]? = some after ∧ after.pid = r.pid) : Own next := by
  intro pid i hget
  obtain ⟨r, hr, rfl⟩ := h pid i (hrecords pid i hget)
  exact hspawns i r hr

theorem Own.update (h : Own s) (hspawns : next.spawns = (s.update i f).spawns)
    (hf : ∀ r, (f r).pid = r.pid) (hrecords : ∀ pid i, next.records.get? pid = some i → s.records.get? pid = some i) :
    Own next := by
  refine h.keeps hrecords fun j r hr => ?_
  rw [hspawns, update_get hr]
  refine ⟨_, rfl, ?_⟩
  split_ifs
  · exact hf r
  · rfl

/-! ## The writes -/

theorem enter_held_iff (h : Held s) (hget : s.spawns[i]? = some r) (hspawns : next.spawns = (s.update i ({ · with stage := .entered })).spawns)
    (hrecords : next.records = s.records.set r.pid i) (hprocs : next.procs = s.procs) (hown : Own s) (hnext : Own next) :
    Held next ↔ Free s i (Listed r.pid) := by
  constructor
  · intro hheld j other hne hother hlive hpid
    have hafter : next.spawns[j]? = some other := by rw [hspawns, update_get hother, if_neg (Ne.symm hne)]
    have hentry := get?_of_listed hnext hafter (hheld.listed j other hafter hlive)
    rw [hrecords, Dict.get?_set, hpid, if_pos rfl] at hentry
    exact hne (Option.some.inj hentry).symm
  · intro hfree
    refine ⟨fun j after hafter hlive => ?_, fun j after hafter hlive htracked => ?_⟩ <;>
      obtain ⟨before, hbefore, heq⟩ := get_of_update (hspawns ▸ hafter)
    · refine listed_of_get? hafter hlive ?_
      rw [hrecords, Dict.get?_set]
      by_cases hij : i = j
      · cases hij
        cases hget.symm.trans hbefore
        rw [heq, if_pos rfl, if_pos rfl]
      · rw [if_neg hij] at heq
        cases heq
        have hpid : after.pid ≠ r.pid := hfree j after (Ne.symm hij) hbefore hlive
        rw [if_neg hpid]
        exact get?_of_listed hown hbefore (h.listed j after hbefore hlive)
    · by_cases hij : i = j
      · rw [heq, if_pos hij] at htracked
        cases htracked
      · rw [if_neg hij] at heq
        cases heq
        rw [hprocs]
        exact h.held j after hbefore hlive htracked

theorem track_held_iff (h : Held s) (hget : s.spawns[i]? = some r) (hstage : r.stage = .entered)
    (hspawns : next.spawns = (s.update i ({ · with stage := .tracked })).spawns) (hrecords : next.records = s.records)
    (hprocs : next.procs = fun kind => if kind = r.kind then (s.procs kind).set r.pid i else s.procs kind) :
    Held next ↔ Free s i (HeldAs r.kind r.pid) := by
  constructor
  · rintro hheld j other hne hother hlive ⟨htracked, hkind, hpid⟩
    have hafter : next.spawns[j]? = some other := by rw [hspawns, update_get hother, if_neg (Ne.symm hne)]
    have hentry := hheld.held j other hafter hlive htracked
    rw [hprocs] at hentry
    simp only [hkind, if_true, Dict.get?_set, hpid] at hentry
    exact hne (Option.some.inj hentry).symm
  · intro hfree
    refine ⟨fun j after hafter hlive => ?_, fun j after hafter hlive htracked => ?_⟩ <;>
      obtain ⟨before, hbefore, heq⟩ := get_of_update (hspawns ▸ hafter)
    · have halive : before.live = true := by
        by_cases hij : i = j
        · rw [heq, if_pos hij] at hlive
          cases hij
          cases hget.symm.trans hbefore
          rw [live_iff, hstage]
          exact ⟨(live_iff.mp hlive).1, by simp⟩
        · rw [heq, if_neg hij] at hlive
          exact hlive
      obtain ⟨hentry, -⟩ := mem_listActive.mp (h.listed j before hbefore halive)
      rw [← hrecords] at hentry
      exact mem_listActive.mpr ⟨hentry, after, hafter, (live_iff.mp hlive).1⟩
    · rw [hprocs]
      by_cases hij : i = j
      · cases hij
        cases hget.symm.trans hbefore
        rw [if_pos rfl] at heq
        rw [heq]
        simp
      · rw [if_neg hij] at heq
        cases heq
        have hsame := h.held j after hbefore hlive htracked
        by_cases hkind : after.kind = r.kind
        · have hpid : after.pid ≠ r.pid := fun hpid => hfree j after (Ne.symm hij) hbefore hlive ⟨htracked, hkind, hpid⟩
          simp only [hkind, if_true, Dict.get?_set, if_neg hpid]
          exact hkind ▸ hsame
        · simp only [hkind, if_false]
          exact hsame

theorem popProc_held_iff (h : Held s) {kind : Kind} (hget : s.spawns[i]? = some r) (hdead : r.live = false)
    (hspawns : next.spawns = s.spawns) (hrecords : next.records = s.records)
    (hprocs : next.procs = fun other => if other = kind then (s.procs kind).erase r.pid else s.procs other) :
    Held next ↔ Free s i (HeldAs kind r.pid) := by
  constructor
  · rintro hheld j other - hother hlive ⟨htracked, hkind, hpid⟩
    have hentry := hheld.held j other (hspawns ▸ hother) hlive htracked
    rw [hprocs] at hentry
    simp [hkind, hpid] at hentry
  · intro hfree
    refine ⟨fun j after hafter hlive => ?_, fun j after hafter hlive htracked => ?_⟩ <;> rw [hspawns] at hafter
    · obtain ⟨hentry, -⟩ := mem_listActive.mp (h.listed j after hafter hlive)
      rw [← hrecords] at hentry
      exact mem_listActive.mpr ⟨hentry, after, hspawns ▸ hafter, (live_iff.mp hlive).1⟩
    · have hij : j ≠ i := by
        rintro rfl
        cases hget.symm.trans hafter
        rw [hdead] at hlive
        cases hlive
      have hsame := h.held j after hafter hlive htracked
      rw [hprocs]
      by_cases hkind : after.kind = kind
      · have hpid : after.pid ≠ r.pid := fun hpid => hfree j after hij hafter hlive ⟨htracked, hkind, hpid⟩
        simp only [hkind, if_true, Dict.get?_erase, if_neg hpid]
        exact hkind ▸ hsame
      · simp only [hkind, if_false]
        exact hsame

theorem popRecord_held_iff (h : Held s) (hget : s.spawns[i]? = some r) (hdead : r.live = false) (hspawns : next.spawns = s.spawns)
    (hrecords : next.records = s.records.erase r.pid) (hprocs : next.procs = s.procs) (hown : Own s) (hnext : Own next) :
    Held next ↔ Free s i (Listed r.pid) := by
  constructor
  · intro hheld j other _ hother hlive hpid
    have hafter : next.spawns[j]? = some other := hspawns ▸ hother
    have hentry := get?_of_listed hnext hafter (hheld.listed j other hafter hlive)
    rw [hrecords, Dict.get?_erase, hpid, if_pos rfl] at hentry
    cases hentry
  · intro hfree
    refine ⟨fun j after hafter hlive => ?_, fun j after hafter hlive htracked => ?_⟩
    · have hbefore : s.spawns[j]? = some after := hspawns ▸ hafter
      have hij : j ≠ i := by
        rintro rfl
        cases hget.symm.trans hbefore
        rw [hdead] at hlive
        cases hlive
      refine listed_of_get? hafter hlive ?_
      have hpid : after.pid ≠ r.pid := hfree j after hij hbefore hlive
      rw [hrecords, Dict.get?_erase, if_neg hpid]
      exact get?_of_listed hown hbefore (h.listed j after hbefore hlive)
    · rw [hprocs]
      exact h.held j after (hspawns ▸ hafter) hlive htracked

/-! ## Once -/

theorem tally_of_get {f : ProcessRecord → Nat} (h : s.spawns[i]? = some r) : tally s f i = f r := by
  simp [tally, h]

theorem tally_update (hget : s.spawns[i]? = some r) (hspawns : next.spawns = (s.update i f).spawns) (measure : ProcessRecord → Nat) (j : Nat) :
    tally next measure j = if j = i then measure (f r) else tally s measure j := by
  rw [tally, hspawns]
  by_cases hij : j = i
  · rw [if_pos hij, hij, update_get hget, if_pos rfl]
    rfl
  · simp [tally, ProcessManager.update, hij, Ne.symm hij]

theorem get?_concat {new : ProcessRecord} (h : (s.spawns ++ [new])[j]? = some r) : s.spawns[j]? = some r ∨ j = s.spawns.length ∧ r = new := by
  by_cases hj : j < s.spawns.length
  · rw [List.getElem?_append_left hj] at h
    exact .inl h
  · rw [List.getElem?_append_right (Nat.le_of_not_lt hj), List.getElem?_singleton] at h
    split_ifs at h with hlast
    · exact .inr ⟨by omega, (Option.some.inj h).symm⟩

theorem Once.update (h : Once s) (hget : s.spawns[i]? = some r) (hspawns : next.spawns = (s.update i f).spawns)
    (hf : ∀ r, (f r).status = r.status ∧ (f r).transitions = r.transitions ∧ (f r).events = r.events)
    (hmarking : next.marking = s.marking) (hunemitted : next.unemitted = s.unemitted) : Once next where
  once j after hafter := by
    obtain ⟨before, hbefore, rfl⟩ := get_of_update (hspawns ▸ hafter)
    obtain ⟨hstatus, htransitions, -⟩ := hf before
    by_cases hij : i = j
    · rw [if_pos hij, htransitions, hstatus]
      exact h.once j before hbefore
    · rw [if_neg hij]
      exact h.once j before hbefore
  told j := by
    obtain ⟨-, htransitions, hevents⟩ := hf r
    have htold := h.told j
    have howed : owed next j = owed s j := by rw [owed, hmarking, hunemitted, owed]
    rw [howed, tally_update hget hspawns, tally_update hget hspawns]
    by_cases hij : j = i
    · rw [hij, tally_of_get hget, tally_of_get hget] at htold
      rw [if_pos hij, if_pos hij, hevents, htransitions, hij]
      exact htold
    · rw [if_neg hij, if_neg hij]
      exact htold

theorem Once.same (h : Once s) (hspawns : next.spawns = s.spawns) (howed : ∀ j, owed next j = owed s j) : Once next where
  once j r hr := h.once j r (hspawns ▸ hr)
  told j := by
    rw [howed, tally, tally, hspawns]
    exact h.told j

theorem Once.append (h : Once s) {new : ProcessRecord} (hnew : new.transitions = if new.status.terminal then 1 else 0)
    (htold : new.events = new.transitions) : Once { s with spawns := s.spawns ++ [new] } where
  once j after hafter := by
    rcases get?_concat hafter with hbefore | ⟨-, rfl⟩
    · exact h.once j after hbefore
    · exact hnew
  told j := by
    have htold' := h.told j
    have howed : owed { s with spawns := s.spawns ++ [new] } j = owed s j := rfl
    rw [howed]
    by_cases hj : j < s.spawns.length
    · have hsame : ∀ measure, tally { s with spawns := s.spawns ++ [new] } measure j = tally s measure j := by
        intro measure
        simp only [tally, List.getElem?_append_left hj]
      rw [hsame, hsame]
      exact htold'
    · -- a number that no record had is owed nothing
      have hnone : s.spawns[j]? = none := List.getElem?_eq_none (Nat.le_of_not_lt hj)
      simp only [tally, hnone, map_none, getD_none] at htold'
      cases hlast : (s.spawns ++ [new])[j]? with
      | none =>
        simp only [tally, hlast, map_none, getD_none]
        exact htold'
      | some after =>
        rcases get?_concat hlast with hbefore | ⟨-, rfl⟩
        · rw [hnone] at hbefore
          cases hbefore
        · simp only [tally, hlast, map_some, getD_some, htold]
          omega

theorem Once.become (h : Once s) {mark : Mark} (hget : s.spawns[i]? = some r) (hlive : r.status.terminal = false)
    (hfree : s.marking = none) (hspawns : next.spawns = (s.update i (·.become mark.status)).spawns)
    (hmarking : next.marking = some (i, [.sync, .pty, .async])) (hunemitted : next.unemitted = s.unemitted) : Once next := by
  have hnone : r.transitions = 0 := by
    rw [h.once i r hget, hlive]
    rfl
  refine ⟨fun j after hafter => ?_, fun j => ?_⟩
  · obtain ⟨before, hbefore, rfl⟩ := get_of_update (hspawns ▸ hafter)
    by_cases hij : i = j
    · cases hij
      cases hget.symm.trans hbefore
      simp only [if_true, ProcessRecord.become, hnone]
      cases mark <;> rfl
    · rw [if_neg hij]
      exact h.once j before hbefore
  · have htold := h.told j
    rw [tally_update hget hspawns, tally_update hget hspawns]
    simp only [owed, hfree, hmarking, hunemitted, map_none, map_some, Option.some.injEq] at htold ⊢
    by_cases hij : j = i
    · cases hij
      rw [tally_of_get hget, tally_of_get hget] at htold
      simp only [if_true, ProcessRecord.become, reduceCtorEq, if_false] at htold ⊢
      omega
    · simp only [hij, Ne.symm hij, if_false, reduceCtorEq] at htold ⊢
      exact htold

theorem owed_emit (hk : s.unemitted[k]? = some i) (hspawns : next.unemitted = s.unemitted.eraseIdx k)
    (hmarking : next.marking = s.marking) (j : Nat) : owed s j = owed next j + if j = i then 1 else 0 := by
  obtain ⟨hlt, hget⟩ := List.getElem?_eq_some_iff.mp hk
  have hperm := (List.getElem_cons_eraseIdx_perm hlt).count_eq j
  rw [hget, List.count_cons] at hperm
  simp only [owed, hspawns, hmarking, ← hperm]
  by_cases hij : j = i
  · simp [hij]
    omega
  · simp [hij, Ne.symm hij]

theorem Once.emit (h : Once s) (hk : s.unemitted[k]? = some i) (hget : s.spawns[i]? = some r)
    (hspawns : next.spawns = (s.update i (·.told)).spawns) (hmarking : next.marking = s.marking)
    (hunemitted : next.unemitted = s.unemitted.eraseIdx k) : Once next := by
  refine ⟨fun j after hafter => ?_, fun j => ?_⟩
  · obtain ⟨before, hbefore, rfl⟩ := get_of_update (hspawns ▸ hafter)
    have hsame := h.once j before hbefore
    by_cases hij : i = j
    · rw [if_pos hij]
      exact hsame
    · rw [if_neg hij]
      exact hsame
  · have htold := h.told j
    have howed := owed_emit hk hunemitted hmarking j
    rw [tally_update hget hspawns, tally_update hget hspawns]
    by_cases hij : j = i
    · cases hij
      rw [tally_of_get hget, tally_of_get hget] at htold
      simp only [if_true, ProcessRecord.told] at howed ⊢
      omega
    · simp only [hij, if_false] at howed ⊢
      omega

/-! ## Steps -/

inductive Move (s : ProcessManager) : Label → ProcessManager → Prop
  | appended {label : Label} {new : ProcessRecord} (hlabel : Guarded s label) (hstage : new.stage = .launched)
      (hnew : new.transitions = if new.status.terminal then 1 else 0) (htold : new.events = new.transitions) :
      Move s label { s with spawns := s.spawns ++ [new] }
  | same {label : Label} {next : ProcessManager} (hlabel : Guarded s label) (hspawns : next.spawns = s.spawns)
      (hrecords : next.records = s.records) (hprocs : next.procs = s.procs) (hmarking : next.marking = s.marking)
      (hunemitted : next.unemitted = s.unemitted) : Move s label next
  | child {label : Label} {next : ProcessManager} {i : Nat} {r : ProcessRecord} (hlabel : Guarded s label) (child : Child)
      (hget : s.spawns[i]? = some r) (hspawns : next.spawns = (s.update i ({ · with child := child })).spawns)
      (hrecords : next.records = s.records) (hprocs : next.procs = s.procs) (hmarking : next.marking = s.marking)
      (hunemitted : next.unemitted = s.unemitted) : Move s label next
  | enter {i : Nat} {r : ProcessRecord} {next : ProcessManager} (hget : s.spawns[i]? = some r)
      (hspawns : next.spawns = (s.update i ({ · with stage := .entered })).spawns)
      (hrecords : next.records = s.records.set r.pid i) (hprocs : next.procs = s.procs) (hmarking : next.marking = s.marking)
      (hunemitted : next.unemitted = s.unemitted) : Move s (.enter i) next
  | track {i : Nat} {r : ProcessRecord} {next : ProcessManager} (hget : s.spawns[i]? = some r) (hstage : r.stage = .entered)
      (hspawns : next.spawns = (s.update i ({ · with stage := .tracked })).spawns) (hrecords : next.records = s.records)
      (hprocs : next.procs = fun kind => if kind = r.kind then (s.procs kind).set r.pid i else s.procs kind)
      (hmarking : next.marking = s.marking) (hunemitted : next.unemitted = s.unemitted) : Move s (.track i) next
  | become {k i : Nat} {r : ProcessRecord} {mark : Mark} {next : ProcessManager} (hget : s.spawns[i]? = some r)
      (hlive : r.status.terminal = false) (hfree : s.marking = none)
      (hspawns : next.spawns = (s.update i (·.become mark.status)).spawns) (hrecords : next.records = s.records)
      (hprocs : next.procs = s.procs) (hmarking : next.marking = some (i, [.sync, .pty, .async]))
      (hunemitted : next.unemitted = s.unemitted) : Move s (.mark k) next
  | popProc {i : Nat} {r : ProcessRecord} {kind : Kind} {rest : List Kind} {next : ProcessManager}
      (hget : s.spawns[i]? = some r) (hlocked : s.marking = some (i, kind :: rest)) (hspawns : next.spawns = s.spawns)
      (hrecords : next.records = s.records)
      (hprocs : next.procs = fun other => if other = kind then (s.procs kind).erase r.pid else s.procs other)
      (hmarking : next.marking = some (i, rest)) (hunemitted : next.unemitted = s.unemitted) : Move s .pop next
  | popRecord {i : Nat} {r : ProcessRecord} {next : ProcessManager} (hget : s.spawns[i]? = some r)
      (hlocked : s.marking = some (i, [])) (hspawns : next.spawns = s.spawns) (hrecords : next.records = s.records.erase r.pid)
      (hprocs : next.procs = s.procs) (hmarking : next.marking = none) (hunemitted : next.unemitted = s.unemitted ++ [i]) :
      Move s .pop next
  | emit {k i : Nat} {r : ProcessRecord} {next : ProcessManager} (hk : s.unemitted[k]? = some i) (hget : s.spawns[i]? = some r)
      (hspawns : next.spawns = (s.update i (·.told)).spawns) (hrecords : next.records = s.records)
      (hprocs : next.procs = s.procs) (hmarking : next.marking = s.marking)
      (hunemitted : next.unemitted = s.unemitted.eraseIdx k) : Move s (.emit k) next

theorem decideMark_same (s : ProcessManager) (i : Nat) (r : ProcessRecord) (mark : Mark) :
    (s.decideMark i r mark).spawns = s.spawns ∧ (s.decideMark i r mark).records = s.records ∧
      (s.decideMark i r mark).procs = s.procs ∧ (s.decideMark i r mark).marking = s.marking ∧
      (s.decideMark i r mark).unemitted = s.unemitted := by
  unfold ProcessManager.decideMark
  split_ifs <;> exact ⟨rfl, rfl, rfl, rfl, rfl⟩

theorem move_decideMark (label : Label) (hlabel : Guarded s label) (i : Nat) (r : ProcessRecord) (mark : Mark) :
    Move s label (s.decideMark i r mark) := by
  obtain ⟨hspawns, hrecords, hprocs, hmarking, hunemitted⟩ := decideMark_same s i r mark
  exact .same hlabel hspawns hrecords hprocs hmarking hunemitted

theorem move_reconcile (s : ProcessManager) (pid : Int) (liveness : LivenessResult) :
    Move s (.reconcile pid liveness) (reconcile s pid liveness) := by
  unfold reconcile
  split
  · exact .same trivial rfl rfl rfl rfl rfl
  · split
    · exact .same trivial rfl rfl rfl rfl rfl
    · exact .same trivial rfl rfl rfl rfl rfl
    · exact move_decideMark (.reconcile pid _) trivial _ _ _
    · exact move_decideMark (.reconcile pid _) trivial _ _ _
    · exact move_decideMark (.reconcile pid _) trivial _ _ _

theorem move_mark (h : mark s k = some next) : Move s (.mark k) next := by
  unfold mark at h
  split at h
  · rename_i hfree hk
    obtain ⟨r, hget, hnext⟩ := map_eq_some_iff.mp h
    split_ifs at hnext with hterminal
    · cases hnext
      exact .same trivial rfl rfl rfl rfl rfl
    · cases hnext
      exact .become hget (Bool.eq_false_iff.mpr hterminal) hfree rfl rfl rfl rfl rfl
  · cases h

theorem move_pop (h : pop s = some next) : Move s .pop next := by
  unfold pop at h
  split at h
  · cases h
  · rename_i hmarking
    obtain ⟨r, hget, hnext⟩ := map_eq_some_iff.mp h
    split at hnext
    · cases hnext
      exact .popProc hget hmarking rfl rfl rfl rfl rfl
    · cases hnext
      exact .popRecord hget hmarking rfl rfl rfl rfl rfl

theorem move_emit (h : step s (.emit k) = some next) (honce : Once s) : Move s (.emit k) next := by
  obtain ⟨i, hk, hnext⟩ := map_eq_some_iff.mp h
  have hmem : i ∈ s.unemitted := List.mem_of_getElem? hk
  cases hget : s.spawns[i]? with
  | none =>
    have htold := honce.told i
    have hpos : 0 < s.unemitted.count i := List.count_pos_iff.mpr hmem
    simp only [tally, hget, map_none, getD_none, owed] at htold
    omega
  | some r =>
    cases hnext
    exact .emit hk hget rfl rfl rfl rfl rfl

theorem step_move (h : step s label = some next) (honce : Once s) : Move s label next := by
  cases label with
  | launch kind pid =>
    obtain ⟨-, hnext⟩ := ite_none_right_eq_some.mp h
    cases hnext
    exact .appended trivial rfl rfl rfl
  | launchFails kind =>
    cases h
    exact .appended trivial rfl rfl rfl
  | enter i =>
    obtain ⟨r, hget, hnext⟩ := bind_eq_some_iff.mp h
    obtain ⟨-, hnext⟩ := ite_none_right_eq_some.mp hnext
    cases hnext
    exact .enter hget rfl rfl rfl rfl rfl
  | track i =>
    obtain ⟨r, hget, hnext⟩ := bind_eq_some_iff.mp h
    obtain ⟨hstage, hnext⟩ := ite_none_right_eq_some.mp hnext
    cases hnext
    exact .track hget hstage rfl rfl rfl rfl rfl
  | exit i =>
    obtain ⟨r, hget, hnext⟩ := bind_eq_some_iff.mp h
    obtain ⟨-, hnext⟩ := ite_none_right_eq_some.mp hnext
    cases hnext
    exact .child trivial .zombie hget rfl rfl rfl rfl rfl
  | reap i =>
    obtain ⟨r, hget, hnext⟩ := bind_eq_some_iff.mp h
    obtain ⟨-, hnext⟩ := ite_none_right_eq_some.mp hnext
    cases hnext
    exact .child trivial .reaped hget rfl rfl rfl rfl rfl
  | observe i =>
    obtain ⟨r, hget, hnext⟩ := bind_eq_some_iff.mp h
    obtain ⟨-, hnext⟩ := ite_none_right_eq_some.mp hnext
    cases hnext
    obtain ⟨hspawns, hrecords, hprocs, hmarking, hunemitted⟩ := decideMark_same s i r .exited
    refine .child trivial .reaped hget ?_ hrecords hprocs hmarking hunemitted
    simp only [ProcessManager.update, hspawns]
  | reconcile pid liveness =>
    cases h
    exact move_reconcile s pid liveness
  | terminate i failed =>
    obtain ⟨r, -, hnext⟩ := bind_eq_some_iff.mp h
    obtain ⟨-, hnext⟩ := ite_none_left_eq_some.mp hnext
    cases hnext
    exact move_decideMark (.terminate i failed) trivial _ _ _
  | mark k => exact move_mark h
  | pop => exact move_pop h
  | emit k => exact move_emit h honce

theorem Move.own (h : Own s) (hmove : Move s label next) : Own next := by
  cases hmove with
  | appended _ _ _ _ =>
    refine h.keeps (fun _ _ hget => hget) fun i r hr => ⟨r, ?_, rfl⟩
    obtain ⟨hlt, -⟩ := List.getElem?_eq_some_iff.mp hr
    rw [← hr]
    exact List.getElem?_append_left hlt
  | same _ hspawns hrecords _ _ _ =>
    refine h.keeps (fun _ _ hget => hrecords ▸ hget) fun i r hr => ⟨r, ?_, rfl⟩
    rw [hspawns]
    exact hr
  | child _ child _ hspawns hrecords _ _ _ =>
    exact h.update hspawns (fun _ => rfl) fun _ _ hget => hrecords ▸ hget
  | @enter i r _ hget hspawns hrecords _ _ _ =>
    intro pid j hentry
    rw [hrecords, Dict.get?_set] at hentry
    rw [hspawns]
    split_ifs at hentry with hpid
    · cases hentry
      refine ⟨_, update_get hget, ?_⟩
      rw [if_pos rfl]
      exact hpid.symm
    · obtain ⟨before, hbefore, rfl⟩ := h pid j hentry
      refine ⟨_, update_get hbefore, ?_⟩
      split_ifs <;> rfl
  | track _ _ hspawns hrecords _ _ _ => exact h.update hspawns (fun _ => rfl) fun _ _ hget => hrecords ▸ hget
  | become _ _ _ hspawns hrecords _ _ _ => exact h.update hspawns (fun _ => rfl) fun _ _ hget => hrecords ▸ hget
  | popProc _ _ hspawns hrecords _ _ _ =>
    exact h.keeps (fun _ _ hget => hrecords ▸ hget) fun i r hr => ⟨r, hspawns ▸ hr, rfl⟩
  | popRecord _ _ hspawns hrecords _ _ _ =>
    refine h.keeps (fun pid i hget => ?_) fun i r hr => ⟨r, hspawns ▸ hr, rfl⟩
    rw [hrecords, Dict.get?_erase] at hget
    split_ifs at hget
    exact hget
  | emit _ _ hspawns hrecords _ _ _ => exact h.update hspawns (fun _ => rfl) fun _ _ hget => hrecords ▸ hget

theorem Move.once (h : Once s) (hmove : Move s label next) : Once next := by
  cases hmove with
  | appended _ _ hnew htold => exact h.append hnew htold
  | same _ hspawns _ _ hmarking hunemitted => exact h.same hspawns fun j => by rw [owed, hmarking, hunemitted, owed]
  | child _ child hget hspawns _ _ hmarking hunemitted =>
    exact h.update hget hspawns (fun _ => ⟨rfl, rfl, rfl⟩) hmarking hunemitted
  | enter hget hspawns _ _ hmarking hunemitted =>
    exact h.update hget hspawns (fun _ => ⟨rfl, rfl, rfl⟩) hmarking hunemitted
  | track hget _ hspawns _ _ hmarking hunemitted =>
    exact h.update hget hspawns (fun _ => ⟨rfl, rfl, rfl⟩) hmarking hunemitted
  | become hget hlive hfree hspawns _ _ hmarking hunemitted => exact h.become hget hlive hfree hspawns hmarking hunemitted
  | popProc _ hlocked hspawns _ _ hmarking hunemitted =>
    refine h.same hspawns fun j => ?_
    simp only [owed, hlocked, hmarking, hunemitted, map_some]
  | popRecord _ hlocked hspawns _ _ hmarking hunemitted =>
    refine h.same hspawns fun j => ?_
    simp only [owed, hlocked, hmarking, hunemitted, List.count_append, List.count_singleton, map_none, map_some, Option.some.injEq,
      reduceCtorEq, if_false, Nat.add_zero, beq_iff_eq]
  | emit hk hget hspawns _ _ hmarking hunemitted => exact h.emit hk hget hspawns hmarking hunemitted

theorem Once.marked (h : Once s) {rest : List Kind} (hmarking : s.marking = some (i, rest)) (hget : s.spawns[i]? = some r) : r.live = false := by
  have htold := h.told i
  rw [tally_of_get hget, tally_of_get hget, owed, hmarking] at htold
  simp only [map_some, if_true] at htold
  have honce := h.once i r hget
  by_cases hterminal : r.status.terminal = true
  · simp [ProcessRecord.live, hterminal]
  · rw [if_neg hterminal] at honce
    omega

theorem Move.held_iff (hown : Own s) (honce : Once s) (h : Held s) (hmove : Move s label next) : Held next ↔ Guarded s label := by
  have hnext := hmove.own hown
  cases hmove with
  | appended hlabel hstage _ _ =>
    refine iff_of_true (h.quiet rfl rfl fun i after hafter hlive => ?_) hlabel
    rcases get?_concat hafter with hbefore | ⟨-, rfl⟩
    · exact ⟨after, hbefore, hlive, rfl, rfl, rfl⟩
    · exact absurd hstage (live_iff.mp hlive).2
  | same hlabel hspawns hrecords hprocs _ _ =>
    refine iff_of_true (h.quiet hrecords hprocs fun i after hafter hlive => ?_) hlabel
    exact ⟨after, hspawns ▸ hafter, hlive, rfl, rfl, rfl⟩
  | child hlabel child hget hspawns hrecords hprocs _ _ =>
    exact iff_of_true (h.update hspawns (fun _ => ⟨fun hlive => hlive, rfl, rfl, rfl⟩) hrecords hprocs) hlabel
  | @enter i r _ hget hspawns hrecords hprocs _ _ =>
    rw [enter_held_iff h hget hspawns hrecords hprocs hown hnext]
    exact ⟨fun hfree r' hr' => by cases hget.symm.trans hr'; exact hfree, fun hguard => hguard r hget⟩
  | @track i r _ hget hstage hspawns hrecords hprocs _ _ =>
    rw [track_held_iff h hget hstage hspawns hrecords hprocs]
    exact ⟨fun hfree r' hr' => by cases hget.symm.trans hr'; exact hfree, fun hguard => hguard r hget⟩
  | @become k i r mark next hget hlive hfree hspawns hrecords hprocs hmarking hunemitted =>
    refine iff_of_true (h.update hspawns (fun r => ⟨fun hlive => ?_, rfl, rfl, rfl⟩) hrecords hprocs) trivial
    have hterminal := (live_iff.mp hlive).1
    cases mark <;> cases hterminal
  | @popProc i r kind rest _ hget hmarking hspawns hrecords hprocs _ _ =>
    rw [popProc_held_iff h hget (honce.marked hmarking hget) hspawns hrecords hprocs]
    constructor
    · intro hfree j rest' r' hmarking' hr'
      cases hmarking.symm.trans hmarking'
      cases hget.symm.trans hr'
      exact hfree
    · intro hguard
      exact hguard i (kind :: rest) r hmarking hget
  | @popRecord i r _ hget hmarking hspawns hrecords hprocs _ _ =>
    rw [popRecord_held_iff h hget (honce.marked hmarking hget) hspawns hrecords hprocs hown hnext]
    constructor
    · intro hfree j rest' r' hmarking' hr'
      cases hmarking.symm.trans hmarking'
      cases hget.symm.trans hr'
      exact hfree
    · intro hguard
      exact hguard i [] r hmarking hget
  | emit _ _ hspawns hrecords hprocs _ _ =>
    exact iff_of_true (h.update hspawns (fun _ => ⟨fun hlive => hlive, rfl, rfl, rfl⟩) hrecords hprocs) trivial

/-! ## Runs -/

theorem start_own : Own {} := nofun

theorem start_once : Once {} where
  once := nofun
  told _ := rfl

theorem start_held : Held {} where
  listed := nofun
  held := nofun

/-- Live records are listed, held and terminal once, just when no entry is written over one. -/
theorem tracked_iff_guarded (labels : List Label) : Run.Throughout step (fun _ _ next => Once next ∧ Held next) {} labels ↔
      Run.Throughout step (fun s label _ => Guarded s label) {} labels := by
  have hiff : ∀ s label next, Own s ∧ Once s ∧ Held s → step s label = some next → (Once next ∧ Held next ↔ Guarded s label) := by
    rintro s label next ⟨hown, honce, hheld⟩ hstep
    have hmove := step_move hstep honce
    rw [← hmove.held_iff hown honce hheld]
    exact and_iff_right (hmove.once honce)
  refine Run.Throughout.iff_of_step hiff ?_ ⟨start_own, start_once, start_held⟩
  rintro s label next ⟨hown, honce, hheld⟩ hguarded hstep
  have hmove := step_move hstep honce
  exact ⟨hmove.own hown, hmove.once honce, (hmove.held_iff hown honce hheld).mpr hguarded⟩

/-! ## A PID that comes back -/

/-- Another spawn gets the PID before the mark, and is tracked. -/
def reused : List Label :=
  [.launch .sync 7, .enter 0, .track 0, .exit 0, .observe 0, .launch .sync 7, .enter 1, .track 1,
    .mark 0, .pop, .pop, .pop, .pop, .emit 0]

theorem reused_run : (Run.run step {} reused).map (fun s => (s.spawns[1]?, s.listActive)) =
      some (some { pid := 7, kind := .sync, stage := .tracked }, []) := by
  decide +kernel

theorem late_mark_untracks : ¬ ∀ (labels : List Label) (s : ProcessManager), Run.run step {} labels = some s → Once s ∧ Held s := by
  intro hclaim
  obtain ⟨s, hrun, hs⟩ := map_eq_some_iff.mp reused_run
  obtain ⟨hsecond, hactive⟩ := Prod.mk.inj hs
  have hlisted := (hclaim reused s hrun).2.listed 1 _ hsecond rfl
  rw [hactive] at hlisted
  cases hlisted

end RalphWorkflow.Processes
