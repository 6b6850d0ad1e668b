import Mathlib.Data.List.Basic

/-! The processes of a machine under `fork`, `setsid`, exit and reaping. A process is its place in the order of the forks; a number is free again
once no process that is not reaped has it or is in its group. -/
namespace RalphWorkflow.Lib.ProcessTree
open Option

inductive Phase
  | running | zombie | reaped
  deriving DecidableEq

structure Proc where
  pid : Nat
  creator : Option Nat := none
  group : Nat
  phase : Phase := .running
  deriving DecidableEq

structure World where
  procs : List Proc
  opener : Nat → Option Nat := fun _ => none

def boot : World where
  procs := [{ pid := 1, group := 1 }]

namespace World

variable {w next : World} {i j ancestor : Nat} {p q : Proc}

def Present (w : World) (i : Nat) (p : Proc) : Prop :=
  w.procs[i]? = some p ∧ p.phase ≠ .reaped

def free (w : World) (pid : Nat) : Bool :=
  w.procs.all fun p => p.phase == .reaped || p.pid != pid && p.group != pid

def fork (w : World) (parent pid : Nat) : Option World :=
  w.procs[parent]?.bind fun p =>
    if p.phase = .running ∧ 1 < pid ∧ w.free pid then
      some { w with procs := w.procs ++ [{ pid, creator := some parent, group := p.group }] }
    else none

def setsid (w : World) (i : Nat) : Option World :=
  w.procs[i]?.bind fun p =>
    if p.phase = .running ∧ p.group ≠ p.pid then
      some
        { procs := w.procs.modify i ({ · with group := p.pid })
          opener := fun n => if n = p.pid then some i else w.opener n }
    else none

def exit (w : World) (i : Nat) : Option World :=
  w.procs[i]?.bind fun p =>
    if p.phase = .running then some { w with procs := w.procs.modify i ({ · with phase := .zombie }) } else none

def reap (w : World) (i : Nat) : Option World :=
  w.procs[i]?.bind fun p =>
    if p.phase = .zombie then some { w with procs := w.procs.modify i ({ · with phase := .reaped }) } else none

def holder (w : World) (pid : Nat) : Option Nat :=
  w.procs.findIdx? fun p => p.pid == pid && p.phase != .reaped

def members (w : World) (group : Nat) : List Nat :=
  (List.range w.procs.length).filter fun i => w.procs[i]?.any fun p => p.group == group && p.phase != .reaped

def creator (w : World) (i : Nat) : Option Nat :=
  w.procs[i]?.bind (·.creator)

def parent (w : World) (i : Nat) : Option Nat :=
  (w.creator i).filter fun c => w.procs[c]?.any fun p => p.phase == .running

def below (w : World) (top : Nat) : Nat → Nat → Bool
  | 0, _ => false
  | steps + 1, i => (w.parent i).any fun above => above == top || below w top steps above

def descendants (w : World) (top : Nat) : List Nat :=
  (List.range w.procs.length).filter fun i => below w top w.procs.length i

/-! ## Descent -/

inductive Descends (w : World) (ancestor : Nat) : Nat → Prop
  | here : Descends w ancestor ancestor
  | created {i creator : Nat} (hcreator : w.creator i = some creator) (h : Descends w ancestor creator) :
      Descends w ancestor i

theorem Descends.trans (h : Descends w ancestor i) (hj : Descends w i j) : Descends w ancestor j := by
  induction hj with
  | here => exact h
  | created hcreator _ ih => exact .created hcreator ih

def Grows (w next : World) : Prop :=
  ∀ i creator, w.creator i = some creator → next.creator i = some creator

theorem Descends.grows (hgrows : Grows w next) (h : Descends w ancestor i) : Descends next ancestor i := by
  induction h with
  | here => exact .here
  | created hcreator _ ih => exact .created (hgrows _ _ hcreator) ih

theorem creator_of_parent {above : Nat} (h : w.parent i = some above) : w.creator i = some above :=
  (filter_eq_some_iff.mp h).1

def Running (w : World) (i : Nat) : Prop :=
  ∃ p, w.procs[i]? = some p ∧ p.phase = .running

theorem running_of_parent {above : Nat} (h : w.parent i = some above) : w.Running above := by
  have hrunning := (filter_eq_some_iff.mp h).2
  cases hp : w.procs[above]? with
  | none => simp [hp] at hrunning
  | some p => exact ⟨p, hp, by simpa [hp] using hrunning⟩

theorem descends_of_below {top steps : Nat} (h : below w top steps i = true) : Descends w top i := by
  induction steps generalizing i with
  | zero => cases h
  | succ steps ih =>
    rw [below] at h
    cases hparent : w.parent i with
    | none => simp [hparent] at h
    | some above =>
      have hcreator := creator_of_parent hparent
      simp only [hparent, any_some, Bool.or_eq_true, beq_iff_eq] at h
      rcases h with rfl | h
      · exact .created hcreator .here
      · exact .created hcreator (ih h)

theorem descends_of_mem_descendants {top : Nat} (h : i ∈ w.descendants top) : Descends w top i :=
  descends_of_below (List.mem_filter.mp h).2

/-! ## Sound worlds -/

/-- Numbers are of one process, a group has its leader's, and those of a session descend from its opener. -/
structure Sound (w : World) : Prop where
  distinct : ∀ i p j q, w.Present i p → w.Present j q → p.pid = q.pid → i = j
  unopened : ∀ i p j q, w.Present i p → w.Present j q → q.group = p.pid → p.group = p.pid
  opened : ∀ n opener i p, w.opener n = some opener → w.Present i p → p.group = n → Descends w opener i

theorem boot_sound : Sound boot where
  distinct i p j q hi hj _ := by
    have h : ∀ {i p}, boot.Present i p → i = 0 := by
      intro i p hp
      obtain ⟨hlt, -⟩ := List.getElem?_eq_some_iff.mp hp.1
      simpa [boot] using hlt
    rw [h hi, h hj]
  unopened i p j q hi _ _ := by
    have hp := List.mem_of_getElem? hi.1
    simp only [boot, List.mem_singleton] at hp
    rw [hp]
  opened n opener i p hopener _ _ := by cases hopener

theorem mem_members {group : Nat} (h : i ∈ w.members group) : ∃ p, w.Present i p ∧ p.group = group := by
  obtain ⟨-, hi⟩ := List.mem_filter.mp h
  cases hp : w.procs[i]? with
  | none => simp [hp] at hi
  | some p =>
    simp only [hp, any_some, Bool.and_eq_true, beq_iff_eq, bne_iff_ne] at hi
    exact ⟨p, ⟨hp, hi.2⟩, hi.1⟩

theorem Sound.member_descends (h : Sound w) {group opener : Nat} (hopener : w.opener group = some opener)
    (hi : i ∈ w.members group) : Descends w opener i := by
  obtain ⟨p, hpresent, hgroup⟩ := mem_members hi
  exact h.opened group opener i p hopener hpresent hgroup

theorem not_present_of_free {pid : Nat} (h : w.free pid = true) (hp : w.Present i p) : p.pid ≠ pid ∧ p.group ≠ pid := by
  have hfree := List.all_eq_true.mp h p (List.mem_of_getElem? hp.1)
  simp only [Bool.or_eq_true, beq_iff_eq, Bool.and_eq_true, bne_iff_ne] at hfree
  rcases hfree with hreaped | hfree
  · exact absurd hreaped hp.2
  · exact hfree

/-! ## Steps -/

theorem get_of_modify {f : Proc → Proc} (h : (w.procs.modify i f)[j]? = some p) :
    ∃ before, w.procs[j]? = some before ∧ p = if i = j then f before else before := by
  rw [List.getElem?_modify] at h
  obtain ⟨before, hbefore, hp⟩ := map_eq_some_iff.mp h
  exact ⟨before, hbefore, hp.symm⟩

theorem grows_modify {f : Proc → Proc} (hprocs : next.procs = w.procs.modify i f) (hf : ∀ p, (f p).creator = p.creator) : Grows w next := by
  intro j c hcreator
  obtain ⟨p, hp, hc⟩ := bind_eq_some_iff.mp hcreator
  rw [creator, hprocs, List.getElem?_modify, hp]
  by_cases hij : i = j
  · simp [hij, hf, hc]
  · simp [hij, hc]

theorem grows_concat {new : Proc} (hprocs : next.procs = w.procs ++ [new]) : Grows w next := by
  intro j c hcreator
  obtain ⟨p, hp, hc⟩ := bind_eq_some_iff.mp hcreator
  obtain ⟨hlt, -⟩ := List.getElem?_eq_some_iff.mp hp
  rw [creator, hprocs, List.getElem?_append_left hlt, hp]
  exact hc

theorem Sound.fade (h : Sound w) (hgrows : Grows w next) (hopener : next.opener = w.opener)
    (hpresent : ∀ i p, next.Present i p → ∃ before, w.Present i before ∧ before.pid = p.pid ∧ before.group = p.group) :
    Sound next where
  distinct i p j q hi hj hpid := by
    obtain ⟨before, hbefore, hp, -⟩ := hpresent i p hi
    obtain ⟨other, hother, hq, -⟩ := hpresent j q hj
    exact h.distinct i before j other hbefore hother (by rw [hp, hq, hpid])
  unopened i p j q hi hj hgroup := by
    obtain ⟨before, hbefore, hp, hpgroup⟩ := hpresent i p hi
    obtain ⟨other, hother, -, hqgroup⟩ := hpresent j q hj
    rw [← hpgroup, ← hp]
    exact h.unopened i before j other hbefore hother (by rw [hqgroup, hp, hgroup])
  opened n opener i p hopens hi hgroup := by
    obtain ⟨before, hbefore, -, hpgroup⟩ := hpresent i p hi
    exact (h.opened n opener i before (hopener ▸ hopens) hbefore (hpgroup.trans hgroup)).grows hgrows

theorem fade_present {phase : Phase} (hprocs : next.procs = w.procs.modify i ({ · with phase := phase }))
    (hi : ∀ p, w.procs[i]? = some p → p.phase ≠ .reaped) (hj : next.Present j p) :
    ∃ before, w.Present j before ∧ before.pid = p.pid ∧ before.group = p.group := by
  obtain ⟨hget, hphase⟩ := hj
  obtain ⟨before, hbefore, heq⟩ := get_of_modify (hprocs ▸ hget)
  by_cases hij : i = j
  · rw [if_pos hij] at heq
    rw [heq]
    exact ⟨before, ⟨hbefore, hi before (hij ▸ hbefore)⟩, rfl, rfl⟩
  · rw [if_neg hij] at heq
    exact ⟨before, ⟨hbefore, heq ▸ hphase⟩, by rw [heq], by rw [heq]⟩

theorem phase_sound (h : Sound w) (phase : Phase) (hprocs : next.procs = w.procs.modify i ({ · with phase := phase }))
    (hopener : next.opener = w.opener) (hi : ∀ p, w.procs[i]? = some p → p.phase ≠ .reaped) : Sound next ∧ Grows w next := by
  have hgrows : Grows w next := grows_modify hprocs fun _ => rfl
  exact ⟨h.fade hgrows hopener fun _ _ => fade_present hprocs hi, hgrows⟩

theorem exit_sound (h : Sound w) (hstep : w.exit i = some next) : Sound next ∧ Grows w next := by
  obtain ⟨p, hp, hnext⟩ := bind_eq_some_iff.mp hstep
  obtain ⟨hphase, hnext⟩ := ite_none_right_eq_some.mp hnext
  cases hnext
  refine phase_sound h .zombie rfl rfl fun before hbefore => ?_
  cases hp.symm.trans hbefore
  rw [hphase]
  nofun

theorem reap_sound (h : Sound w) (hstep : w.reap i = some next) : Sound next ∧ Grows w next := by
  obtain ⟨p, hp, hnext⟩ := bind_eq_some_iff.mp hstep
  obtain ⟨hphase, hnext⟩ := ite_none_right_eq_some.mp hnext
  cases hnext
  refine phase_sound h .reaped rfl rfl fun before hbefore => ?_
  cases hp.symm.trans hbefore
  rw [hphase]
  nofun

theorem present_of_concat {new : Proc} (hprocs : next.procs = w.procs ++ [new]) (hj : next.Present j p) :
    w.Present j p ∨ j = w.procs.length ∧ p = new := by
  obtain ⟨hget, hphase⟩ := hj
  rw [hprocs] at hget
  by_cases hlt : j < w.procs.length
  · rw [List.getElem?_append_left hlt] at hget
    exact .inl ⟨hget, hphase⟩
  · rw [List.getElem?_append_right (Nat.le_of_not_lt hlt), List.getElem?_singleton] at hget
    split_ifs at hget with hlast
    exact .inr ⟨by omega, (Option.some.inj hget).symm⟩

theorem fork_sound (h : Sound w) {parent pid : Nat} (hstep : w.fork parent pid = some next) : Sound next ∧ Grows w next := by
  obtain ⟨above, habove, hnext⟩ := bind_eq_some_iff.mp hstep
  obtain ⟨⟨hphase, -, hfree⟩, hnext⟩ := ite_none_right_eq_some.mp hnext
  cases hnext
  have hparent : w.Present parent above := by
    refine ⟨habove, ?_⟩
    rw [hphase]
    nofun
  have hold : ∀ {j q}, w.Present j q → q.pid ≠ pid ∧ q.group ≠ pid := not_present_of_free hfree
  have hgrows : Grows w { w with procs := w.procs ++ [{ pid, creator := some parent, group := above.group }] } :=
    grows_concat rfl
  refine ⟨⟨fun i p j q hi hj hpid => ?_, fun i p j q hi hj hgroup => ?_, fun n opener i p hopener hi hgroup => ?_⟩, hgrows⟩
  · rcases present_of_concat rfl hi with hi | ⟨rfl, rfl⟩ <;> rcases present_of_concat rfl hj with hj | ⟨rfl, rfl⟩
    · exact h.distinct i p j q hi hj hpid
    · exact absurd hpid (hold hi).1
    · exact absurd hpid.symm (hold hj).1
    · rfl
  · rcases present_of_concat rfl hi with hi | ⟨rfl, rfl⟩ <;> rcases present_of_concat rfl hj with hj | ⟨rfl, rfl⟩
    · exact h.unopened i p j q hi hj hgroup
    · exact h.unopened i p parent above hi hparent hgroup
    · exact absurd hgroup (hold hj).2
    · exact hgroup
  · rcases present_of_concat rfl hi with hi | ⟨rfl, rfl⟩
    · exact (h.opened n opener i p hopener hi hgroup).grows hgrows
    · have hcreator : World.creator { w with procs := w.procs ++ [{ pid, creator := some parent, group := above.group }] }
          w.procs.length = some parent := by
        simp [World.creator]
      exact .created hcreator ((h.opened n opener parent above hopener hparent hgroup).grows hgrows)

theorem setsid_sound (h : Sound w) (hstep : w.setsid i = some next) : Sound next ∧ Grows w next := by
  obtain ⟨self, hself, hnext⟩ := bind_eq_some_iff.mp hstep
  obtain ⟨⟨hphase, hleads⟩, hnext⟩ := ite_none_right_eq_some.mp hnext
  have hhere : w.Present i self := by
    refine ⟨hself, ?_⟩
    rw [hphase]
    nofun
  have hprocs : next.procs = w.procs.modify i ({ · with group := self.pid }) := by
    cases hnext
    rfl
  have hopener : next.opener = fun n => if n = self.pid then some i else w.opener n := by
    cases hnext
    rfl
  have hgrows : Grows w next := grows_modify hprocs fun _ => rfl
  have hbefore : ∀ j q, next.Present j q → j = i ∧ q.pid = self.pid ∧ q.group = self.pid ∨ j ≠ i ∧ w.Present j q := by
    intro j q hj
    obtain ⟨before, hget, heq⟩ := get_of_modify (hprocs ▸ hj.1)
    by_cases hij : i = j
    · cases hij
      cases hself.symm.trans hget
      rw [if_pos rfl] at heq
      rw [heq]
      exact .inl ⟨rfl, rfl, rfl⟩
    · rw [if_neg hij] at heq
      exact .inr ⟨Ne.symm hij, heq ▸ hget, hj.2⟩
  refine ⟨⟨fun a p b q ha hb hpid => ?_, fun a p b q ha hb hgroup => ?_, fun n opener a p hopens ha hgroup => ?_⟩, hgrows⟩
  · rcases hbefore a p ha with ⟨rfl, hp, -⟩ | ⟨-, ha⟩ <;> rcases hbefore b q hb with ⟨rfl, hq, -⟩ | ⟨-, hb⟩
    · rfl
    · exact h.distinct a self b q hhere hb (by rw [← hp, hpid])
    · exact h.distinct a p b self ha hhere (by rw [hpid, hq])
    · exact h.distinct a p b q ha hb hpid
  · rcases hbefore a p ha with ⟨rfl, hp, hpgroup⟩ | ⟨hne, ha⟩
    · rw [hpgroup, hp]
    · rcases hbefore b q hb with ⟨rfl, -, hqgroup⟩ | ⟨-, hb⟩
      · exact absurd (h.distinct a p b self ha hhere (by rw [← hgroup, hqgroup])) hne
      · exact h.unopened a p b q ha hb hgroup
  · rw [hopener] at hopens
    rcases hbefore a p ha with ⟨rfl, -, hpgroup⟩ | ⟨hne, ha⟩
    · have hn : n = self.pid := hgroup.symm.trans hpgroup
      simp only [hn, if_true, Option.some.injEq] at hopens
      cases hopens
      exact .here
    · by_cases hn : n = self.pid
      · -- nobody was in the group before
        exact absurd (h.unopened i self a p hhere ha (hgroup.trans hn)) hleads
      · simp only [if_neg hn] at hopens
        exact (h.opened n opener a p hopens ha hgroup).grows hgrows

/-! ## Who goes on running -/

theorem Running.modify (h : w.Running j) {f : Proc → Proc} (hprocs : next.procs = w.procs.modify i f)
    (hf : i ≠ j ∨ ∀ p, (f p).phase = p.phase) : next.Running j := by
  obtain ⟨p, hp, hphase⟩ := h
  refine ⟨if i = j then f p else p, ?_, ?_⟩
  · rw [hprocs, List.getElem?_modify, hp]
    rfl
  · rcases hf with hij | hf
    · rw [if_neg hij]
      exact hphase
    · split_ifs
      · rw [hf]
        exact hphase
      · exact hphase

theorem fork_running (h : w.Running j) {parent pid : Nat} (hstep : w.fork parent pid = some next) : next.Running j := by
  obtain ⟨p, hp, hphase⟩ := h
  obtain ⟨above, -, hnext⟩ := bind_eq_some_iff.mp hstep
  obtain ⟨-, hnext⟩ := ite_none_right_eq_some.mp hnext
  cases hnext
  obtain ⟨hlt, -⟩ := List.getElem?_eq_some_iff.mp hp
  exact ⟨p, (List.getElem?_append_left hlt).trans hp, hphase⟩

theorem setsid_running (h : w.Running j) (hstep : w.setsid i = some next) : next.Running j := by
  obtain ⟨p, -, hnext⟩ := bind_eq_some_iff.mp hstep
  obtain ⟨-, hnext⟩ := ite_none_right_eq_some.mp hnext
  cases hnext
  exact h.modify rfl (.inr fun _ => rfl)

theorem exit_running (h : w.Running j) (hother : i ≠ j) (hstep : w.exit i = some next) : next.Running j := by
  obtain ⟨p, -, hnext⟩ := bind_eq_some_iff.mp hstep
  obtain ⟨-, hnext⟩ := ite_none_right_eq_some.mp hnext
  cases hnext
  exact h.modify rfl (.inl hother)

theorem reap_running (h : w.Running j) (hstep : w.reap i = some next) : next.Running j := by
  obtain ⟨p, hp, hnext⟩ := bind_eq_some_iff.mp hstep
  obtain ⟨hzombie, hnext⟩ := ite_none_right_eq_some.mp hnext
  cases hnext
  refine h.modify rfl (.inl ?_)
  rintro rfl
  obtain ⟨q, hq, hrunning⟩ := h
  cases hp.symm.trans hq
  rw [hzombie] at hrunning
  cases hrunning

end World

end RalphWorkflow.Lib.ProcessTree
