import Mathlib.Data.List.Induction
import RalphWorkflow.Process.Escalation

/-! When a termination that ends in KILLED leaves nobody behind. The waits never lose a process that is alive, so a record that is marked after
an empty second wait is right about its tree. The other ways to KILLED go by one process. -/
namespace RalphWorkflow.Escalation
open List
open Lib (Dict)

namespace Machine

variable (m : Machine)

/-! ## Phases -/

variable {pid : Nat} {t : Stage}

theorem gone_later {u : Stage} (htu : t.index ≤ u.index) (hgone : m.phase pid t = .gone) : m.phase pid u = .gone := by
  have hrank := m.fades pid t u htu
  rw [hgone] at hrank
  cases hphase : m.phase pid u with
  | gone => rfl
  | alive => simp [hphase, Phase.rank] at hrank
  | zombie => simp [hphase, Phase.rank] at hrank

theorem alive_before {u : Stage} (htu : t.index ≤ u.index) (halive : m.phase pid u = .alive) : m.phase pid t = .alive := by
  have hrank := m.fades pid t u htu
  rw [halive] at hrank
  cases hphase : m.phase pid t with
  | alive => rfl
  | zombie => simp [hphase, Phase.rank] at hrank
  | gone => simp [hphase, Phase.rank] at hrank

/-! ## What the checks say -/

theorem existence_gone (h : m.existence pid t = .gone) : m.phase pid t = .gone := by
  unfold existence at h
  by_cases hunsure : (m.answer pid t).unsure
  · simp [hunsure] at h
  · by_cases hgone : m.phase pid t = .gone
    · exact hgone
    · simp [hunsure, hgone] at h

theorem verify_gone (h : m.verifyProcessLiveness pid t = .gone) : m.phase pid t = .gone := by
  unfold verifyProcessLiveness at h
  by_cases hzombie : m.phase pid t = .zombie ∧ (m.answer pid t).denied = false
  · simp [hzombie] at h
  · rw [if_neg hzombie] at h
    exact m.existence_gone h

theorem verify_alive (halive : m.phase pid t = .alive) : m.verifyProcessLiveness pid t ∉ [LivenessResult.gone, .zombie] := by
  have hverify : m.verifyProcessLiveness pid t = m.existence pid t := by simp [verifyProcessLiveness, halive]
  by_cases hunsure : (m.answer pid t).unsure
  · simp [hverify, existence, hunsure]
  · simp [hverify, existence, hunsure, halive]

theorem enumerate_of_gone (ht : t.index ≤ Stage.lookup.index) (h : m.verifyProcessLiveness pid t = .gone) :
    m.enumerate pid = .error .noSuchProcess := by
  have hgone : m.phase pid .lookup = .gone := m.gone_later ht (m.verify_gone h)
  have hask : m.ask pid .lookup = .error .noSuchProcess := by simp [ask, hgone]
  rw [enumerate, hask]
  rfl

/-! ## The waits -/

theorem mem_safeWaitProcs {procs : List Nat} (hmem : pid ∈ procs) (halive : m.phase pid t = .alive) : pid ∈ m.safeWaitProcs procs t := by
  unfold safeWaitProcs
  by_cases hfails : m.waitFails t
  · rw [if_pos hfails]
    exact mem_filter.2 ⟨hmem, decide_eq_true (m.verify_alive halive)⟩
  · rw [if_neg hfails]
    exact mem_filter.2 ⟨hmem, by simp [halive]⟩

theorem mem_stillAlive {tree : List Nat} (hmem : pid ∈ tree) (halive : m.phase pid .killWait = .alive) : pid ∈ m.stillAlive tree := by
  have hbefore : m.phase pid .graceWait = .alive := m.alive_before (by decide) halive
  exact m.mem_safeWaitProcs (m.mem_safeWaitProcs hmem hbefore) halive

theorem dead_of_empty {tree : List Nat} (hempty : m.stillAlive tree = []) : ∀ pid ∈ tree, m.phase pid .killWait ≠ .alive := by
  intro pid hmem halive
  have hstill := m.mem_stillAlive hmem halive
  rw [hempty] at hstill
  exact absurd hstill not_mem_nil

theorem dead_when_marked {tree : List Nat} (hdead : ∀ pid ∈ tree, m.phase pid .killWait ≠ .alive) : ∀ pid ∈ tree, m.phase pid .marked ≠ .alive := by
  intro pid hmem halive
  exact hdead pid hmem (m.alive_before (by decide) halive)

/-! ## The registered descendants -/

end Machine

theorem mem_registerDescendant (descendants : Descendants) (parent child pid d : Nat) :
    d ∈ (registerDescendant descendants parent child).getD pid [] ↔ d ∈ descendants.getD pid [] ∨ (pid, d) = (parent, child) := by
  unfold registerDescendant
  rw [Dict.getD_set]
  by_cases hpid : pid = parent
  · subst hpid
    by_cases hknown : child ∈ descendants.getD pid []
    · simp [hknown]
      rintro rfl
      exact hknown
    · simp [hknown]
  · simp [hpid]

theorem mem_registered (calls : List (Nat × Nat)) (pid d : Nat) : d ∈ (registered calls).getD pid [] ↔ (pid, d) ∈ calls := by
  induction calls using List.reverseRecOn with
  | nil => simp [registered, Dict.getD]
  | append_singleton calls call ih =>
    have hlast : registered (calls ++ [call]) = registerDescendant (registered calls) call.1 call.2 := by simp [registered]
    rw [hlast, mem_registerDescendant, ih, mem_append, mem_singleton]

namespace Machine

variable (m : Machine)

theorem mem_signal_singleton {d e : Nat} {t : Stage} (h : d ∈ m.signal [e] t) : d = e :=
  mem_singleton.1 (mem_filter.1 h).1

theorem eq_of_mem_terminateRegisteredDescendant {d e : Nat} (h : d ∈ m.terminateRegisteredDescendant e) : d = e := by
  unfold terminateRegisteredDescendant at h
  by_cases hzero : e ≤ 0
  · simp [hzero] at h
  · by_cases hask : m.ask e .descendantLookup = .ok ()
    · rw [if_neg hzero, if_pos hask, mem_append] at h
      exact h.elim m.mem_signal_singleton m.mem_signal_singleton
    · simp [hzero, hask] at h

def Reaps (d : Nat) : Prop := d ∈ m.terminateRegisteredDescendant d

theorem mem_terminateRegisteredDescendants (calls : List (Nat × Nat)) (pid d : Nat) :
    d ∈ m.terminateRegisteredDescendants (registered calls) pid ↔ (pid, d) ∈ calls ∧ m.Reaps d := by
  simp only [terminateRegisteredDescendants, mem_flatMap, mem_registered]
  constructor
  · rintro ⟨e, he, hd⟩
    obtain rfl := m.eq_of_mem_terminateRegisteredDescendant hd
    exact ⟨he, hd⟩
  · rintro ⟨hcall, hreaps⟩
    exact ⟨d, hcall, hreaps⟩

end Machine

/-! ## The word of a record -/

/-- What KILLED says, and what follows when somebody is alive after the kill. -/
structure KeepsWord (m : Machine) (calls : List (Nat × Nat)) (pid : Nat) (outcome : Outcome) : Prop where
  tree : outcome.status = .killed → ∀ p ∈ outcome.enumerated, m.phase p .marked ≠ .alive
  registered : outcome.status = .killed → ∀ d, (pid, d) ∈ calls → d ∈ outcome.signalled ∨ m.phase d .marked = .gone
  failure : outcome.forced = true → (∃ p ∈ outcome.enumerated, m.phase p .killWait = .alive) →
    outcome.status = .failed ∧ outcome.raised.isSome

section Ends

variable (m : Machine) (calls : List (Nat × Nat)) (pid : Nat)

theorem keepsWord_accessDenied : KeepsWord m calls pid accessDenied where
  tree h := by simp [accessDenied] at h
  registered h := by simp [accessDenied] at h
  failure h := by simp [accessDenied] at h

theorem keepsWord_unforced (tree signalled : List Nat) :
    KeepsWord m calls pid { status := .killed, raised := none, enumerated := tree, forced := false, signalled := signalled } ↔
      (∀ p ∈ tree, m.phase p .marked ≠ .alive) ∧ ∀ d, (pid, d) ∈ calls → d ∈ signalled ∨ m.phase d .marked = .gone := by
  constructor
  · intro h
    exact ⟨h.tree rfl, h.registered rfl⟩
  · rintro ⟨htree, hregistered⟩
    exact ⟨fun _ => htree, fun _ => hregistered, fun hforced => by simp at hforced⟩

theorem keepsWord_foundGone : KeepsWord m calls pid foundGone ↔ ∀ d, (pid, d) ∈ calls → m.phase d .marked = .gone := by
  rw [foundGone, keepsWord_unforced]
  simp

theorem keepsWord_forced (tree signalled : List Nat) :
    KeepsWord m calls pid { status := .killed, raised := none, enumerated := tree, forced := true, signalled := signalled } ↔
      (∀ p ∈ tree, m.phase p .killWait ≠ .alive) ∧ ∀ d, (pid, d) ∈ calls → d ∈ signalled ∨ m.phase d .marked = .gone := by
  constructor
  · intro h
    refine ⟨fun p hp halive => ?_, h.registered rfl⟩
    have hfailed := (h.failure rfl ⟨p, hp, halive⟩).1
    cases hfailed
  · rintro ⟨htree, hregistered⟩
    refine ⟨fun _ => m.dead_when_marked htree, fun _ => hregistered, ?_⟩
    rintro - ⟨p, hp, halive⟩
    exact absurd halive (htree p hp)

theorem keepsWord_failed (tree signalled : List Nat) : KeepsWord m calls pid
      { status := .failed, raised := some "force_kill", enumerated := tree, forced := true, signalled := signalled } where
  tree h := by cases h
  registered h := by cases h
  failure _ _ := ⟨rfl, rfl⟩

/-- Somebody is left, and the check of the path makes him out to be a zombie. -/
def Machine.Excused (tree : List Nat) (zombie : List Nat → Bool) : Prop :=
  m.stillAlive tree ≠ [] ∧ zombie (m.stillAlive tree) = true

theorem keepsWord_conclude (tree signalled : List Nat) (zombie : List Nat → Bool) :
    KeepsWord m calls pid (m.conclude (registered calls) pid tree signalled zombie) ↔
      (m.Excused tree zombie → ∀ p ∈ tree, m.phase p .killWait ≠ .alive) ∧
      (m.stillAlive tree = [] ∨ m.Excused tree zombie → ∀ d, (pid, d) ∈ calls →
        d ∈ signalled ∨ (¬ m.Excused tree zombie ∧ m.Reaps d) ∨ m.phase d .marked = .gone) := by
  by_cases hempty : m.stillAlive tree = []
  · have hexcused : ¬ m.Excused tree zombie := fun h => h.1 hempty
    have hdead := m.dead_of_empty hempty
    simp only [Machine.conclude, hempty, isEmpty_nil, if_true, keepsWord_forced, mem_append,
      m.mem_terminateRegisteredDescendants]
    constructor
    · rintro ⟨-, hregistered⟩
      refine ⟨fun h => absurd h hexcused, fun _ d hd => ?_⟩
      rcases hregistered d hd with (hsignalled | hreaped) | hgone
      · exact .inl hsignalled
      · exact .inr (.inl ⟨hexcused, hreaped.2⟩)
      · exact .inr (.inr hgone)
    · rintro ⟨-, hregistered⟩
      refine ⟨hdead, fun d hd => ?_⟩
      rcases hregistered (.inl trivial) d hd with hsignalled | hreaps | hgone
      · exact .inl (.inl hsignalled)
      · exact .inl (.inr ⟨hd, hreaps.2⟩)
      · exact .inr hgone
  · have hnonempty : (m.stillAlive tree).isEmpty = false := by simpa using hempty
    by_cases hzombie : zombie (m.stillAlive tree) = true
    · have hexcused : m.Excused tree zombie := ⟨hempty, hzombie⟩
      simp only [Machine.conclude, hnonempty, Bool.false_eq_true, if_false, hzombie, if_true, keepsWord_forced]
      simp [hexcused]
    · have hexcused : ¬ m.Excused tree zombie := fun h => hzombie h.2
      have hkeeps := keepsWord_failed m calls pid tree signalled
      simp only [Machine.conclude, hnonempty, Bool.false_eq_true, if_false, hzombie]
      exact ⟨fun _ => ⟨fun h => absurd h hexcused, fun h => absurd h (by simp [hempty, hexcused])⟩, fun _ => hkeeps⟩

end Ends

/-! ## The paths -/

def Path.owned : Path → Bool
  | .sync | .pty => true
  | .async | .asyncInSync | .byPid => false

section Paths

variable (m : Machine) (record : ProcessRecord) (path : Path)

/-- The owned process of an `invoke:` record reports its end at once, and psutil is not touched. -/
def Machine.Quits : Prop := path = .sync ∧ record.invokes = true ∧ m.exited record.pid = true

instance : Decidable (m.Quits record path) := inferInstanceAs (Decidable (_ ∧ _ ∧ _))

def Machine.zombieCheck : List Nat → Bool :=
  if path = .async then fun _ => m.verifyProcessLiveness record.pid .survivors = .zombie else m.anyZombie

/-- Whom a path signals before it comes to the registered descendants. -/
def Machine.touched (tree : List Nat) : List Nat :=
  (if path.owned then m.driven record.pid else []) ++ if m.Quits record path then [] else m.takenDown tree

def Machine.ZombieExit (tree : List Nat) : Prop :=
  ¬ m.Quits record path ∧ m.Excused tree (m.zombieCheck record path)

variable {m record}

theorem check_of_listed {tree : List Nat} (hlisted : m.enumerate record.pid = .ok tree) (t : Stage)
    (ht : t.index ≤ Stage.lookup.index) : m.verifyProcessLiveness record.pid t ≠ .gone := by
  intro hgone
  have hmissing := m.enumerate_of_gone ht hgone
  rw [hlisted] at hmissing
  cases hmissing

theorem terminated_listed (descendants : Descendants) {tree : List Nat} (hlisted : m.enumerate record.pid = .ok tree) :
    m.terminated descendants record path =
      if m.Quits record path then
        { status := .killed, raised := none, enumerated := tree, forced := false,
          signalled := m.touched record path tree ++ m.terminateRegisteredDescendants descendants record.pid }
      else m.conclude descendants record.pid tree (m.touched record path tree) (m.zombieCheck record path) := by
  have hcheck := check_of_listed hlisted .check (by decide)
  have hpty := check_of_listed hlisted .ptyCheck (by decide)
  cases path with
  | sync =>
    by_cases hquits : record.invokes = true ∧ m.exited record.pid = true
    · simp [Machine.terminated, Machine.escalateTerminationSync, hcheck, hlisted, Machine.Quits, Machine.touched, Path.owned, hquits]
    · simp [Machine.terminated, Machine.escalateTerminationSync, hcheck, hlisted, Machine.Quits, Machine.touched, Path.owned, hquits,
        Machine.zombieCheck]
  | pty =>
    simp [Machine.terminated, Machine.escalateTerminationPty, Machine.escalateTerminationSync, hcheck, hpty, hlisted, Machine.Quits,
      Machine.touched, Path.owned, Machine.zombieCheck]
  | async =>
    simp [Machine.terminated, Machine.escalateTerminationAsync, hcheck, hlisted, Machine.Quits, Machine.touched, Path.owned,
      Machine.zombieCheck]
  | asyncInSync =>
    simp [Machine.terminated, Machine.escalateAsyncInSyncContext, Machine.escalateWithPsutil, hcheck, hlisted, Machine.Quits,
      Machine.touched, Path.owned, Machine.zombieCheck]
  | byPid =>
    simp [Machine.terminated, Machine.terminateByPid, Machine.escalateWithPsutil, hcheck, hlisted, Machine.Quits, Machine.touched,
      Path.owned, Machine.zombieCheck]

theorem terminated_denied (descendants : Descendants) (hdenied : m.enumerate record.pid = .error .accessDenied) :
    m.terminated descendants record path = accessDenied := by
  have hchecks : ∀ t, t.index ≤ Stage.lookup.index → m.verifyProcessLiveness record.pid t ≠ .gone := by
    intro t ht hgone
    have hmissing := m.enumerate_of_gone ht hgone
    rw [hdenied] at hmissing
    cases hmissing
  have hcheck := hchecks .check (by decide)
  have hpty := hchecks .ptyCheck (by decide)
  cases path <;>
    simp [Machine.terminated, Machine.escalateTerminationSync, Machine.escalateTerminationPty, Machine.escalateTerminationAsync,
      Machine.escalateAsyncInSyncContext, Machine.terminateByPid, Machine.escalateWithPsutil, hcheck, hpty, hdenied]

/-- The async path goes on without the root, unless the check has seen that it is gone. -/
def Machine.GoesOn (m : Machine) (record : ProcessRecord) (path : Path) : Prop :=
  path = .async ∧ m.verifyProcessLiveness record.pid .check ≠ .gone

instance : Decidable (m.GoesOn record path) := inferInstanceAs (Decidable (_ ∧ _))

theorem terminated_missing (descendants : Descendants) (hmissing : m.enumerate record.pid = .error .noSuchProcess) :
    m.terminated descendants record path =
      if m.GoesOn record path then
        { foundGone with signalled := m.terminateRegisteredDescendants descendants record.pid }
      else foundGone := by
  cases path with
  | async =>
    by_cases hcheck : m.verifyProcessLiveness record.pid .check = .gone
    · simp [Machine.terminated, Machine.escalateTerminationAsync, Machine.GoesOn, hcheck]
    · simp [Machine.terminated, Machine.escalateTerminationAsync, Machine.GoesOn, hcheck, hmissing]
  | sync => simp [Machine.terminated, Machine.escalateTerminationSync, Machine.GoesOn, hmissing]
  | pty => simp [Machine.terminated, Machine.escalateTerminationPty, Machine.escalateTerminationSync, Machine.GoesOn, hmissing]
  | asyncInSync => simp [Machine.terminated, Machine.escalateAsyncInSyncContext, Machine.escalateWithPsutil, Machine.GoesOn, hmissing]
  | byPid => simp [Machine.terminated, Machine.terminateByPid, Machine.escalateWithPsutil, Machine.GoesOn, hmissing]

end Paths

/-! ## When it is kept -/

/-- Where a path marks the record, the others die on their own, and each registered PID is gone or signalled. -/
structure Spared (m : Machine) (calls : List (Nat × Nat)) (record : ProcessRecord) (path : Path) : Prop where
  missing : m.enumerate record.pid = .error .noSuchProcess → ∀ d, (record.pid, d) ∈ calls →
    (m.GoesOn record path ∧ m.Reaps d) ∨ m.phase d .marked = .gone
  quits : ∀ tree, m.enumerate record.pid = .ok tree → m.Quits record path → ∀ p ∈ tree, m.phase p .marked ≠ .alive
  zombie : ∀ tree, m.enumerate record.pid = .ok tree → m.ZombieExit record path tree → ∀ p ∈ tree, m.phase p .killWait ≠ .alive
  registered : ∀ tree, m.enumerate record.pid = .ok tree →
    m.Quits record path ∨ m.stillAlive tree = [] ∨ m.ZombieExit record path tree → ∀ d, (record.pid, d) ∈ calls →
      d ∈ m.touched record path tree ∨ (¬ m.ZombieExit record path tree ∧ m.Reaps d) ∨ m.phase d .marked = .gone

section

variable {m : Machine} {calls : List (Nat × Nat)} {record : ProcessRecord} {path : Path}

theorem spared_listed {tree : List Nat} (hlisted : m.enumerate record.pid = .ok tree) : Spared m calls record path ↔
      (m.Quits record path → ∀ p ∈ tree, m.phase p .marked ≠ .alive) ∧
      (m.ZombieExit record path tree → ∀ p ∈ tree, m.phase p .killWait ≠ .alive) ∧
      (m.Quits record path ∨ m.stillAlive tree = [] ∨ m.ZombieExit record path tree → ∀ d, (record.pid, d) ∈ calls →
        d ∈ m.touched record path tree ∨ (¬ m.ZombieExit record path tree ∧ m.Reaps d) ∨ m.phase d .marked = .gone) := by
  constructor
  · intro h
    exact ⟨h.quits tree hlisted, h.zombie tree hlisted, h.registered tree hlisted⟩
  · rintro ⟨hquits, hzombie, hregistered⟩
    have hsame : ∀ other, m.enumerate record.pid = .ok other → other = tree := by
      intro other hother
      rw [hlisted] at hother
      cases hother
      rfl
    refine ⟨fun h => ?_, fun other hother => ?_, fun other hother => ?_, fun other hother => ?_⟩
    · rw [hlisted] at h
      cases h
    · exact hsame other hother ▸ hquits
    · exact hsame other hother ▸ hzombie
    · exact hsame other hother ▸ hregistered

theorem keepsWord_listed {tree : List Nat} (hlisted : m.enumerate record.pid = .ok tree) :
    KeepsWord m calls record.pid (m.terminated (registered calls) record path) ↔ Spared m calls record path := by
  rw [terminated_listed path (registered calls) hlisted, spared_listed hlisted]
  by_cases hquits : m.Quits record path
  · have hexit : ¬ m.ZombieExit record path tree := fun h => h.1 hquits
    rw [if_pos hquits, keepsWord_unforced]
    simp only [mem_append, m.mem_terminateRegisteredDescendants, hquits, hexit, true_or, not_false_eq_true, true_and, forall_const,
      false_imp_iff]
    refine and_congr_right fun _ => forall₂_congr fun d hd => ?_
    simp only [hd, true_and, or_assoc]
  · have hexit : m.ZombieExit record path tree ↔ m.Excused tree (m.zombieCheck record path) :=
      ⟨fun h => h.2, fun h => ⟨hquits, h⟩⟩
    rw [if_neg hquits, keepsWord_conclude]
    simp only [hquits, hexit, false_imp_iff, false_or, true_and]

theorem keepsWord_missing (hmissing : m.enumerate record.pid = .error .noSuchProcess) :
    KeepsWord m calls record.pid (m.terminated (registered calls) record path) ↔ Spared m calls record path := by
  have hspared : Spared m calls record path ↔ ∀ d, (record.pid, d) ∈ calls → (m.GoesOn record path ∧ m.Reaps d) ∨ m.phase d .marked = .gone := by
    refine ⟨fun h => h.missing hmissing, fun h => ⟨fun _ => h, ?_, ?_, ?_⟩⟩ <;>
    · intro tree hlisted
      rw [hmissing] at hlisted
      cases hlisted
  rw [terminated_missing path (registered calls) hmissing, hspared]
  by_cases hgoes : m.GoesOn record path
  · rw [if_pos hgoes, foundGone, keepsWord_unforced]
    simp only [m.mem_terminateRegisteredDescendants, hgoes, true_and, not_mem_nil, false_imp_iff, implies_true]
    refine forall₂_congr fun d hd => ?_
    simp only [hd, true_and]
  · rw [if_neg hgoes, keepsWord_foundGone]
    simp only [hgoes, false_and, false_or]

theorem keepsWord_denied (hdenied : m.enumerate record.pid = .error .accessDenied) :
    KeepsWord m calls record.pid (m.terminated (registered calls) record path) ↔ Spared m calls record path := by
  rw [terminated_denied path (registered calls) hdenied]
  refine iff_of_true (keepsWord_accessDenied m calls record.pid) ⟨?_, ?_, ?_, ?_⟩
  · intro hmissing
    rw [hdenied] at hmissing
    cases hmissing
  all_goals
    intro tree hlisted
    rw [hdenied] at hlisted
    cases hlisted

end

/-- A record keeps its word on every path exactly when the processes spare it. -/
theorem keepsWord_iff_spared (m : Machine) (calls : List (Nat × Nat)) (record : ProcessRecord) (path : Path) :
    KeepsWord m calls record.pid (m.terminated (registered calls) record path) ↔ Spared m calls record path := by
  cases hroot : m.enumerate record.pid with
  | ok tree => exact keepsWord_listed hroot
  | error refusal =>
    cases refusal with
    | noSuchProcess => exact keepsWord_missing hroot
    | accessDenied => exact keepsWord_denied hroot

/-! ## A tree that is left behind -/

def mortal (last : Nat → Nat) (after : Nat → Phase) (children : List Nat) : Machine where
  phase pid t := if t.index < last pid then .alive else after pid
  fades pid t u htu := by
    by_cases ht : t.index < last pid
    · simp [ht, Phase.rank]
    · have hu : ¬ u.index < last pid := by omega
      simp [ht, hu]
  children := children
  answer _ _ := {}
  waitFails _ := false

/-- The child ends when it is told to, and the root, which survives the kill, never waits for it. -/
def unreaped : Machine :=
  mortal (fun pid => if pid = 11 then Stage.graceWait.index else Stage.marked.index + 1) (fun _ => .zombie) [11]

/-- The zombie passes for the tree: the record is KILLED over a root that is alive. -/
theorem zombie_hides_root : ¬ KeepsWord unreaped [] 10 (unreaped.terminated (registered []) ⟨10, none⟩ .sync) := by
  intro h
  have halive : unreaped.phase 10 .marked = .alive := by decide
  have hkilled : (unreaped.terminated (registered []) ⟨10, none⟩ .sync).status = .killed := by decide
  have hroot : 10 ∈ (unreaped.terminated (registered []) ⟨10, none⟩ .sync).enumerated := by decide
  exact h.tree hkilled 10 hroot halive

end RalphWorkflow.Escalation
