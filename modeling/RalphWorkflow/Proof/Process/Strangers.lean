import RalphWorkflow.Process.Teardown

/-! A process that psutil gave is ours once it was found to be, and stays so. A number is not: a group is ours only as long as the session
that was last opened under its number is. -/
namespace RalphWorkflow.Teardown
open Lib List
open Lib.ProcessTree (World boot)

variable {s next : State} {i : Nat} {call : Call} {label : Label} {there : Bool}

def Ours (s : State) (i : Nat) : Prop :=
  ∃ self, s.self = some self ∧ s.world.Descends self i

def OwnGroup (s : State) (group : Nat) : Prop :=
  s.world.members group = [] ∨ ∃ opener, s.world.opener group = some opener ∧ Ours s opener

def CallGuarded (s : State) : Call → Prop
  | .sweeping group false => s.groupIsSafe group = true → OwnGroup s group
  | .sweeping group true => OwnGroup s group
  | .killGroup group _ => 1 < group → OwnGroup s group
  | .byPid pid _ | .reaping (pid :: _) _ => ∀ i, s.world.holder pid = some i → Ours s i
  | _ => True

def Guarded (s : State) : Label → Prop
  | .advance call _ => ∀ current, s.calls[call]? = some current → CallGuarded s current
  | _ => True

def Call.targets : Call → List Nat
  | .verifying _ host | .leading _ host | .forgetting _ host _ => host.toList
  | .listing host _ => [host]
  | .terminating rest procs _ | .stopping rest procs _ _ => rest ++ procs
  | .killing rest _ | .finishing rest _ _ => rest
  | .reapingOne i _ _ _ => [i]
  | _ => []

structure Kept (s : State) : Prop where
  sound : s.world.Sound
  running : ∀ self, s.self = some self → s.world.Running self
  targets : ∀ call ∈ s.calls, ∀ i ∈ call.targets, Ours s i
  signalled : ∀ i ∈ s.signalled, Ours s i

/-! ## What is ours -/

theorem walk_descends (hs : Kept s) {self steps : Nat} (hself : s.self = some self) (h : s.walk self steps i = true) : s.world.Descends self i := by
  induction steps generalizing i with
  | zero => cases h
  | succ steps ih =>
    rw [State.walk] at h
    cases hparent : s.world.parent i with
    | none => simp [hparent] at h
    | some parent =>
      simp only [hparent] at h
      have hcreator := World.creator_of_parent hparent
      split_ifs at h with hinit hsame
      · -- the parent has the number of this process, so it is this process
        obtain ⟨p, hp, hrunning⟩ := World.running_of_parent hparent
        obtain ⟨q, hq, hself'⟩ := hs.running self hself
        have hpid : p.pid = q.pid := by
          simpa [State.pidOf, hp, hq] using hsame
        have heq : parent = self := by
          refine hs.sound.distinct parent p self q ⟨hp, ?_⟩ ⟨hq, ?_⟩ hpid
          · rw [hrunning]
            nofun
          · rw [hself']
            nofun
        rw [heq] at hcreator
        exact .created hcreator .here
      · exact .created hcreator (ih h)

theorem ours_of_isOwnDescendant (hs : Kept s) (h : s.isOwnDescendant i = true) : Ours s i := by
  cases hself : s.self with
  | none => simp [State.isOwnDescendant, hself] at h
  | some self =>
    simp only [State.isOwnDescendant, hself, Option.any_some] at h
    exact ⟨self, hself, walk_descends hs hself h⟩

theorem Ours.descends (h : Ours s i) {j : Nat} (hj : s.world.Descends i j) : Ours s j := by
  obtain ⟨self, hself, hdescends⟩ := h
  exact ⟨self, hself, hdescends.trans hj⟩

theorem ours_of_tree (h : Ours s i) : ∀ j ∈ i :: s.world.descendants i, Ours s j := by
  intro j hj
  rcases mem_cons.mp hj with rfl | hj
  · exact h
  · exact h.descends (World.descends_of_mem_descendants hj)

theorem ours_of_group (hs : Kept s) {group : Nat} (h : OwnGroup s group) : ∀ j ∈ s.world.members group, Ours s j := by
  intro j hj
  rcases h with hnone | ⟨opener, hopener, hours⟩
  · rw [hnone] at hj
    cases hj
  · exact hours.descends (hs.sound.member_descends hopener hj)

theorem ours_send (hs : ∀ j ∈ s.signalled, Ours s j) (hi : Ours s i) : ∀ j ∈ (s.send i).signalled, Ours s j := by
  unfold State.send
  split_ifs
  · intro j hj
    rcases mem_append.mp hj with hj | hj
    · exact hs j hj
    · rw [mem_singleton.mp hj]
      exact hi
  · exact hs

theorem ours_killpg (hs : Kept s) {group : Nat} (h : OwnGroup s group) : ∀ j ∈ (s.killpg group).signalled, Ours s j := by
  intro j hj
  rcases mem_append.mp hj with hj | hj
  · exact hs.signalled j hj
  · exact ours_of_group hs h j hj

/-! ## The calls -/

/-- What a step of a call leaves: the machine as it is, and nothing but processes of ours signalled or to be. -/
structure Turned (s : State) (turn : State × Option Call) : Prop where
  world : turn.1.world = s.world
  self : turn.1.self = s.self
  calls : turn.1.calls = s.calls
  signalled : ∀ i ∈ turn.1.signalled, Ours s i
  targets : ∀ call ∈ turn.2, ∀ i ∈ call.targets, Ours s i

theorem Turned.asked (hs : Kept s) {left : Option Call} (h : ∀ call ∈ left, ∀ i ∈ call.targets, Ours s i) : Turned s (s, left) where
  world := rfl
  self := rfl
  calls := rfl
  signalled := hs.signalled
  targets := h

theorem Turned.sent (hs : Kept s) {left : Option Call} (hi : Ours s i) (h : ∀ call ∈ left, ∀ i ∈ call.targets, Ours s i) :
    Turned s (s.send i, left) where
  world := by unfold State.send; split_ifs <;> rfl
  self := by unfold State.send; split_ifs <;> rfl
  calls := by unfold State.send; split_ifs <;> rfl
  signalled := ours_send hs.signalled hi
  targets := h

theorem Turned.group (hs : Kept s) {group : Nat} {left : Option Call} (hgroup : OwnGroup s group)
    (h : ∀ call ∈ left, ∀ i ∈ call.targets, Ours s i) : Turned s (s.killpg group, left) where
  world := rfl
  self := rfl
  calls := rfl
  signalled := ours_killpg hs hgroup
  targets := h

theorem idle_nextRecord (others : List Nat) : ∀ call ∈ nextRecord others, ∀ i ∈ call.targets, Ours s i := by
  cases others with
  | nil => nofun
  | cons pid others =>
    intro call hcall
    cases hcall
    nofun

theorem idle_nextDescendant (pids others : List Nat) : ∀ call ∈ nextDescendant pids others, ∀ i ∈ call.targets, Ours s i := by
  cases pids with
  | nil => exact idle_nextRecord others
  | cons pid pids =>
    intro call hcall
    cases hcall
    nofun

theorem idle_sweep (group : Option Nat) : ∀ call ∈ sweep group, ∀ i ∈ call.targets, Ours s i := by
  cases group with
  | none => nofun
  | some group =>
    intro call hcall
    cases hcall
    nofun

theorem ours_of_mem_append {rest procs : List Nat} (h : ∀ j ∈ i :: rest ++ procs, Ours s j) : Ours s i ∧ ∀ j ∈ rest ++ procs, Ours s j :=
  forall_mem_cons.mp h

theorem advance_turned (hs : Kept s) (htargets : ∀ i ∈ call.targets, Ours s i) (hguard : CallGuarded s call) : Turned s (advance s there call) := by
  cases call with
  | verifying pid host =>
    have hrefused : ∀ left ∈ host.map fun i => Call.forgetting pid (some i) none, ∀ i ∈ left.targets, Ours s i := by
      intro left hleft
      obtain ⟨i, rfl, rfl⟩ := Option.map_eq_some_iff.mp hleft
      exact htargets
    simp only [advance]
    split_ifs
    · exact .asked hs hrefused
    · split
      · exact .asked hs hrefused
      · refine .asked hs ?_
        split_ifs
        · intro left hleft
          cases hleft
          exact htargets
        · exact hrefused
  | leading pid host =>
    simp only [advance]
    cases host with
    | none =>
      refine .asked hs ?_
      split_ifs
      · intro left hleft
        cases hleft
        nofun
      · nofun
    | some i =>
      refine .asked hs fun left hleft => ?_
      cases hleft
      exact htargets
  | recording pid =>
    unfold advance State.record
    exact ⟨rfl, rfl, rfl, hs.signalled, nofun⟩
  | resolving hostPid =>
    simp only [advance]
    split_ifs <;>
      · refine .asked hs fun left hleft => ?_
        cases hleft
        nofun
  | looking hostPid group =>
    simp only [advance]
    split
    · refine .asked hs fun left hleft => ?_
      cases hleft
      nofun
    · split_ifs with hown
      · have hours := ours_of_isOwnDescendant hs hown
        split <;>
          · refine .asked hs fun left hleft => ?_
            cases hleft
            simpa [Call.targets] using hours
      · refine .asked hs fun left hleft => ?_
        cases hleft
        nofun
  | forgetting hostPid host group =>
    simp only [advance]
    cases host with
    | none => exact ⟨rfl, rfl, rfl, hs.signalled, idle_sweep group⟩
    | some i =>
      refine ⟨rfl, rfl, rfl, hs.signalled, fun left hleft => ?_⟩
      cases hleft
      simpa [Call.targets] using htargets
  | listing host group =>
    have hours : Ours s host := htargets host (by simp [Call.targets])
    refine .asked hs fun left hleft => ?_
    cases hleft
    have htree := ours_of_tree hours
    intro i hi
    simp only [Call.targets, mem_append, or_self] at hi
    split_ifs at hi
    · exact htree i hi
    · rw [mem_singleton.mp hi]
      exact hours
  | terminating rest procs group =>
    cases rest with
    | nil =>
      refine .asked hs fun left hleft => ?_
      cases hleft
      exact htargets
    | cons i rest =>
      obtain ⟨hi, hrest⟩ := ours_of_mem_append htargets
      refine .sent hs hi fun left hleft => ?_
      cases hleft
      exact hrest
  | killing rest group =>
    cases rest with
    | nil => exact .asked hs (idle_sweep group)
    | cons i rest =>
      obtain ⟨hi, hrest⟩ := forall_mem_cons.mp htargets
      have hleft : ∀ left ∈ some (Call.killing rest group), ∀ j ∈ left.targets, Ours s j := by
        intro left hleft
        cases hleft
        exact hrest
      simp only [advance]
      split_ifs
      · exact .sent hs hi hleft
      · exact .asked hs hleft
  | sweeping group last =>
    cases last with
    | true => exact .group hs hguard nofun
    | false =>
      simp only [advance]
      split_ifs with hsafe
      · refine .group hs (hguard hsafe) fun left hleft => ?_
        cases hleft
        nofun
      · exact .group hs (hguard hsafe) nofun
      · exact .asked hs nofun
  | killGroup group others =>
    simp only [advance]
    split_ifs with hlow
    · exact .asked hs (idle_nextRecord others)
    · exact .group hs (hguard (Nat.lt_of_not_le hlow)) (idle_nextRecord others)
  | byPid pid others =>
    simp only [advance]
    split
    · exact .asked hs (idle_nextRecord others)
    · rename_i i hholder
      refine .asked hs fun left hleft => ?_
      cases hleft
      intro j hj
      simp only [Call.targets, mem_append, or_self] at hj
      exact ours_of_tree (hguard i hholder) j hj
  | stopping rest procs pid others =>
    cases rest with
    | nil =>
      refine .asked hs fun left hleft => ?_
      cases hleft
      exact htargets
    | cons i rest =>
      obtain ⟨hi, hrest⟩ := ours_of_mem_append htargets
      refine .sent hs hi fun left hleft => ?_
      cases hleft
      exact hrest
  | finishing rest pid others =>
    cases rest with
    | nil =>
      simp only [advance]
      split_ifs
      · exact .asked hs (idle_nextRecord others)
      · exact ⟨rfl, rfl, rfl, hs.signalled, idle_nextDescendant _ others⟩
    | cons i rest =>
      obtain ⟨hi, hrest⟩ := forall_mem_cons.mp htargets
      have hleft : ∀ left ∈ some (Call.finishing rest pid others), ∀ j ∈ left.targets, Ours s j := by
        intro left hleft
        cases hleft
        exact hrest
      simp only [advance]
      split_ifs
      · exact .sent hs hi hleft
      · exact .asked hs hleft
  | reaping pids others =>
    cases pids with
    | nil => exact .asked hs (idle_nextRecord others)
    | cons pid pids =>
      simp only [advance]
      split
      · exact .asked hs (idle_nextDescendant pids others)
      · rename_i i hholder
        refine .asked hs fun left hleft => ?_
        cases hleft
        intro j hj
        rw [mem_singleton.mp hj]
        exact hguard i hholder
  | reapingOne i last pids others =>
    have hi : Ours s i := htargets i (by simp [Call.targets])
    cases last with
    | true => exact .sent hs hi (idle_nextDescendant pids others)
    | false =>
      refine .sent hs hi fun left hleft => ?_
      cases hleft
      exact htargets

/-! ## Runs -/

theorem Ours.grows (h : Ours s i) {world : World} (hgrows : s.world.Grows world) : Ours { s with world := world } i := by
  obtain ⟨self, hself, hdescends⟩ := h
  exact ⟨self, hself, hdescends.grows hgrows⟩

theorem Kept.on (hs : Kept s) {world : World} (hstep : world.Sound ∧ s.world.Grows world)
    (hrunning : ∀ self, s.self = some self → world.Running self) : Kept { s with world := world } where
  sound := hstep.1
  running := hrunning
  targets call hcall i hi := (hs.targets call hcall i hi).grows hstep.2
  signalled i hi := (hs.signalled i hi).grows hstep.2

theorem Kept.start (hs : Kept s) {new : Call} (hnew : new.targets = []) : Kept (s.start new) where
  sound := hs.sound
  running := hs.running
  targets call hcall i hi := by
    rcases mem_append.mp hcall with hcall | hcall
    · exact hs.targets call hcall i hi
    · rw [mem_singleton.mp hcall, hnew] at hi
      cases hi
  signalled := hs.signalled

theorem Kept.begin (hs : Kept s) (hself : s.self = none) {self : Nat} (hrunning : s.world.Running self) : Kept { s with self := some self } := by
  have hnobody : ∀ i, ¬Ours s i := by
    rintro i ⟨self, hsome, -⟩
    rw [hself] at hsome
    cases hsome
  refine ⟨hs.sound, fun other hother => ?_, fun call hcall i hi => ?_, fun i hi => ?_⟩
  · cases hother
    exact hrunning
  · exact absurd (hs.targets call hcall i hi) (hnobody i)
  · exact absurd (hs.signalled i hi) (hnobody i)

theorem Kept.turn (hs : Kept s) {turn : State × Option Call} (h : Turned s turn) {calls : List Call}
    (hcalls : ∀ call ∈ calls, call ∈ s.calls ∨ call ∈ turn.2) : Kept { turn.1 with calls := calls } := by
  have hours : ∀ i, Ours s i → Ours { turn.1 with calls := calls } i := by
    rintro i ⟨self, hself, hdescends⟩
    exact ⟨self, h.self.trans hself, by rw [show State.world _ = s.world from h.world]; exact hdescends⟩
  refine ⟨?_, ?_, fun call hcall i hi => ?_, fun i hi => hours i (h.signalled i hi)⟩
  · rw [show State.world _ = s.world from h.world]
    exact hs.sound
  · rw [show State.world _ = s.world from h.world, show State.self _ = s.self from h.self]
    exact hs.running
  · rcases hcalls call hcall with hcall | hcall
    · exact hours i (hs.targets call hcall i hi)
    · exact hours i (h.targets call hcall i hi)

theorem step_kept (hs : Kept s) (hguarded : Guarded s label) (hstep : step s label = some next) : Kept next := by
  cases label with
  | fork parent pid =>
    obtain ⟨world, hworld, rfl⟩ := Option.map_eq_some_iff.mp hstep
    exact hs.on (World.fork_sound hs.sound hworld) fun self hself => World.fork_running (hs.running self hself) hworld
  | setsid i =>
    obtain ⟨world, hworld, rfl⟩ := Option.map_eq_some_iff.mp hstep
    exact hs.on (World.setsid_sound hs.sound hworld) fun self hself => World.setsid_running (hs.running self hself) hworld
  | exit i =>
    obtain ⟨hother, hstep⟩ := Option.ite_none_left_eq_some.mp hstep
    obtain ⟨world, hworld, rfl⟩ := Option.map_eq_some_iff.mp hstep
    refine hs.on (World.exit_sound hs.sound hworld) fun self hself => ?_
    refine World.exit_running (hs.running self hself) ?_ hworld
    rintro rfl
    exact hother hself
  | reap i =>
    obtain ⟨world, hworld, rfl⟩ := Option.map_eq_some_iff.mp hstep
    exact hs.on (World.reap_sound hs.sound hworld) fun self hself => World.reap_running (hs.running self hself) hworld
  | begin i =>
    obtain ⟨⟨hself, hrunning⟩, hnext⟩ := Option.ite_none_right_eq_some.mp hstep
    cases hnext
    refine hs.begin hself ?_
    cases hp : s.world.procs[i]? with
    | none => simp [hp] at hrunning
    | some p => exact ⟨p, hp, by simpa [hp] using hrunning⟩
  | track i =>
    obtain ⟨p, -, hnext⟩ := Option.bind_eq_some_iff.mp hstep
    obtain ⟨-, hnext⟩ := Option.ite_none_right_eq_some.mp hnext
    cases hnext
    exact ⟨hs.sound, hs.running, hs.targets, hs.signalled⟩
  | registerDescendant parentPid descendantPid =>
    simp only [step] at hstep
    split_ifs at hstep
    · cases hstep
      exact hs
    · cases hstep
      exact ⟨hs.sound, hs.running, hs.targets, hs.signalled⟩
  | registerChildSession pid =>
    cases hstep
    exact hs.start rfl
  | teardownSubtree hostPid =>
    cases hstep
    exact hs.start rfl
  | cleanupOrphans record labelled =>
    obtain ⟨⟨pid, pgid⟩, -, hnext⟩ := Option.bind_eq_some_iff.mp hstep
    obtain ⟨-, hnext⟩ := Option.ite_none_right_eq_some.mp hnext
    cases hnext
    exact hs.start rfl
  | advance k there =>
    obtain ⟨call, hcall, hnext⟩ := Option.map_eq_some_iff.mp hstep
    have hmem : call ∈ s.calls := mem_of_getElem? hcall
    have hturn : Turned s (advance s there call) := advance_turned hs (hs.targets call hmem) (hguarded call hcall)
    cases hleft : (advance s there call).2 with
    | none =>
      simp only [hleft] at hnext
      rw [← hnext]
      refine hs.turn hturn fun other hother => .inl ?_
      rw [hturn.calls] at hother
      exact mem_of_mem_eraseIdx hother
    | some left =>
      simp only [hleft] at hnext
      rw [← hnext]
      refine hs.turn hturn fun other hother => ?_
      rw [hturn.calls] at hother
      rcases mem_or_eq_of_mem_set hother with hother | rfl
      · exact .inl hother
      · exact .inr hleft

theorem start_kept : Kept {} where
  sound := World.boot_sound
  running := nofun
  targets := nofun
  signalled := nofun

/-- As long as no stranger has a number when it is all a call has, signals go to processes of ours. -/
theorem signals_ours {labels : List Label} (hguarded : Run.Throughout step (fun s label _ => Guarded s label) {} labels)
    (hrun : Run.run step {} labels = some s) : ∀ i ∈ s.signalled, Ours s i := by
  have hkeeps : ∀ s label next, Kept s → Guarded s label → step s label = some next → Kept next :=
    fun _ _ _ hs hguard hstep => step_kept hs hguard hstep
  exact (hguarded.invariant hkeeps start_kept hrun).signalled

def childSession : List Label :=
  [.fork 0 5, .begin 1, .fork 1 7, .setsid 2, .track 2]

def cleanedUp : List Label :=
  childSession ++ [.cleanupOrphans 0 [], .advance 0 true]

theorem cleanedUp_guarded : Run.Throughout step (fun s label _ => Guarded s label) {} cleanedUp := by
  refine .cons rfl trivial (.cons rfl trivial (.cons rfl trivial (.cons rfl trivial (.cons rfl trivial (.cons rfl trivial ?_)))))
  refine .cons rfl ?_ trivial
  intro current hcurrent
  cases hcurrent
  intro _
  exact .inr ⟨2, rfl, 1, rfl, .created rfl .here⟩

/-- Only the child is signalled, and it is ours. -/
theorem cleanedUp_ours : ∃ s, Run.run step {} cleanedUp = some s ∧ s.signalled = [2] ∧ ∀ i ∈ s.signalled, Ours s i := by
  have hrun : (Run.run step {} cleanedUp).map (·.signalled) = some [2] := by decide +kernel
  obtain ⟨s, hrun, hsignalled⟩ := Option.map_eq_some_iff.mp hrun
  exact ⟨s, hrun, hsignalled, signals_ours cleanedUp_guarded hrun⟩

/-- A stranger gets the child's number and opens a session under it. -/
def takenOver : List Label :=
  childSession ++ [.registerChildSession 7, .advance 0 true, .advance 0 true, .advance 0 true, .exit 2, .reap 2, .fork 0 7, .setsid 3]

/-- The stranger is gone, its own child is not, and the registry still has the number. -/
def tornDown : List Label :=
  takenOver ++
    [.fork 3 9, .exit 3, .reap 3, .teardownSubtree 7, .advance 0 true, .advance 0 true, .advance 0 true, .advance 0 true]

/-- `cleanup_orphans` does not ask whose the group is. -/
def orphansCleanedUp : List Label :=
  takenOver ++ [.cleanupOrphans 0 [], .advance 0 true]

theorem strangers_signalled : (Run.run step {} tornDown).map (fun s => (s.signalled, s.self, s.world.procs.map (·.creator))) =
        some ([4], some 1, [none, some 0, some 1, some 0, some 3]) ∧
      (Run.run step {} orphansCleanedUp).map (fun s => (s.signalled, s.self, s.world.procs.map (·.creator))) =
        some ([3], some 1, [none, some 0, some 1, some 0]) := by
  constructor <;> decide +kernel

theorem teardown_signals_strangers : ¬ ∀ (labels : List Label) (s : State), Run.run step {} labels = some s → ∀ i ∈ s.signalled, Ours s i := by
  intro hclaim
  obtain ⟨s, hrun, hs⟩ := Option.map_eq_some_iff.mp strangers_signalled.1
  obtain ⟨hsignalled, hrest⟩ := Prod.mk.inj hs
  obtain ⟨hself, hcreators⟩ := Prod.mk.inj hrest
  have hcreator : ∀ i, s.world.creator i = ([none, some 0, some 1, some 0, some 3][i]?).join := by
    intro i
    rw [← hcreators, List.getElem?_map, World.creator]
    cases s.world.procs[i]? <;> rfl
  obtain ⟨self, hsome, hdescends⟩ := hclaim tornDown s hrun 4 (by simp [hsignalled])
  cases hself.symm.trans hsome
  -- the chain of creators goes by the stranger to the first process
  cases hdescends with
  | created h4 hdescends =>
    cases (hcreator 4).symm.trans h4
    cases hdescends with
    | created h3 hdescends =>
      cases (hcreator 3).symm.trans h3
      cases hdescends with
      | created h0 _ => cases (hcreator 0).symm.trans h0

end RalphWorkflow.Teardown
