import RalphWorkflow.Mcp.RestartBridge

/-! One thread at a time is inside a call, and the server it is about to replace is dead when the next is spawned. What the lock does not give are
the guards: a start that fails is not counted, a reset keeps the count of failed probes, and the bridge's shutdown neither takes the lock nor is
remembered. -/
namespace RalphWorkflow.RestartBridge
open Lib Option Bool

variable {maxRestarts : Nat} {s next : State} {thread : Nat} {event : Event} {label : Label}

structure Bounded (maxRestarts : Nat) (s : State) : Prop where
  one : s.alive.length ≤ 1
  budget : s.ledger.attempts ≤ maxRestarts
  patient : s.ledger.hasty = false
  down : s.ledger.down = true → s.alive = []
  never_late : s.ledger.late = false

def Guarded (maxRestarts : Nat) (s : State) (label : Label) : Prop :=
  match label with
  | .die _ => True
  | .act thread event =>
    match s.threads thread, event with
    | .starting call, .spawn raises =>
      -- the starts that failed count, no server but the one just stopped is left, and the bridge is not shut down
      (call = .check → s.bridge.restartCount + s.ledger.failures < maxRestarts) ∧
        (raises = none → (∀ server ∈ s.alive, server = s.bridge.inner) ∧ s.ledger.down = false)
    -- the failed probes were all of the server that is there
    | .probing, .probeFailed => replaces maxRestarts s = true → probeFailuresBeforeRestart ≤ s.ledger.misses + 1
    -- no other server than the one it has stopped is left
    | .shutting server, .shutdownEnds none => ∀ other ∈ s.alive, other = server
    | _, _ => True

/-! ## One thread inside -/

def Place.flying : Place → Bool
  | .preflight .check _ | .abandoning .check _ => true
  | _ => false

def underWay (s : State) : Nat :=
  match s.lock with
  | some thread => if (s.threads thread).flying then 1 else 0
  | none => 0

structure Orderly (s : State) : Prop where
  inner_spawned : s.bridge.inner < s.spawned
  alive_spawned : ∀ server ∈ s.alive, server < s.spawned
  flight_spawned : ∀ t call server, s.threads t = .preflight call server → server < s.spawned
  holder : ∀ t, (s.threads t).inside = true → s.lock = some t
  stopped : ∀ t call, s.threads t = .starting call → s.bridge.inner ∉ s.alive
  counted : s.ledger.attempts = s.bridge.restartCount + s.ledger.failures + underWay s

theorem start_orderly : Orderly start where
  inner_spawned := by decide
  alive_spawned := by decide
  flight_spawned := nofun
  holder := nofun
  stopped := nofun
  counted := rfl

@[simp] theorem at_threads_self (s : State) (thread : Nat) (place : Place) : (s.at thread place).threads thread = place :=
  if_pos rfl

theorem at_threads_other (s : State) {thread t : Nat} (place : Place) (h : t ≠ thread) : (s.at thread place).threads t = s.threads t :=
  if_neg h

@[simp] theorem afterCall_inside (thread : Nat) (raised : Option Raised) : (afterCall thread raised).inside = false := by
  unfold afterCall
  split_ifs
  · rfl
  · split <;> rfl

theorem inside_of_flying {place : Place} (h : place.flying = true) : place.inside = true := by
  unfold Place.flying at h
  split at h
  · rfl
  · rfl
  · cases h

theorem flying_of_outside {place : Place} (h : place.inside = false) : place.flying = false := by
  by_contra hflying
  rw [inside_of_flying (not_eq_false _ ▸ hflying)] at h
  cases h

theorem Orderly.outside (h : Orderly s) (hbridge : next.bridge = s.bridge) (hspawned : next.spawned = s.spawned)
    (halive : ∀ server ∈ next.alive, server ∈ s.alive) (hlock : next.lock = s.lock)
    (hattempts : next.ledger.attempts = s.ledger.attempts) (hfailures : next.ledger.failures = s.ledger.failures)
    (hthreads : ∀ t, next.threads t = s.threads t ∨ (s.threads t).inside = false ∧ (next.threads t).inside = false) :
    Orderly next where
  inner_spawned := by rw [hbridge, hspawned]; exact h.inner_spawned
  alive_spawned server hserver := by rw [hspawned]; exact h.alive_spawned server (halive server hserver)
  flight_spawned t call server ht := by
    rw [hspawned]
    rcases hthreads t with hsame | ⟨-, hoff⟩
    · exact h.flight_spawned t call server (hsame ▸ ht)
    · rw [ht] at hoff
      cases hoff
  holder t ht := by
    rw [hlock]
    rcases hthreads t with hsame | ⟨-, hoff⟩
    · exact h.holder t (hsame ▸ ht)
    · rw [hoff] at ht
      cases ht
  stopped t call ht := by
    rw [hbridge]
    intro hinner
    rcases hthreads t with hsame | ⟨-, hoff⟩
    · exact h.stopped t call (hsame ▸ ht) (halive _ hinner)
    · rw [ht] at hoff
      cases hoff
  counted := by
    have hway : underWay next = underWay s := by
      unfold underWay
      rw [hlock]
      cases s.lock with
      | none => rfl
      | some t =>
        rcases hthreads t with hsame | ⟨hbefore, hafter⟩
        · simp only [hsame]
        · simp only [flying_of_outside hbefore, flying_of_outside hafter]
    rw [hattempts, hfailures, hbridge, hway]
    exact h.counted

theorem Orderly.alone (h : Orderly s) (hlock : s.lock = some thread) {t : Nat} (ht : t ≠ thread) : (s.threads t).inside = false := by
  by_contra hinside
  have hholder := h.holder t (not_eq_false _ ▸ hinside)
  rw [hlock] at hholder
  exact ht (Option.some.inj hholder).symm

theorem Orderly.at {s' : State} {place : Place} (hothers : ∀ t, t ≠ thread → (s'.threads t).inside = false)
    (hlock : s'.lock = some thread) (hinner : s'.bridge.inner < s'.spawned) (halive : ∀ server ∈ s'.alive, server < s'.spawned)
    (hflight : ∀ call server, place = .preflight call server → server < s'.spawned)
    (hstopped : ∀ call, place = .starting call → s'.bridge.inner ∉ s'.alive)
    (hcounted : s'.ledger.attempts = s'.bridge.restartCount + s'.ledger.failures + if place.flying then 1 else 0) :
    Orderly (s'.at thread place) where
  inner_spawned := hinner
  alive_spawned := halive
  flight_spawned t call server ht := by
    by_cases hself : t = thread
    · rw [hself, at_threads_self] at ht
      exact hflight call server ht
    · rw [at_threads_other _ _ hself] at ht
      have hoff := hothers t hself
      rw [ht] at hoff
      cases hoff
  holder t ht := by
    by_cases hself : t = thread
    · rw [hself]
      exact hlock
    · rw [at_threads_other _ _ hself, hothers t hself] at ht
      cases ht
  stopped t call ht := by
    by_cases hself : t = thread
    · rw [hself, at_threads_self] at ht
      exact hstopped call ht
    · rw [at_threads_other _ _ hself] at ht
      have hoff := hothers t hself
      rw [ht] at hoff
      cases hoff
  counted := by
    have hway : underWay (s'.at thread place) = if place.flying then 1 else 0 := by
      unfold underWay
      rw [show (s'.at thread place).lock = some thread from hlock]
      simp only [at_threads_self]
    rw [hway]
    exact hcounted

theorem Orderly.leave {s' : State} {raised : Option Raised} (hothers : ∀ t, t ≠ thread → (s'.threads t).inside = false)
    (hinner : s'.bridge.inner < s'.spawned) (halive : ∀ server ∈ s'.alive, server < s'.spawned)
    (hcounted : s'.ledger.attempts = s'.bridge.restartCount + s'.ledger.failures) :
    Orderly (s'.leave thread raised) := by
  have hnone : ∀ t, ((s'.leave thread raised).threads t).inside = false := by
    intro t
    by_cases hself : t = thread
    · rw [hself, State.leave, at_threads_self, afterCall_inside]
    · rw [State.leave, at_threads_other _ _ hself]
      exact hothers t hself
  exact
    { inner_spawned := hinner
      alive_spawned := halive
      flight_spawned := fun t call server ht => by
        have hoff := hnone t
        rw [ht] at hoff
        cases hoff
      holder := fun t ht => by
        rw [hnone t] at ht
        cases ht
      stopped := fun t call ht => by
        have hoff := hnone t
        rw [ht] at hoff
        cases hoff
      counted := hcounted }

theorem Orderly.counted_inside (h : Orderly s) (hlock : s.lock = some thread) : s.ledger.attempts =
      s.bridge.restartCount + s.ledger.failures + if (s.threads thread).flying then 1 else 0 := by
  have hcounted := h.counted
  unfold underWay at hcounted
  rw [hlock] at hcounted
  exact hcounted

theorem mem_of_mem_dead {server other : Nat} (h : other ∈ (s.dead server).alive) : other ∈ s.alive :=
  (List.mem_filter.mp h).1

theorem not_mem_dead (s : State) (server : Nat) : server ∉ (s.dead server).alive := by
  simp [State.dead]

theorem toRestart_orderly (hothers : ∀ t, t ≠ thread → (s.threads t).inside = false) (hlock : s.lock = some thread)
    (hinner : s.bridge.inner < s.spawned) (halive : ∀ server ∈ s.alive, server < s.spawned)
    (hcounted : s.ledger.attempts = s.bridge.restartCount + s.ledger.failures) :
    Orderly (toRestart maxRestarts s thread) := by
  unfold toRestart
  split_ifs
  · exact .leave hothers hinner halive hcounted
  · exact .at hothers hlock hinner halive nofun nofun hcounted

theorem onPoll_orderly (h : Orderly s) (hlock : s.lock = some thread)
    (hcounted : s.ledger.attempts = s.bridge.restartCount + s.ledger.failures) : Orderly (onPoll maxRestarts s thread) := by
  have hothers : ∀ t, t ≠ thread → (s.threads t).inside = false := fun t => h.alone hlock
  unfold onPoll
  split_ifs
  · exact .at hothers hlock h.inner_spawned h.alive_spawned nofun nofun hcounted
  · exact toRestart_orderly hothers hlock h.inner_spawned h.alive_spawned hcounted

theorem onProbeFailed_orderly (h : Orderly s) (hlock : s.lock = some thread)
    (hcounted : s.ledger.attempts = s.bridge.restartCount + s.ledger.failures) :
    Orderly (onProbeFailed maxRestarts s thread) := by
  have hothers : ∀ t, t ≠ thread → (s.threads t).inside = false := fun t => h.alone hlock
  simp only [onProbeFailed]
  split_ifs
  · exact .leave hothers h.inner_spawned h.alive_spawned hcounted
  · exact toRestart_orderly hothers hlock h.inner_spawned h.alive_spawned hcounted

theorem onSpawn_orderly (h : Orderly s) (hlock : s.lock = some thread)
    (hcounted : s.ledger.attempts = s.bridge.restartCount + s.ledger.failures) (call : Call) (raises : Option Raised) :
    Orderly (onSpawn s thread call raises) := by
  have hothers : ∀ t, t ≠ thread → (s.threads t).inside = false := fun t => h.alone hlock
  cases raises with
  | some raised =>
    refine .leave hothers h.inner_spawned h.alive_spawned ?_
    cases call with
    | check =>
      simp only [if_true, Ledger.fail]
      omega
    | reset => exact hcounted
  | none =>
    refine .at hothers hlock (Nat.lt_succ_of_lt h.inner_spawned) ?_ ?_ nofun ?_
    · intro server hserver
      rcases List.mem_cons.mp hserver with rfl | hserver
      · exact Nat.lt_succ_self _
      · exact Nat.lt_succ_of_lt (h.alive_spawned server hserver)
    · intro _ _ hplace
      cases hplace
      exact Nat.lt_succ_self _
    · cases call with
      | check =>
        simp only [if_true, Place.flying]
        omega
      | reset => exact hcounted

theorem onReady_orderly (h : Orderly s) (hlock : s.lock = some thread) {call : Call} {server : Nat}
    (hplace : s.threads thread = .preflight call server) : Orderly (onReady s thread call server) := by
  have hothers : ∀ t, t ≠ thread → (s.threads t).inside = false := fun t => h.alone hlock
  have hserver := h.flight_spawned thread call server hplace
  have hcounted := h.counted_inside hlock
  rw [hplace] at hcounted
  cases call with
  | check =>
    simp only [Place.flying, if_true] at hcounted
    refine .leave hothers hserver h.alive_spawned ?_
    simp only [hcounted]
    omega
  | reset => exact .at hothers hlock hserver h.alive_spawned nofun nofun hcounted

theorem counted_fail {call : Call} {place : Place} (hplace : place.flying = true ↔ call = .check)
    (hcounted : s.ledger.attempts = s.bridge.restartCount + s.ledger.failures + if place.flying then 1 else 0) :
    (s.ledger.fail call).attempts = s.bridge.restartCount + (s.ledger.fail call).failures := by
  cases call with
  | check =>
    rw [hplace.mpr rfl, if_pos rfl] at hcounted
    simp only [Ledger.fail]
    omega
  | reset =>
    have hoff : place.flying = false := eq_false_iff.mpr fun hflying => nomatch hplace.mp hflying
    rw [hoff] at hcounted
    exact hcounted

theorem flying_preflight (call : Call) (server : Nat) : (Place.preflight call server).flying = true ↔ call = .check := by
  cases call <;> simp [Place.flying]

theorem flying_abandoning (call : Call) (server : Nat) : (Place.abandoning call server).flying = true ↔ call = .check := by
  cases call <;> simp [Place.flying]

theorem actInside_orderly (h : Orderly s) (hinside : (s.threads thread).inside = true)
    (hact : actInside maxRestarts s thread event = some next) : Orderly next := by
  have hlock := h.holder thread hinside
  have hothers : ∀ t, t ≠ thread → (s.threads t).inside = false := fun t => h.alone hlock
  have hcounted := h.counted_inside hlock
  unfold actInside at hact
  split at hact <;> cases hact <;> rename_i hplace <;> rw [hplace] at hcounted
  · exact .leave hothers h.inner_spawned h.alive_spawned hcounted
  · exact onPoll_orderly h hlock hcounted
  · exact .leave hothers h.inner_spawned h.alive_spawned hcounted
  · exact onProbeFailed_orderly h hlock hcounted
  · exact .leave hothers h.inner_spawned h.alive_spawned hcounted
  · exact .leave hothers h.inner_spawned h.alive_spawned hcounted
  · refine .at hothers hlock h.inner_spawned (fun server hserver => h.alive_spawned server (mem_of_mem_dead hserver)) nofun ?_
      hcounted
    exact fun _ _ => not_mem_dead s s.bridge.inner
  · exact onSpawn_orderly h hlock hcounted _ _
  · exact onReady_orderly h hlock hplace
  · refine .at hothers hlock h.inner_spawned h.alive_spawned nofun nofun ?_
    rw [hcounted]
    simp only [flying_preflight, flying_abandoning]
  · exact .leave hothers h.inner_spawned h.alive_spawned (counted_fail (flying_preflight _ _) hcounted)
  · exact .leave hothers h.inner_spawned h.alive_spawned (counted_fail (flying_abandoning _ _) hcounted)
  · refine .leave hothers h.inner_spawned (fun server hserver => h.alive_spawned server (mem_of_mem_dead hserver)) ?_
    exact counted_fail (flying_abandoning _ _) hcounted
  · exact .leave hothers h.inner_spawned h.alive_spawned hcounted

theorem at_outside {s' : State} {place : Place} (hthreads : s'.threads = s.threads) (hbefore : (s.threads thread).inside = false)
    (hafter : place.inside = false) (t : Nat) :
    (s'.at thread place).threads t = s.threads t ∨
      (s.threads t).inside = false ∧ ((s'.at thread place).threads t).inside = false := by
  by_cases hself : t = thread
  · rw [hself, at_threads_self]
    exact .inr ⟨hbefore, hafter⟩
  · rw [at_threads_other _ _ hself, hthreads]
    exact .inl rfl

theorem actOutside_orderly (h : Orderly s) (houtside : (s.threads thread).inside = false)
    (hact : actOutside s thread event = some next) : Orderly next := by
  unfold actOutside at hact
  split at hact
  · obtain ⟨-, hact⟩ := ite_none_right_eq_some.mp hact
    cases hact
    exact h.outside rfl rfl (fun _ h => h) rfl rfl rfl (at_outside rfl houtside rfl)
  · obtain ⟨-, hact⟩ := ite_none_left_eq_some.mp hact
    cases hact
    refine h.outside rfl rfl (fun _ h => h) rfl rfl rfl (at_outside rfl houtside ?_)
    split_ifs <;> rfl
  · obtain ⟨-, hact⟩ := ite_none_right_eq_some.mp hact
    cases hact
    exact h.outside rfl rfl (fun _ h => h) rfl rfl rfl (at_outside rfl houtside rfl)
  · cases hact
    exact h.outside rfl rfl (fun _ h => h) rfl rfl rfl (at_outside rfl houtside rfl)
  · cases hact
    exact h.outside rfl rfl (fun _ => mem_of_mem_dead) rfl rfl rfl (at_outside rfl houtside rfl)
  · obtain ⟨-, hact⟩ := ite_none_right_eq_some.mp hact
    cases hact
    exact h.outside rfl rfl (fun _ h => h) rfl rfl rfl fun _ => .inl rfl
  · obtain ⟨-, hact⟩ := ite_none_right_eq_some.mp hact
    cases hact
    exact h.outside rfl rfl (fun _ h => h) rfl rfl rfl (at_outside rfl houtside rfl)
  · cases hact
    exact h.outside rfl rfl (fun _ h => h) rfl rfl rfl (at_outside rfl houtside rfl)
  · cases hact

theorem onLock_orderly (h : Orderly s) (hfree : s.lock = none) (call : Call) : Orderly (onLock s thread call) := by
  have hothers : ∀ t, t ≠ thread → (s.threads t).inside = false := by
    intro t _
    by_contra hinside
    have hholder := h.holder t (not_eq_false _ ▸ hinside)
    rw [hfree] at hholder
    cases hholder
  have hcounted := h.counted
  unfold underWay at hcounted
  rw [hfree] at hcounted
  cases call with
  | check => exact .at hothers rfl h.inner_spawned h.alive_spawned nofun nofun hcounted
  | reset =>
    simp only [onLock]
    split_ifs
    · exact .leave hothers h.inner_spawned h.alive_spawned hcounted
    · exact .at hothers rfl h.inner_spawned h.alive_spawned nofun nofun hcounted

theorem step_act {next : State} (h : step maxRestarts s (.act thread event) = some next) :
    (∃ call, s.threads thread = .waiting call ∧ event = .lock ∧ s.lock = none ∧ next = onLock s thread call) ∨
      (s.threads thread).inside = true ∧ actInside maxRestarts s thread event = some next ∨
      (s.threads thread).inside = false ∧ actOutside s thread event = some next := by
  simp only [step] at h
  split at h
  · obtain ⟨hfree, hnext⟩ := ite_none_right_eq_some.mp h
    cases hnext
    exact .inl ⟨_, ‹_›, rfl, hfree, rfl⟩
  · split_ifs at h with hinside
    · exact .inr (.inl ⟨hinside, h⟩)
    · exact .inr (.inr ⟨eq_false_iff.mpr hinside, h⟩)

theorem step_orderly (h : Orderly s) (hstep : step maxRestarts s label = some next) : Orderly next := by
  cases label with
  | die server =>
    cases hstep
    exact h.outside rfl rfl (fun _ => mem_of_mem_dead) rfl rfl rfl fun _ => .inl rfl
  | act thread event =>
    rcases step_act hstep with ⟨call, -, -, hfree, rfl⟩ | ⟨hinside, hact⟩ | ⟨houtside, hact⟩
    · exact onLock_orderly h hfree call
    · exact actInside_orderly h hinside hact
    · exact actOutside_orderly h houtside hact

/-! ## What the guards give -/

section

variable (h : Bounded maxRestarts s)
include h

theorem Bounded.keeps (halive : next.alive.Sublist s.alive)
    (hattempts : next.ledger.attempts = s.ledger.attempts) (hhasty : next.ledger.hasty = s.ledger.hasty)
    (hdown : next.ledger.down = s.ledger.down) (hlate : next.ledger.late = s.ledger.late) : Bounded maxRestarts next where
  one := Nat.le_trans halive.length_le h.one
  budget := hattempts ▸ h.budget
  patient := hhasty ▸ h.patient
  down hnext := by
    rw [h.down (hdown ▸ hnext)] at halive
    exact List.eq_nil_of_sublist_nil halive
  never_late := hlate ▸ h.never_late

theorem Bounded.dead (server : Nat) : Bounded maxRestarts (s.dead server) :=
  h.keeps List.filter_sublist rfl rfl rfl rfl

theorem onPoll_bounded : Bounded maxRestarts (onPoll maxRestarts s thread) := by
  simp only [onPoll, toRestart]
  split_ifs <;> exact h.keeps (.refl _) rfl rfl rfl rfl

theorem onLock_bounded (call : Call) : Bounded maxRestarts (onLock s thread call) := by
  cases call with
  | check => exact h.keeps (.refl _) rfl rfl rfl rfl
  | reset =>
    simp only [onLock]
    split_ifs <;> exact h.keeps (.refl _) rfl rfl rfl rfl

theorem onReady_bounded (call : Call) (server : Nat) : Bounded maxRestarts (onReady s thread call server) := by
  cases call <;> exact h.keeps (.refl _) rfl rfl rfl rfl

theorem fail_bounded (call : Call) : Bounded maxRestarts { s with ledger := s.ledger.fail call } := by
  cases call <;> exact h.keeps (.refl _) rfl rfl rfl rfl

end

theorem onProbeFailed_world (maxRestarts : Nat) (s : State) (thread : Nat) : (onProbeFailed maxRestarts s thread).alive = s.alive ∧
      (onProbeFailed maxRestarts s thread).ledger =
        { s.ledger with
          misses := s.ledger.misses + 1
          hasty := s.ledger.hasty || (replaces maxRestarts s && s.ledger.misses + 1 < probeFailuresBeforeRestart) } := by
  simp only [onProbeFailed, toRestart]
  split_ifs <;> exact ⟨rfl, rfl⟩

theorem onProbeFailed_bounded_iff (h : Bounded maxRestarts s) : Bounded maxRestarts (onProbeFailed maxRestarts s thread) ↔
      (replaces maxRestarts s = true → probeFailuresBeforeRestart ≤ s.ledger.misses + 1) := by
  obtain ⟨halive, hledger⟩ := onProbeFailed_world maxRestarts s thread
  constructor
  · intro hnext hreplaces
    have hpatient := hnext.patient
    rw [hledger, h.patient, hreplaces] at hpatient
    simpa using hpatient
  · intro hguard
    refine h.keeps (halive ▸ .refl _) ?_ ?_ ?_ ?_ <;> rw [hledger]
    simp only [h.patient, Bool.false_or, Bool.and_eq_false_iff, decide_eq_false_iff_not, Nat.not_lt]
    by_cases hreplaces : replaces maxRestarts s = true
    · exact .inr (hguard hreplaces)
    · exact .inl (Bool.eq_false_iff.mpr hreplaces)

theorem spent_iff (h : Bounded maxRestarts s) (hcounted : s.ledger.attempts = s.bridge.restartCount + s.ledger.failures) (call : Call) :
    (if call = .check then { s.ledger with attempts := s.ledger.attempts + 1 } else s.ledger).attempts ≤ maxRestarts ↔
      (call = .check → s.bridge.restartCount + s.ledger.failures < maxRestarts) := by
  have hbudget := h.budget
  cases call with
  | check =>
    simp only [if_true, true_implies]
    omega
  | reset => simpa using hbudget

theorem alive_nil_iff {server : Nat} (hdead : server ∉ s.alive) : s.alive = [] ↔ ∀ other ∈ s.alive, other = server := by
  constructor
  · intro hnil other hother
    rw [hnil] at hother
    cases hother
  · intro hall
    refine List.eq_nil_iff_forall_not_mem.mpr fun other hother => hdead ?_
    rw [← hall other hother]
    exact hother

theorem onSpawn_bounded_iff (ho : Orderly s) (h : Bounded maxRestarts s) (hlock : s.lock = some thread) {call : Call}
    (hplace : s.threads thread = .starting call) (raises : Option Raised) :
    Bounded maxRestarts (onSpawn s thread call raises) ↔
      (call = .check → s.bridge.restartCount + s.ledger.failures < maxRestarts) ∧
        (raises = none → (∀ server ∈ s.alive, server = s.bridge.inner) ∧ s.ledger.down = false) := by
  have hcounted : s.ledger.attempts = s.bridge.restartCount + s.ledger.failures := by
    have hcounted := ho.counted_inside hlock
    rwa [hplace] at hcounted
  -- the server that was there is dead, so what is alive was left by others
  have hleft := alive_nil_iff (ho.stopped thread call hplace)
  rw [← spent_iff h hcounted call, ← hleft]
  cases raises with
  | some raised =>
    constructor
    · intro hnext
      have hbudget := hnext.budget
      cases call <;> exact ⟨hbudget, nofun⟩
    · rintro ⟨hbudget, -⟩
      cases call with
      | check => exact ⟨h.one, hbudget, h.patient, h.down, h.never_late⟩
      | reset => exact ⟨h.one, hbudget, h.patient, h.down, h.never_late⟩
  | none =>
    constructor
    · intro hnext
      have hone : (s.spawned :: s.alive).length ≤ 1 := hnext.one
      have hnil : s.alive = [] := List.length_eq_zero_iff.mp (by simpa using hone)
      refine ⟨hnext.budget, fun _ => ⟨hnil, ?_⟩⟩
      have hlate := hnext.never_late
      cases call with
      | check => exact (or_eq_false_iff.mp hlate).2
      | reset => exact (Bool.or_eq_false_iff.mp hlate).2
    · rintro ⟨hbudget, hguard⟩
      obtain ⟨hnil, hup⟩ := hguard rfl
      have hone : (s.spawned :: s.alive).length ≤ 1 := by simp [hnil]
      have hlate : (s.ledger.late || s.ledger.down) = false := by rw [h.never_late, hup, Bool.or_false]
      have hnever : ∀ {p : Prop}, s.ledger.down = true → p := fun hdown => by simp [hup] at hdown
      cases call with
      | check => exact ⟨hone, hbudget, h.patient, hnever, hlate⟩
      | reset => exact ⟨hone, hbudget, h.patient, hnever, hlate⟩

theorem shutdownEnds_bounded_iff (h : Bounded maxRestarts s) (server : Nat) :
    Bounded maxRestarts ({ s.dead server with ledger := { s.ledger with down := true } }.at thread .idle) ↔
      ∀ other ∈ s.alive, other = server := by
  have hnil : (s.dead server).alive = [] ↔ ∀ other ∈ s.alive, other = server := by
    simp [State.dead, List.filter_eq_nil_iff]
  rw [← hnil]
  constructor
  · intro hnext
    exact hnext.down rfl
  · intro hdead
    have hone : (s.dead server).alive.length ≤ 1 := by simp [hdead]
    exact ⟨hone, h.budget, h.patient, fun _ => hdead, h.never_late⟩

theorem actInside_bounded_iff (ho : Orderly s) (h : Bounded maxRestarts s) (hinside : (s.threads thread).inside = true)
    (hact : actInside maxRestarts s thread event = some next) :
    Bounded maxRestarts next ↔ Guarded maxRestarts s (.act thread event) := by
  have hlock := ho.holder thread hinside
  unfold actInside at hact
  split at hact <;> cases hact <;> rename_i hplace <;> simp only [Guarded, hplace]
  · exact iff_true_intro (h.keeps (.refl _) rfl rfl rfl rfl)
  · exact iff_true_intro (onPoll_bounded h)
  · exact iff_true_intro (h.keeps (.refl _) rfl rfl rfl rfl)
  · exact onProbeFailed_bounded_iff h
  · exact iff_true_intro (h.keeps (.refl _) rfl rfl rfl rfl)
  · exact iff_true_intro (h.keeps (.refl _) rfl rfl rfl rfl)
  · exact iff_true_intro ((h.dead _).keeps (.refl _) rfl rfl rfl rfl)
  · exact onSpawn_bounded_iff ho h hlock hplace _
  · exact iff_true_intro (onReady_bounded h _ _)
  · exact iff_true_intro (h.keeps (.refl _) rfl rfl rfl rfl)
  · exact iff_true_intro ((fail_bounded h _).keeps (.refl _) rfl rfl rfl rfl)
  · exact iff_true_intro ((fail_bounded h _).keeps (.refl _) rfl rfl rfl rfl)
  · exact iff_true_intro (((fail_bounded h _).dead _).keeps (.refl _) rfl rfl rfl rfl)
  · exact iff_true_intro (h.keeps (.refl _) rfl rfl rfl rfl)

theorem actOutside_bounded_iff (h : Bounded maxRestarts s) (hact : actOutside s thread event = some next) :
    Bounded maxRestarts next ↔ Guarded maxRestarts s (.act thread event) := by
  unfold actOutside at hact
  split at hact <;> rename_i hplace <;> simp only [Guarded, hplace]
  · obtain ⟨-, hact⟩ := ite_none_right_eq_some.mp hact
    cases hact
    exact iff_true_intro (h.keeps (.refl _) rfl rfl rfl rfl)
  · obtain ⟨-, hact⟩ := ite_none_left_eq_some.mp hact
    cases hact
    exact iff_true_intro (h.keeps (.refl _) rfl rfl rfl rfl)
  · obtain ⟨-, hact⟩ := ite_none_right_eq_some.mp hact
    cases hact
    exact iff_true_intro (h.keeps (.refl _) rfl rfl rfl rfl)
  · cases hact
    exact iff_true_intro (h.keeps (.refl _) rfl rfl rfl rfl)
  · cases hact
    exact shutdownEnds_bounded_iff h _
  · obtain ⟨-, hact⟩ := ite_none_right_eq_some.mp hact
    cases hact
    exact iff_true_intro (h.keeps (.refl _) rfl rfl rfl rfl)
  · obtain ⟨-, hact⟩ := ite_none_right_eq_some.mp hact
    cases hact
    exact iff_true_intro (h.keeps (.refl _) rfl rfl rfl rfl)
  · cases hact
    exact iff_true_intro (h.keeps (.refl _) rfl rfl rfl rfl)
  · cases hact

theorem step_bounded_iff (ho : Orderly s) (h : Bounded maxRestarts s) (hstep : step maxRestarts s label = some next) :
    Bounded maxRestarts next ↔ Guarded maxRestarts s label := by
  cases label with
  | die server =>
    cases hstep
    exact iff_true_intro (h.dead server)
  | act thread event =>
    rcases step_act hstep with ⟨call, hplace, rfl, -, rfl⟩ | ⟨hinside, hact⟩ | ⟨-, hact⟩
    · simp only [Guarded, hplace]
      exact iff_true_intro (onLock_bounded h call)
    · exact actInside_bounded_iff ho h hinside hact
    · exact actOutside_bounded_iff h hact

theorem start_bounded (maxRestarts : Nat) : Bounded maxRestarts start where
  one := Nat.le_refl 1
  budget := Nat.zero_le _
  patient := rfl
  down := nofun
  never_late := rfl

/-- Restarts are bounded and leave no server behind just when every step meets the guards it lacks. -/
theorem bounded_iff_guarded (maxRestarts : Nat) (labels : List Label) :
    Run.Throughout (step maxRestarts) (fun _ _ next => Bounded maxRestarts next) start labels ↔
      Run.Throughout (step maxRestarts) (fun s label _ => Guarded maxRestarts s label) start labels := by
  have hiff : ∀ s label next, Orderly s ∧ Bounded maxRestarts s → step maxRestarts s label = some next →
      (Bounded maxRestarts next ↔ Guarded maxRestarts s label) :=
    fun _ _ _ ⟨ho, h⟩ hstep => step_bounded_iff ho h hstep
  refine Run.Throughout.iff_of_step hiff ?_ ⟨start_orderly, start_bounded maxRestarts⟩
  rintro s label next ⟨ho, h⟩ hguarded hstep
  exact ⟨step_orderly ho hstep, (step_bounded_iff ho h hstep).mpr hguarded⟩

/-! ## Runs that miss them -/

/-- Up to `_restart_fn`, of a server that has exited. -/
def findsExited : List Label :=
  [.act 0 (.call .check), .act 0 .lock, .act 0 (.poll none), .act 0 (.stop none)]

/-- The first start is not ready and cannot be reaped; the next check starts another. -/
def unreaped : List Label :=
  .die 0 :: findsExited ++ [.act 0 (.spawn none), .act 0 .unready, .act 0 (.abandon (some .mcpServerError))] ++ findsExited ++
    [.act 0 (.spawn none)]

def overspent : List Label :=
  .die 0 :: findsExited ++ [.act 0 (.spawn (some .exception))] ++ findsExited ++ [.act 0 (.spawn (some .exception))]

def missesProbe : List Label :=
  [.act 0 (.call .check), .act 0 .lock, .act 0 (.poll none), .act 0 .probeFailed]

/-- The server is reset after two failed probes; the new one fails its first. -/
def resetBetween : List Label :=
  missesProbe ++ missesProbe ++
    [.act 0 (.call .reset), .act 0 .lock, .act 0 (.stop none), .act 0 (.spawn none), .act 0 .ready, .act 0 (.verify none)] ++
    missesProbe

def outlived : List Label :=
  [.act 0 (.enter 1), .die 0, .act 1 .tick, .act 1 .lock, .act 1 (.poll none), .act 1 (.stop none), .act 0 (.exit 1),
    .act 0 .joined, .act 0 .shutdown, .act 0 (.shutdownEnds none), .act 1 (.spawn none), .act 1 .ready]

theorem guards_missed : (Run.run (step 2) start unreaped).map (·.alive) = some [2, 1] ∧
      (Run.run (step 1) start overspent).map (·.ledger.attempts) = some 2 ∧
      (Run.run (step 1) start resetBetween).map (·.ledger.hasty) = some true ∧
      (Run.run (step 1) start outlived).map (fun s => (s.alive, s.ledger.down)) = some ([1], true) := by
  refine ⟨?_, ?_, ?_, ?_⟩ <;> decide +kernel

theorem server_outlives_bridge : ¬ ∀ (maxRestarts : Nat) (labels : List Label) (s : State),
        Run.run (step maxRestarts) start labels = some s → Bounded maxRestarts s := by
  intro hclaim
  obtain ⟨s, hrun, hs⟩ := map_eq_some_iff.mp guards_missed.2.2.2
  obtain ⟨halive, hdown⟩ := Prod.mk.inj hs
  have hnone := (hclaim 1 outlived s hrun).down hdown
  rw [halive] at hnone
  cases hnone

end RalphWorkflow.RestartBridge
