import RalphWorkflow.Proof.FanOut.Waves

/-! What the coordinator's books say about the workers, kept by every step of the event loop and so by every run. -/
namespace RalphWorkflow.FanOut
open Lib Pipeline Pipeline.Parallel List
open Relation Lib Lib.Text Pipeline Pipeline.Parallel

def queuedIds (c : Coordinator) : List String := c.queue.map WorkerResult.unitId

def failureIds (c : Coordinator) : List String := c.failures.map WorkerFailure.unitId

/-- Workers that execute, that have put a result and that have failed are different running units. -/
structure Staffed (c : Coordinator) : Prop where
  executing_running : ∀ x ∈ c.executing, x ∈ c.running
  executing_nodup : c.executing.Nodup
  queued_running : ∀ x ∈ queuedIds c, x ∈ c.running
  queued_nodup : (queuedIds c).Nodup
  queued_ended : ∀ x ∈ queuedIds c, x ∉ c.executing
  queued_ok : ∀ r ∈ c.queue, r.exitCode = 0
  failed_running : ∀ x ∈ failureIds c, x ∈ c.running
  failed_nodup : (failureIds c).Nodup
  failed_ended : ∀ x ∈ failureIds c, x ∉ c.executing
  failed_unqueued : ∀ x ∈ failureIds c, x ∉ queuedIds c

variable {c : Coordinator} {effect : FanOut} {unitId : String} {events extra : List Event} {units : List WorkUnit}
  {failed : List String}

theorem launch_staffed (h : Staffed c) {unit : WorkUnit} (hfresh : unit.unitId ∉ c.running) : Staffed (launch c unit) := by
  have hrunning : (launch c unit).running = c.running ++ [unit.unitId] := addOnce_of_notMem hfresh
  have hgrows : ∀ x ∈ c.running, x ∈ (launch c unit).running := by
    intro x hx
    rw [hrunning]
    exact mem_append_left _ hx
  have hnew : ∀ x ∈ c.running, x ∉ c.executing → x ∉ c.executing ++ [unit.unitId] := by
    intro x hx hnot hmem
    rcases mem_append.mp hmem with hmem | hmem
    · exact hnot hmem
    · rw [mem_singleton] at hmem
      exact hfresh (hmem ▸ hx)
  refine ⟨?_, ?_, fun x hx => hgrows x (h.queued_running x hx), h.queued_nodup, ?_, h.queued_ok,
    fun x hx => hgrows x (h.failed_running x hx), h.failed_nodup, ?_, h.failed_unqueued⟩
  · intro x hx
    rcases mem_append.mp hx with hx | hx
    · exact hgrows x (h.executing_running x hx)
    · rw [mem_singleton] at hx
      subst hx
      rw [hrunning]
      exact mem_append_right _ (mem_singleton_self _)
  · refine h.executing_nodup.append (nodup_singleton _) ?_
    simpa using fun hmem => hfresh (h.executing_running _ hmem)
  · exact fun x hx => hnew x (h.queued_running x hx) (h.queued_ended x hx)
  · exact fun x hx => hnew x (h.failed_running x hx) (h.failed_ended x hx)

theorem launchAll_staffed (hplan : ValidPlan effect.workUnits) (wave : List WorkUnit) (htracked : Tracked effect c) (h : Staffed c) (hwave : Wave effect c wave) :
    Staffed (wave.foldl launch c) := by
  induction wave generalizing c with
  | nil => exact h
  | cons unit wave ih =>
    have hfresh := hwave.fresh unit mem_cons_self
    have hlaunched := launch_tracked hplan htracked (hwave.planned unit mem_cons_self) hfresh
      (hwave.ready unit mem_cons_self)
    exact ih hlaunched (launch_staffed h fun hmem => hfresh ((htracked.running_iff _).mp hmem).1) hwave.tail

theorem readResult_staffed (h : Staffed c) {result : WorkerResult} {rest : List WorkerResult}
    (hqueue : c.queue = result :: rest) : Staffed (readResult c result rest) := by
  have hids : queuedIds c = result.unitId :: rest.map WorkerResult.unitId := by
    unfold queuedIds
    rw [hqueue]
    rfl
  have hnodup := h.queued_nodup
  rw [hids, nodup_cons] at hnodup
  have hrest : ∀ x ∈ rest.map WorkerResult.unitId, x ∈ queuedIds c := by
    intro x hx
    rw [hids]
    exact mem_cons_of_mem _ hx
  have hhead : result.unitId ∈ queuedIds c := by
    rw [hids]
    exact mem_cons_self
  have hstays : ∀ x, x ∈ c.running → x ≠ result.unitId → x ∈ (readResult c result rest).running := by
    intro x hx hne
    exact mem_filter.mpr ⟨hx, bne_iff_ne.mpr hne⟩
  refine ⟨?_, h.executing_nodup, ?_, hnodup.2, fun x hx => h.queued_ended x (hrest x hx), ?_, ?_, h.failed_nodup,
    h.failed_ended, fun x hx hmem => h.failed_unqueued x hx (hrest x hmem)⟩
  · intro x hx
    refine hstays x (h.executing_running x hx) ?_
    rintro rfl
    exact h.queued_ended _ hhead hx
  · intro x hx
    refine hstays x (h.queued_running x (hrest x hx)) ?_
    rintro rfl
    exact hnodup.1 hx
  · intro r hr
    exact h.queued_ok r (by rw [hqueue]; exact mem_cons_of_mem _ hr)
  · intro x hx
    refine hstays x (h.failed_running x hx) ?_
    rintro rfl
    exact h.failed_unqueued _ hx hhead

/-! ## A worker ends -/

theorem ends_staffed (h : Staffed c) (unitId : String) : Staffed (c.ends unitId) := by
  have hsub : ∀ x ∈ (c.ends unitId).executing, x ∈ c.executing := fun x hx => (mem_filter.mp hx).1
  exact ⟨fun x hx => h.executing_running x (hsub x hx), h.executing_nodup.filter _, h.queued_running, h.queued_nodup,
    fun x hx hmem => h.queued_ended x hx (hsub x hmem), h.queued_ok, h.failed_running, h.failed_nodup,
    fun x hx hmem => h.failed_ended x hx (hsub x hmem), h.failed_unqueued⟩

theorem not_executing_ends (c : Coordinator) (unitId : String) : unitId ∉ (c.ends unitId).executing := by
  intro hmem
  have hne := (mem_filter.mp hmem).2
  simp at hne

theorem put_staffed (h : Staffed c) (hrunning : unitId ∈ c.running)
    (hended : unitId ∉ c.executing) (hqueued : unitId ∉ queuedIds c) (hfailed : unitId ∉ failureIds c) :
    Staffed (c.put unitId) := by
  have hids : queuedIds (c.put unitId) = queuedIds c ++ [unitId] := map_append
  refine ⟨h.executing_running, h.executing_nodup, ?_, ?_, ?_, ?_, h.failed_running, h.failed_nodup, h.failed_ended, ?_⟩
  · intro x hx
    rw [hids, mem_append, mem_singleton] at hx
    rcases hx with hx | rfl
    · exact h.queued_running x hx
    · exact hrunning
  · rw [hids]
    exact h.queued_nodup.append (nodup_singleton _) (by simpa using hqueued)
  · intro x hx
    rw [hids, mem_append, mem_singleton] at hx
    rcases hx with hx | rfl
    · exact h.queued_ended x hx
    · exact hended
  · intro r hr
    rcases mem_append.mp hr with hr | hr
    · exact h.queued_ok r hr
    · rw [mem_singleton] at hr
      rw [hr]
  · intro x hx hmem
    rw [hids, mem_append, mem_singleton] at hmem
    rcases hmem with hmem | rfl
    · exact h.failed_unqueued x hx hmem
    · exact hfailed hx

theorem fail_staffed (h : Staffed c) {failure : WorkerFailure} (hrunning : failure.unitId ∈ c.running)
    (hended : failure.unitId ∉ c.executing) (hqueued : failure.unitId ∉ queuedIds c)
    (hfailed : failure.unitId ∉ failureIds c) : Staffed { c with failures := c.failures ++ [failure] } := by
  have hids : failureIds { c with failures := c.failures ++ [failure] } = failureIds c ++ [failure.unitId] :=
    map_append
  refine ⟨h.executing_running, h.executing_nodup, h.queued_running, h.queued_nodup, h.queued_ended, h.queued_ok, ?_, ?_,
    ?_, ?_⟩
  · intro x hx
    rw [hids, mem_append, mem_singleton] at hx
    rcases hx with hx | rfl
    · exact h.failed_running x hx
    · exact hrunning
  · rw [hids]
    exact h.failed_nodup.append (nodup_singleton _) (by simpa using hfailed)
  · intro x hx
    rw [hids, mem_append, mem_singleton] at hx
    rcases hx with hx | rfl
    · exact h.failed_ended x hx
    · exact hended
  · intro x hx
    rw [hids, mem_append, mem_singleton] at hx
    rcases hx with hx | rfl
    · exact h.failed_unqueued x hx
    · exact hqueued

/-! ## Runs -/

structure Sound (effect : FanOut) (c : Coordinator) : Prop where
  tracked : Tracked effect c
  staffed : Staffed c
  slots : c.running.length ≤ effect.maxWorkers

theorem Staffed.of_sameTasks {c' : Coordinator} (h : Staffed c) (hrunning : c'.running = c.running)
    (hexecuting : c'.executing = c.executing) (hqueue : c'.queue = c.queue) (hfailures : c'.failures = c.failures) :
    Staffed c' := by
  have hqueued : queuedIds c' = queuedIds c := by unfold queuedIds; rw [hqueue]
  have hfailed : failureIds c' = failureIds c := by unfold failureIds; rw [hfailures]
  obtain ⟨h1, h2, h3, h4, h5, h6, h7, h8, h9, h10⟩ := h
  constructor
  all_goals
    simp only [hrunning, hexecuting, hqueue, hqueued, hfailed]
    assumption

theorem resumeLoop_sound (hplan : ValidPlan effect.workUnits) (h : Sound effect c) : Sound effect (resumeLoop effect c) := by
  obtain ⟨htracked, hslots⟩ := resumeLoop_tracked hplan h.tracked h.slots
  refine ⟨htracked, ?_, hslots⟩
  have hlaunched := launchAll_staffed hplan _ h.tracked h.staffed (scheduled_wave hplan h.tracked).1
  unfold resumeLoop
  split
  · exact h.staffed.of_sameTasks rfl rfl rfl rfl
  · dsimp only
    split
    · exact hlaunched.of_sameTasks rfl rfl rfl rfl
    · exact hlaunched

theorem initial_sound (effect : FanOut) : Sound effect { pending := effect.workUnits.map WorkUnit.unitId } := by
  refine ⟨?_, ?_, Nat.zero_le _⟩
  · refine ⟨fun x hx => hx, ?_, ?_, ?_, nodup_nil, nodup_nil, ?_, rfl, ?_, nodup_nil, rfl, ?_⟩
    · exact fun x hx => iff_of_true hx not_mem_nil
    · exact fun x => iff_of_false not_mem_nil fun hx => by cases hx.1
    · exact fun x hx => by cases hx
    · exact fun x hx => by cases hx
    · exact fun x hx => by cases hx
    · intro before unitId after heq
      have hevents : [Event.pipeline .fanOutStarted] = before ++ .workerStarted unitId :: after := heq
      have hmem : Event.workerStarted unitId ∈ [Event.pipeline .fanOutStarted] := by
        rw [hevents]
        exact mem_append_right _ mem_cons_self
      cases mem_singleton.mp hmem
  · constructor
    all_goals first
      | exact nodup_nil
      | exact fun x hx => by cases hx

theorem start_sound (hplan : ValidPlan effect.workUnits) : Sound effect (Coordinator.start effect) :=
  resumeLoop_sound hplan (initial_sound effect)

theorem ends_sound (h : Sound effect c) (unitId : String) : Sound effect (c.ends unitId) :=
  ⟨h.tracked.of_sameBooks ⟨rfl, rfl, rfl, rfl⟩, ends_staffed h.staffed unitId, h.slots⟩

theorem put_sound (h : Sound effect c) (hexecuting : unitId ∈ c.executing) : Sound effect ((c.ends unitId).put unitId) := by
  have hrunning := h.staffed.executing_running unitId hexecuting
  refine ⟨(ends_sound h unitId).tracked.of_sameBooks ⟨rfl, rfl, rfl, rfl⟩, ?_, h.slots⟩
  exact put_staffed (ends_staffed h.staffed unitId) hrunning (not_executing_ends c unitId)
    (fun hmem => h.staffed.queued_ended unitId hmem hexecuting)
    (fun hmem => h.staffed.failed_ended unitId hmem hexecuting)

theorem step_sound (hplan : ValidPlan effect.workUnits) {c' : Coordinator} {s : FanOutStep}
    (h : Sound effect c) (hstep : step effect c s = some c') : Sound effect c' := by
  cases s with
  | succeed unitId =>
    simp only [step, Option.ite_none_right_eq_some, contains_eq_mem, decide_eq_true_eq] at hstep
    obtain ⟨hexecuting, hstep⟩ := hstep
    cases hstep
    exact put_sound h hexecuting
  | fail unitId exitCode error =>
    simp only [step, Option.ite_none_right_eq_some, contains_eq_mem, decide_eq_true_eq] at hstep
    obtain ⟨hexecuting, hstep⟩ := hstep
    cases hstep
    refine ⟨(ends_sound h unitId).tracked.of_sameBooks ⟨rfl, rfl, rfl, rfl⟩, ?_, h.slots⟩
    exact fail_staffed (c := c.ends unitId) (ends_staffed h.staffed unitId)
      (h.staffed.executing_running unitId hexecuting) (not_executing_ends c unitId)
      (fun hmem => h.staffed.queued_ended unitId hmem hexecuting)
      (fun hmem => h.staffed.failed_ended unitId hmem hexecuting)
  | crash unitId put exc =>
    simp only [step, Option.ite_none_right_eq_some, contains_eq_mem, decide_eq_true_eq] at hstep
    obtain ⟨hexecuting, hstep⟩ := hstep
    cases hstep
    have hended : Sound effect (if put then (c.ends unitId).put unitId else c.ends unitId) := by
      cases put
      · exact ends_sound h unitId
      · exact put_sound h hexecuting
    exact ⟨hended.tracked.of_sameBooks ⟨rfl, rfl, rfl, rfl⟩, hended.staffed.of_sameTasks rfl rfl rfl rfl, hended.slots⟩
  | cancel unitId =>
    simp only [step, Option.ite_none_right_eq_some] at hstep
    obtain ⟨-, hstep⟩ := hstep
    cases hstep
    exact ends_sound h unitId
  | abort =>
    simp only [step, Option.ite_none_left_eq_some] at hstep
    obtain ⟨-, hstep⟩ := hstep
    cases hstep
    exact ⟨h.tracked.of_sameBooks ⟨rfl, rfl, rfl, rfl⟩, h.staffed.of_sameTasks rfl rfl rfl rfl, h.slots⟩
  | read =>
    simp only [step, Option.ite_none_left_eq_some] at hstep
    obtain ⟨-, hstep⟩ := hstep
    split at hstep
    · cases hstep
    · rename_i result rest hqueue
      cases hstep
      have hmem : result ∈ c.queue := by
        rw [hqueue]
        exact mem_cons_self
      have hrunning := h.staffed.queued_running result.unitId (mem_map.mpr ⟨result, hmem, rfl⟩)
      refine resumeLoop_sound hplan ⟨readResult_tracked h.tracked rest hrunning (h.staffed.queued_ok result hmem),
        readResult_staffed h.staffed hqueue, ?_⟩
      exact (length_filter_le _ _).trans h.slots

theorem steps_invariant {Inv : Coordinator → Prop}
    (hstep : ∀ c s c', Inv c → step effect c s = some c' → Inv c') {c' : Coordinator} {script : List FanOutStep}
    (h : Inv c) (hrun : steps effect c script = some c') : Inv c' := by
  induction script generalizing c with
  | nil =>
    cases hrun
    exact h
  | cons s rest ih =>
    rw [steps] at hrun
    obtain ⟨mid, hmid, hrest⟩ := Option.bind_eq_some_iff.mp hrun
    exact ih (hstep c s mid h hmid) hrest

theorem run_sound (hplan : ValidPlan effect.workUnits) {script : List FanOutStep}
    (hrun : steps effect (Coordinator.start effect) script = some c) : Sound effect c :=
  steps_invariant (fun _ _ _ h hstep => step_sound hplan h hstep) (start_sound hplan) hrun

/-! ## The events of a wave that ended

After an abort the coordinator reports what its workers raised, cancels what it still counts as running, and blocks what depends on either. No unit
is reported twice, and what is blocked leads to a started unit that is reported. -/

def terminalIds (events : List Event) : List String := completedIds events ++ failedIds events

def OnlyFailures (events : List Event) : Prop := ∀ event ∈ events, ∃ unitId code error, event = .workerFailed unitId code error

theorem failedIds_append (xs ys : List Event) : failedIds (xs ++ ys) = failedIds xs ++ failedIds ys :=
  filterMap_append

theorem mem_failedIds : unitId ∈ failedIds events ↔ ∃ code error, .workerFailed unitId code error ∈ events := by
  unfold failedIds
  rw [mem_filterMap]
  constructor
  · rintro ⟨event, hmem, heq⟩
    split at heq
    · cases heq
      exact ⟨_, _, hmem⟩
    · cases heq
  · rintro ⟨code, error, hmem⟩
    exact ⟨_, hmem, rfl⟩

/-! ## Appending events for units that have none -/

theorem mem_appendUnseen {event : Event} (h : event ∈ appendUnseen events extra) : event ∈ events ∨ event ∈ extra := by
  induction extra generalizing events with
  | nil => exact .inl h
  | cons head rest ih =>
    rw [appendUnseen] at h
    split at h
    · rcases ih h with h | h
      · exact .inl h
      · exact .inr (mem_cons_of_mem _ h)
    · rcases ih h with h | h
      · rcases mem_append.mp h with h | h
        · exact .inl h
        · rw [mem_singleton] at h
          exact .inr (h ▸ mem_cons_self)
      · exact .inr (mem_cons_of_mem _ h)

theorem appendUnseen_extends (events extra : List Event) : ∃ added, appendUnseen events extra = events ++ added := by
  induction extra generalizing events with
  | nil => exact ⟨[], (append_nil _).symm⟩
  | cons head rest ih =>
    rw [appendUnseen]
    split
    · exact ih events
    · obtain ⟨added, hadded⟩ := ih (events ++ [head])
      exact ⟨head :: added, by rw [hadded, append_assoc]; rfl⟩

theorem appendUnseen_keeps {α : Type} (read : Event → Option α) (hread : ∀ unitId code error, read (.workerFailed unitId code error) = none)
    (hextra : OnlyFailures extra) : (appendUnseen events extra).filterMap read = events.filterMap read := by
  induction extra generalizing events with
  | nil => rfl
  | cons head rest ih =>
    have hrest : OnlyFailures rest := fun event hmem => hextra event (mem_cons_of_mem _ hmem)
    obtain ⟨unitId, code, error, rfl⟩ := hextra head mem_cons_self
    rw [appendUnseen]
    split
    · exact ih hrest
    · rw [ih hrest, filterMap_append, filterMap_cons_none (hread unitId code error)]
      exact append_nil _

theorem appendUnseen_nodup (hextra : OnlyFailures extra) (h : (failedIds events).Nodup) : (failedIds (appendUnseen events extra)).Nodup := by
  induction extra generalizing events with
  | nil => exact h
  | cons head rest ih =>
    have hrest : OnlyFailures rest := fun event hmem => hextra event (mem_cons_of_mem _ hmem)
    obtain ⟨unitId, code, error, rfl⟩ := hextra head mem_cons_self
    rw [appendUnseen]
    split
    · exact ih hrest h
    · rename_i hunseen
      refine ih hrest ?_
      have hfresh : unitId ∉ failedIds events := by simpa [failedIds] using hunseen
      rw [failedIds_append]
      exact h.append (nodup_singleton _) (by simpa [failedIds] using hfresh)

theorem appendUnseen_covers (h : unitId ∈ failedIds extra) : unitId ∈ failedIds (appendUnseen events extra) := by
  induction extra generalizing events with
  | nil => cases h
  | cons head rest ih =>
    have hsplit : failedIds (head :: rest) = failedIds [head] ++ failedIds rest := failedIds_append [head] rest
    rw [hsplit, mem_append] at h
    rw [appendUnseen]
    rcases h with h | h
    · split
      · rename_i hseen
        obtain ⟨added, hadded⟩ := appendUnseen_extends events rest
        rw [hadded, failedIds_append]
        rw [all_eq_true] at hseen
        exact mem_append_left _ (by simpa using hseen unitId h)
      · obtain ⟨added, hadded⟩ := appendUnseen_extends (events ++ [head]) rest
        rw [hadded, failedIds_append, failedIds_append]
        exact mem_append_left _ (mem_append_right _ h)
    · split
      · exact ih h
      · exact ih h

/-! ## Blocked units -/

def Blocked (units : List WorkUnit) (failed : List String) (x : String) : Prop :=
  ∃ y ∈ failed, TransGen (DependsOn units) x y

structure BlockedBooks (units pending : List WorkUnit) (base : List String) (events : List Event) (failed : List String) :
    Prop where
  failed : ∀ x ∈ failed, x ∈ base ∨ Blocked units base x
  events : ∀ event ∈ events, ∃ unit ∈ pending, ∃ error, event = .workerFailed unit.unitId 1 error ∧
    (∃ known, blockedDependencyError unit known = some error) ∧ Blocked units base unit.unitId

theorem blocked_of_error {pending : List WorkUnit} {base : List String}
    (h : BlockedBooks units pending base events failed) {unit : WorkUnit} (hunit : unit ∈ units) {error : String}
    (herror : blockedDependencyError unit failed = some error) : Blocked units base unit.unitId := by
  unfold blockedDependencyError at herror
  dsimp only at herror
  split at herror
  · cases herror
  · rename_i hne
    obtain ⟨dep, hdep⟩ := exists_mem_of_ne_nil (sortedText (unit.dependencies.filter fun dep => failed.contains dep))
      (by simpa using hne)
    have hmem := (mem_insertionSort _).mp hdep
    rw [mem_filter] at hmem
    have hedge : DependsOn units unit.unitId dep := ⟨unit, hunit, rfl, hmem.1⟩
    rcases h.failed dep (by simpa using hmem.2) with hbase | ⟨y, hy, hpath⟩
    · exact ⟨dep, hbase, TransGen.single hedge⟩
    · exact ⟨y, hy, hpath.head hedge⟩

theorem blockedPass_books {pending : List WorkUnit} {base : List String} (hpending : ∀ unit ∈ pending, unit ∈ units)
    (todo : List WorkUnit) (htodo : ∀ unit ∈ todo, unit ∈ pending) (h : BlockedBooks units pending base events failed) :
    BlockedBooks units pending base (blockedPass todo events failed).2.1 (blockedPass todo events failed).2.2 ∧
      ∀ unit ∈ (blockedPass todo events failed).1, unit ∈ todo := by
  induction todo generalizing events failed with
  | nil => exact ⟨h, fun unit hunit => hunit⟩
  | cons unit rest ih =>
    have hrest : ∀ u ∈ rest, u ∈ pending := fun u hu => htodo u (mem_cons_of_mem _ hu)
    have hunit := htodo unit mem_cons_self
    rw [blockedPass]
    split
    · obtain ⟨hbooks, hleft⟩ := ih hrest h
      refine ⟨hbooks, ?_⟩
      intro u hu
      rcases mem_cons.mp hu with rfl | hu
      · exact mem_cons_self
      · exact mem_cons_of_mem _ (hleft u hu)
    · rename_i error herror
      have hblocked := blocked_of_error h (hpending unit hunit) herror
      have hbooks : BlockedBooks units pending base (events ++ [.workerFailed unit.unitId 1 error]) (failed ++ [unit.unitId]) := by
        constructor
        · intro x hx
          rcases mem_append.mp hx with hx | hx
          · exact h.failed x hx
          · rw [mem_singleton] at hx
            exact .inr (hx ▸ hblocked)
        · intro event hmem
          rcases mem_append.mp hmem with hmem | hmem
          · exact h.events event hmem
          · rw [mem_singleton] at hmem
            exact ⟨unit, hunit, error, hmem, ⟨failed, herror⟩, hblocked⟩
      obtain ⟨hdone, hleft⟩ := ih hrest hbooks
      exact ⟨hdone, fun u hu => mem_cons_of_mem _ (hleft u hu)⟩

theorem blockedPasses_books {pending : List WorkUnit} {base : List String} (hpending : ∀ unit ∈ pending, unit ∈ units)
    (fuel : Nat) {todo : List WorkUnit} (events : List Event) (htodo : ∀ unit ∈ todo, unit ∈ pending)
    (h : BlockedBooks units pending base events failed) :
    ∃ failed', BlockedBooks units pending base (blockedPasses fuel todo events failed) failed' := by
  induction fuel generalizing todo events failed with
  | zero => exact ⟨failed, h⟩
  | succ fuel ih =>
    obtain ⟨hbooks, hleft⟩ := blockedPass_books hpending todo htodo h
    rw [blockedPasses]
    dsimp only
    split
    · exact ⟨_, hbooks⟩
    · exact ih _ (fun unit hunit => htodo unit (hleft unit hunit)) hbooks

theorem mem_blockedPendingFailures {pendingIds : List String} {event : Event} (h : event ∈ blockedPendingFailures units pendingIds failed) :
    ∃ unit ∈ units, unit.unitId ∈ pendingIds ∧ ∃ error, event = .workerFailed unit.unitId 1 error ∧
      (∃ known, blockedDependencyError unit known = some error) ∧ Blocked units failed unit.unitId := by
  unfold blockedPendingFailures at h
  dsimp only at h
  obtain ⟨failed', hbooks⟩ := blockedPasses_books
    (fun unit hunit => (mem_filter.mp hunit).1)
    (units.filter fun unit => pendingIds.contains unit.unitId).length []
    (fun unit hunit => hunit) ⟨fun x hx => .inl hx, fun event hmem => by cases hmem⟩
  obtain ⟨unit, hunit, error, heq, hknown, hblocked⟩ := hbooks.events event h
  rw [mem_filter] at hunit
  exact ⟨unit, hunit.1, by simpa using hunit.2, error, heq, hknown, hblocked⟩

end RalphWorkflow.FanOut
