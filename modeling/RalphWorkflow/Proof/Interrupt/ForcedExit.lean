import RalphWorkflow.Interrupt.Dispatcher

/-! Once `force_exit` has been called, the process exits unless a shutdown of that call raises. Then it never does. -/
namespace RalphWorkflow.Interrupt
open Lib List InterruptDispatcher

variable {dispatcher : InterruptDispatcher} {s next : State} {label : Label} {labels : List Label}

/-! ## The life of a call -/

/-- Nobody has called `force_exit`. -/
structure Unforced (s : State) : Prop where
  uncalled : s.forceExitCalled = false
  idle : s.forcing = none
  silent : s.exits = []

structure Underway (dispatcher : InterruptDispatcher) (s : State) : Prop where
  called : s.forceExitCalled = true
  silent : s.exits = []
  forcing : ∃ caller task rest, s.forcing = some ⟨caller, task :: rest⟩ ∧ task :: rest <:+ dispatcher.forceExitTasks

structure Exited (s : State) : Prop where
  called : s.forceExitCalled = true
  idle : s.forcing = none
  exited : s.exits = [interruptExitCode]

structure Lost (s : State) : Prop where
  called : s.forceExitCalled = true
  idle : s.forcing = none
  silent : s.exits = []

def loses : Label → Bool
  | .shutdownAll outcome => outcome != .returned
  | _ => false

theorem suffix_cases {task : Task} {rest : List Task} (h : task :: rest <:+ dispatcher.forceExitTasks) :
    task = .hardExit ∧ rest = [] ∨ task ≠ .hardExit ∧ rest ≠ [] ∧ rest <:+ dispatcher.forceExitTasks := by
  have htail : rest <:+ dispatcher.forceExitTasks := (suffix_cons task rest).trans h
  unfold forceExitTasks controllerForceExit at h
  by_cases hown : dispatcher.hardExit = true
  · simp only [hown, if_true, suffix_cons_iff, List.cons.injEq, suffix_nil, reduceCtorEq, or_false] at h
    rcases h with ⟨rfl, rfl⟩ | ⟨rfl, rfl⟩
    · exact .inr ⟨nofun, nofun, htail⟩
    · exact .inl ⟨rfl, rfl⟩
  · simp only [hown, if_false, suffix_cons_iff, List.cons.injEq, suffix_nil, reduceCtorEq, or_false] at h
    rcases h with ⟨rfl, rfl⟩ | ⟨rfl, rfl⟩ | ⟨rfl, rfl⟩ | ⟨rfl, rfl⟩
    · exact .inr ⟨nofun, nofun, htail⟩
    · exact .inr ⟨nofun, nofun, htail⟩
    · exact .inr ⟨nofun, nofun, htail⟩
    · exact .inl ⟨rfl, rfl⟩

/-! ## What the steps do to a call -/

def Leaves (s next : State) : Prop :=
  next.forceExitCalled = s.forceExitCalled ∧ next.forcing = s.forcing ∧ next.exits = s.exits

def Calls (dispatcher : InterruptDispatcher) (s next : State) : Prop :=
  s.forceExitCalled = false ∧ next.forceExitCalled = true ∧ next.exits = s.exits ∧
    ∃ caller, next.forcing = some ⟨caller, dispatcher.forceExitTasks⟩

def Works (s next : State) (label : Label) : Prop :=
  next.forceExitCalled = s.forceExitCalled ∧ ∃ caller task rest, s.forcing = some ⟨caller, task :: rest⟩ ∧
    (task ≠ .hardExit ∧ next.exits = s.exits ∧ (loses label = true ∧ next.forcing = none ∨
        loses label = false ∧ (rest = [] ∧ next.forcing = none ∨ rest ≠ [] ∧ next.forcing = some ⟨caller, rest⟩)) ∨
      task = .hardExit ∧ loses label = false ∧ next.exits = s.exits ++ [interruptExitCode] ∧
        (rest = [] ∧ next.forcing = none ∨ rest ≠ [] ∧ next.forcing = some ⟨caller, rest⟩))

theorem forceExit_cases (caller : Caller) (s : State) : dispatcher.forceExit caller s = s ∨ Calls dispatcher s (dispatcher.forceExit caller s) := by
  unfold forceExit
  by_cases hcalled : s.forceExitCalled = true
  · exact .inl (if_pos hcalled)
  · rw [if_neg hcalled]
    exact .inr ⟨Bool.not_eq_true _ ▸ hcalled, rfl, rfl, caller, rfl⟩

theorem taskDone_forcing (forcing : Forcing) (rest : List Task) (s : State) :
    (taskDone forcing rest s).forceExitCalled = s.forceExitCalled ∧
      (taskDone forcing rest s).exits = s.exits ∧
      (rest = [] ∧ (taskDone forcing rest s).forcing = none ∨
        rest ≠ [] ∧ (taskDone forcing rest s).forcing = some ⟨forcing.caller, rest⟩) := by
  cases rest with
  | nil => exact ⟨rfl, rfl, .inl ⟨rfl, rfl⟩⟩
  | cons task rest => exact ⟨rfl, rfl, .inr ⟨nofun, rfl⟩⟩

theorem step_cases (h : dispatcher.step s label = some next) :
    loses label = false ∧ Leaves s next ∨ loses label = false ∧ Calls dispatcher s next ∨ Works s next label := by
  cases label with
  | interrupt signal active =>
    simp only [step, InterruptDispatcher.interrupt] at h
    split at h
    · cases h
      exact .inl ⟨rfl, rfl, rfl, rfl⟩
    · split at h
      · cases h
        exact .inl ⟨rfl, rfl, rfl, rfl⟩
      · cases h
        rcases @forceExit_cases dispatcher .handler s with hsame | hcalls
        · rw [hsame]
          exact .inl ⟨rfl, rfl, rfl, rfl⟩
        · exact .inr (.inl ⟨rfl, hcalls⟩)
    · cases h
  | shutdownForLabel outcome =>
    simp only [step, Option.ite_none_right_eq_some, Option.some.injEq] at h
    obtain ⟨-, rfl⟩ := h
    exact .inl ⟨rfl, rfl, rfl, rfl⟩
  | poll active =>
    simp only [step, Option.ite_none_right_eq_some, Option.some.injEq] at h
    obtain ⟨-, rfl⟩ := h
    refine .inl ⟨rfl, ?_⟩
    split
    · exact ⟨rfl, rfl, rfl⟩
    · exact ⟨rfl, rfl, rfl⟩
  | deadline active =>
    simp only [step, Option.ite_none_right_eq_some, Option.some.injEq] at h
    obtain ⟨-, rfl⟩ := h
    unfold InterruptDispatcher.deadline
    split
    · split
      · exact .inl ⟨rfl, rfl, rfl, rfl⟩
      · rename_i huncalled
        rcases @forceExit_cases dispatcher .block s with hsame | hcalls
        · rw [hsame]
          exact .inl ⟨rfl, rfl, rfl, rfl⟩
        · exact .inr (.inl ⟨rfl, hcalls⟩)
    · exact .inl ⟨rfl, rfl, rfl, rfl⟩
  | shutdownAll outcome =>
    simp only [step] at h
    split at h
    · rename_i caller rest hforcing
      cases h
      refine .inr (.inr ?_)
      by_cases hreturned : outcome = .returned
      · rw [if_pos hreturned]
        obtain ⟨hcalled, hexits, hrest⟩ := taskDone_forcing ⟨caller, .shutdownAll :: rest⟩ rest s
        subst hreturned
        exact ⟨hcalled, caller, _, rest, hforcing, .inl ⟨nofun, hexits, .inr ⟨rfl, hrest⟩⟩⟩
      · rw [if_neg hreturned]
        have hloses : loses (.shutdownAll outcome) = true := bne_iff_ne.mpr hreturned
        cases caller with
        | handler => exact ⟨rfl, _, _, rest, hforcing, .inl ⟨nofun, rfl, .inl ⟨hloses, rfl⟩⟩⟩
        | block => exact ⟨rfl, _, _, rest, hforcing, .inl ⟨nofun, rfl, .inl ⟨hloses, rfl⟩⟩⟩
    · cases h
  | restoreTerminal =>
    simp only [step] at h
    split at h
    · rename_i caller rest hforcing
      cases h
      obtain ⟨hcalled, hexits, hrest⟩ := taskDone_forcing ⟨caller, .restoreTerminal :: rest⟩ rest s
      exact .inr (.inr ⟨hcalled, caller, _, rest, hforcing, .inl ⟨nofun, hexits, .inr ⟨rfl, hrest⟩⟩⟩)
    · cases h
  | hardExit =>
    simp only [step] at h
    split at h
    · rename_i caller rest hforcing
      cases h
      obtain ⟨hcalled, -, hrest⟩ := taskDone_forcing ⟨caller, .hardExit :: rest⟩ rest s
      exact .inr (.inr ⟨hcalled, caller, _, rest, hforcing, .inr ⟨rfl, rfl, rfl, hrest⟩⟩)
    · cases h
  | restoreHandlers =>
    simp only [step] at h
    split at h
    · split at h
      · cases h
        exact .inl ⟨rfl, rfl, rfl, rfl⟩
      · cases h
    · cases h
      exact .inl ⟨rfl, rfl, rfl, rfl⟩

/-! ## Whole runs -/

def OnCourse (dispatcher : InterruptDispatcher) (s : State) : Prop := Unforced s ∨ Underway dispatcher s ∨ Exited s

theorem OnCourse.step (hcourse : OnCourse dispatcher s) (h : dispatcher.step s label = some next) :
    loses label = false ∧ OnCourse dispatcher next ∨ loses label = true ∧ Lost next := by
  rcases step_cases h with ⟨hloses, hcalled, hforcing, hexits⟩ | ⟨hloses, hbefore, hcalled, hexits, caller, hforcing⟩ |
    ⟨hcalled, caller, task, rest, hforcing, hworks⟩
  · refine .inl ⟨hloses, ?_⟩
    rcases hcourse with hnone | hunder | hexited
    · exact .inl ⟨hcalled.trans hnone.uncalled, hforcing.trans hnone.idle, hexits.trans hnone.silent⟩
    · refine .inr (.inl ⟨hcalled.trans hunder.called, hexits.trans hunder.silent, ?_⟩)
      rw [hforcing]
      exact hunder.forcing
    · exact .inr (.inr ⟨hcalled.trans hexited.called, hforcing.trans hexited.idle, hexits.trans hexited.exited⟩)
  · refine .inl ⟨hloses, .inr (.inl ?_)⟩
    rcases hcourse with hnone | hunder | hexited
    · exact ⟨hcalled, hexits.trans hnone.silent, caller, _, _, hforcing, suffix_refl _⟩
    · exact absurd (hbefore.symm.trans hunder.called) Bool.false_ne_true
    · exact absurd (hbefore.symm.trans hexited.called) Bool.false_ne_true
  · have hunder : Underway dispatcher s := by
      rcases hcourse with hnone | hunder | hexited
      · exact absurd (hnone.idle.symm.trans hforcing) nofun
      · exact hunder
      · exact absurd (hexited.idle.symm.trans hforcing) nofun
    have hsuffix : task :: rest <:+ dispatcher.forceExitTasks := by
      obtain ⟨_, _, _, hother, hsuffix⟩ := hunder.forcing
      rw [hforcing] at hother
      cases hother
      exact hsuffix
    have hnextCalled := hcalled.trans hunder.called
    rcases hworks with ⟨htask, hexits, hworks⟩ | ⟨htask, hloses, hexits, hworks⟩
    · have hsilent := hexits.trans hunder.silent
      obtain ⟨-, hmore, htail⟩ := (suffix_cases hsuffix).resolve_left fun h => htask h.1
      rcases hworks with ⟨hloses, hidle⟩ | ⟨hloses, ⟨hempty, -⟩ | ⟨-, hnext⟩⟩
      · exact .inr ⟨hloses, hnextCalled, hidle, hsilent⟩
      · exact absurd hempty hmore
      · obtain ⟨task', rest', rfl⟩ := exists_cons_of_ne_nil hmore
        exact .inl ⟨hloses, .inr (.inl ⟨hnextCalled, hsilent, caller, task', rest', hnext, htail⟩)⟩
    · obtain ⟨-, hempty⟩ := (suffix_cases hsuffix).resolve_right fun h => h.1 htask
      rcases hworks with ⟨-, hidle⟩ | ⟨hmore, -⟩
      · refine .inl ⟨hloses, .inr (.inr ⟨hnextCalled, hidle, ?_⟩)⟩
        rw [hexits, hunder.silent]
        rfl
      · exact absurd hempty hmore

theorem Lost.step (hlost : Lost s) (h : dispatcher.step s label = some next) : Lost next := by
  rcases step_cases h with ⟨-, hcalled, hforcing, hexits⟩ | ⟨-, hbefore, -⟩ | ⟨-, caller, task, rest, hforcing, -⟩
  · exact ⟨hcalled.trans hlost.called, hforcing.trans hlost.idle, hexits.trans hlost.silent⟩
  · exact absurd (hbefore.symm.trans hlost.called) Bool.false_ne_true
  · exact absurd (hlost.idle.symm.trans hforcing) nofun

theorem run_course (hcourse : OnCourse dispatcher s) (h : Run.run dispatcher.step s labels = some next) :
    (∀ label ∈ labels, loses label = false) ∧ OnCourse dispatcher next ∨
      ¬ (∀ label ∈ labels, loses label = false) ∧ Lost next := by
  induction labels generalizing s with
  | nil =>
    cases h
    exact .inl ⟨fun _ h => absurd h not_mem_nil, hcourse⟩
  | cons label labels ih =>
    obtain ⟨mid, hstep, hrest⟩ := Run.run_cons_iff.mp h
    rw [forall_mem_cons]
    rcases hcourse.step hstep with ⟨hkept, hmid⟩ | ⟨hloses, hlost⟩
    · rcases ih hmid hrest with ⟨hall, hnext⟩ | ⟨hsome, hnext⟩
      · exact .inl ⟨⟨hkept, hall⟩, hnext⟩
      · exact .inr ⟨fun h => hsome h.2, hnext⟩
    · refine .inr ⟨fun h => absurd (hloses.symm.trans h.1) nofun, ?_⟩
      exact Run.invariant (fun _ _ _ hlost hstep => hlost.step hstep) hlost hrest

/-! ## The exit -/

def ownStep : Label → Bool
  | .shutdownAll .returned | .restoreTerminal | .hardExit => true
  | _ => false

/-- The exit function was called once with the interrupt's code, or will be by itself. -/
def Exits (dispatcher : InterruptDispatcher) (s : State) : Prop :=
  s.exits = [interruptExitCode] ∧ s.forcing = none ∨
    s.exits = [] ∧ ∃ steps last, steps.length ≤ 4 ∧ (∀ label ∈ steps, ownStep label = true) ∧
      Run.run dispatcher.step s steps = some last ∧ last.exits = [interruptExitCode] ∧ last.forcing = none

/-- The run lives on with no exit to come, and the handlers do nothing about any signal. -/
def Deaf (dispatcher : InterruptDispatcher) (s : State) : Prop :=
  s.exits = [] ∧ s.forcing = none ∧ ∀ signal, dispatcher.step s (.interrupt signal .some) = some s

theorem Underway.ends (tasks : List Task) (hsilent : s.exits = []) {caller : Caller}
    (hforcing : s.forcing = some ⟨caller, tasks⟩) (hne : tasks ≠ []) (hsuffix : tasks <:+ dispatcher.forceExitTasks) :
    ∃ steps last, steps.length ≤ tasks.length ∧ (∀ label ∈ steps, ownStep label = true) ∧
      Run.run dispatcher.step s steps = some last ∧ last.exits = [interruptExitCode] ∧ last.forcing = none := by
  induction tasks generalizing s with
  | nil => exact absurd rfl hne
  | cons task rest ih =>
    rcases suffix_cases hsuffix with ⟨rfl, rfl⟩ | ⟨htask, hmore, htail⟩
    · have hstep : dispatcher.step s .hardExit =
          some { taskDone ⟨caller, [.hardExit]⟩ [] s with exits := s.exits ++ [interruptExitCode] } := by
        simp only [step, hforcing]
      refine ⟨[.hardExit], _, Nat.le_refl _, forall_mem_cons.mpr ⟨rfl, fun _ h => absurd h not_mem_nil⟩,
        Run.run_cons_iff.mpr ⟨_, hstep, rfl⟩, ?_, rfl⟩
      show s.exits ++ [interruptExitCode] = _
      rw [hsilent]
      rfl
    · obtain ⟨label, hown, hstep⟩ : ∃ label, ownStep label = true ∧ dispatcher.step s label =
          some (taskDone ⟨caller, task :: rest⟩ rest s) := by
        cases task with
        | shutdownAll => exact ⟨.shutdownAll .returned, rfl, by simp only [step, hforcing, if_true]⟩
        | restoreTerminal => exact ⟨.restoreTerminal, rfl, by simp only [step, hforcing]⟩
        | hardExit => exact absurd rfl htask
      obtain ⟨-, hexits, hrest⟩ := taskDone_forcing ⟨caller, task :: rest⟩ rest s
      obtain ⟨-, hnext⟩ := hrest.resolve_left fun h => hmore h.1
      obtain ⟨steps, last, hlength, howns, hrun, hlast⟩ := ih (hexits.trans hsilent) hnext hmore htail
      refine ⟨label :: steps, last, Nat.succ_le_succ hlength, forall_mem_cons.mpr ⟨hown, howns⟩, ?_, hlast⟩
      exact Run.run_cons_iff.mpr ⟨_, hstep, hrun⟩

theorem forceExitTasks_length (dispatcher : InterruptDispatcher) : dispatcher.forceExitTasks.length ≤ 4 := by
  unfold forceExitTasks
  by_cases hown : dispatcher.hardExit = true
  · rw [if_pos hown]
    decide
  · rw [if_neg hown]
    decide

theorem OnCourse.exits (hcourse : OnCourse dispatcher s) (hcalled : s.forceExitCalled = true) : Exits dispatcher s := by
  rcases hcourse with hnone | hunder | hexited
  · exact absurd (hnone.uncalled.symm.trans hcalled) Bool.false_ne_true
  · obtain ⟨caller, task, rest, hforcing, hsuffix⟩ := hunder.forcing
    obtain ⟨steps, last, hlength, hresult⟩ := Underway.ends _ hunder.silent hforcing (cons_ne_nil _ _) hsuffix
    have htasks : (task :: rest).length ≤ 4 := Nat.le_trans hsuffix.length_le (forceExitTasks_length dispatcher)
    exact .inr ⟨hunder.silent, steps, last, Nat.le_trans hlength htasks, hresult⟩
  · exact .inl ⟨hexited.exited, hexited.idle⟩

theorem OnCourse.not_deaf (hcourse : OnCourse dispatcher s) (hcalled : s.forceExitCalled = true) : ¬ Deaf dispatcher s := by
  rintro ⟨hsilent, hidle, -⟩
  rcases hcourse with hnone | hunder | hexited
  · exact absurd (hnone.uncalled.symm.trans hcalled) Bool.false_ne_true
  · obtain ⟨caller, task, rest, hforcing, -⟩ := hunder.forcing
    exact absurd (hidle.symm.trans hforcing) nofun
  · exact absurd (hsilent.symm.trans hexited.exited) nofun

theorem Lost.not_exits (hlost : Lost s) : ¬ Exits dispatcher s := by
  rintro (⟨hexits, -⟩ | ⟨-, steps, last, -, -, hrun, hexits, -⟩)
  · exact absurd (hlost.silent.symm.trans hexits) nofun
  · have hlast := Run.invariant (fun _ _ _ hlost hstep => Lost.step hlost hstep) hlost hrun
    exact absurd (hlast.silent.symm.trans hexits) nofun

theorem start_onCourse (dispatcher : InterruptDispatcher) : OnCourse dispatcher {} := .inl ⟨rfl, rfl, rfl⟩

/-- Once `force_exit` has been called, the exit comes exactly when no shutdown of that call raises. -/
theorem exits_iff_returned (hrun : dispatcher.after labels = some s) (hcalled : s.forceExitCalled = true) :
    Exits dispatcher s ∧ ¬ Deaf dispatcher s ↔ ∀ label ∈ labels, loses label = false := by
  rcases run_course (start_onCourse dispatcher) hrun with ⟨hall, hcourse⟩ | ⟨hsome, hlost⟩
  · exact ⟨fun _ => hall, fun _ => ⟨hcourse.exits hcalled, hcourse.not_deaf hcalled⟩⟩
  · exact ⟨fun h => absurd h.1 hlost.not_exits, fun h => absurd h hsome⟩

def orderly : List Label :=
  [.interrupt .sigint .some, .shutdownForLabel .returned, .interrupt .sigterm .some, .shutdownAll .returned,
    .shutdownAll .returned, .restoreTerminal, .hardExit]

def orderlyEnd : State := { handlers := .force, block := .waiting, forceExitCalled := true, exits := [interruptExitCode] }

theorem orderly_exits : after ⟨.asyncio, false⟩ orderly = some orderlyEnd ∧
    Exits ⟨.asyncio, false⟩ orderlyEnd ∧ ¬ Deaf ⟨.asyncio, false⟩ orderlyEnd := by
  have hrun : after ⟨.asyncio, false⟩ orderly = some orderlyEnd := by decide
  exact ⟨hrun, (exits_iff_returned hrun rfl).mpr (by decide)⟩

/-- A second interrupt finds a child that survives the kill. -/
def unkillable : List Label :=
  [.interrupt .sigint .some, .shutdownForLabel .returned, .interrupt .sigint .some, .shutdownAll .terminationError]

def unkillableEnd : State := { handlers := .force, block := .waiting, forceExitCalled := true }

/-- The exit function is never called, and no later signal does anything. -/
theorem unkillable_child_deafens :
    after ⟨.asyncio, false⟩ unkillable = some unkillableEnd ∧ unkillableEnd.forceExitCalled = true ∧
      ¬ Exits ⟨.asyncio, false⟩ unkillableEnd ∧ Deaf ⟨.asyncio, false⟩ unkillableEnd := by
  have hlost : Lost unkillableEnd := ⟨rfl, rfl, rfl⟩
  refine ⟨by decide, rfl, hlost.not_exits, rfl, rfl, fun signal => ?_⟩
  cases signal with
  | sigint => rfl
  | sigterm => rfl

end RalphWorkflow.Interrupt
