import Mathlib.Data.List.Nodup
import RalphWorkflow.Agents.Parsers.OpenCode
import RalphWorkflow.Lib.Run

/-! What the OpenCode parser shows of a tool call. A frame that is not terminal is shown each time; a terminal one shows the dispatch when the
memory does not have its id. -/
namespace RalphWorkflow.Parsers.OpenCode
open Lib (Run.Throughout Run.Throughout.iff_of_step)

/-! ## Calls -/

def terminal (part : Part) : Bool :=
  part.state.any fun state => state.status = "completed" || state.status = "error"

def openCall (callId : String) : List Shown → List Shown
  | [] => []
  | frame :: log =>
    if toolCallId frame.part = some callId then
      if terminal frame.part then [] else frame :: openCall callId log
    else openCall callId log

def lastCall (callId : String) : List Shown → List Shown
  | [] => []
  | frame :: log => if toolCallId frame.part = some callId then frame :: openCall callId log else lastCall callId log

def isUse (line : Line) : Bool := line.type = .toolUse

def uses (frames : List Shown) : Nat := (frames.flatMap Shown.lines).countP isUse

/-- Every call has been shown once so far, and what came of it as often as it has ended. -/
structure OneLineEach (s : State) : Prop where
  use : ∀ callId, lastCall callId s.log ≠ [] → uses (lastCall callId s.log) = 1
  outcome : ∀ frame ∈ s.log, (frame.lines.filter fun line => !isUse line).length = if terminal frame.part then 1 else 0

/-- It begins its call, or ends one whose id is still in the memory. -/
def Timely (s : State) (event : Event) (_next : State) : Prop :=
  ∀ part callId, event = .toolUse part → toolCallId part = some callId →
    openCall callId s.log = [] ∨ terminal part = true ∧ callId ∈ s.dispatched

/-! ## The memory -/

structure Remembers (s : State) : Prop where
  nodup : s.dispatched.Nodup
  open_ : ∀ callId ∈ s.dispatched, openCall callId s.log ≠ []

theorem mem_append {dispatched : List String} {callId c : String} (h : c ∈ append dispatched callId) : c ∈ dispatched ∨ c = callId := by
  have hmem := List.mem_of_mem_drop h
  rw [List.mem_append, List.mem_singleton] at hmem
  exact hmem

theorem nodup_append {dispatched : List String} {callId : String} (hnodup : dispatched.Nodup) (hfresh : callId ∉ dispatched) :
    (append dispatched callId).Nodup := by
  have happended : (dispatched ++ [callId]).Nodup := by
    rw [List.nodup_append]
    refine ⟨hnodup, List.nodup_singleton callId, ?_⟩
    rintro c hc d hd rfl
    exact hfresh (List.mem_singleton.1 hd ▸ hc)
  exact happended.sublist (List.drop_sublist _ _)

/-! ## One frame -/

section Frame

variable (dispatched : List String) (part : Part)

theorem parse_open (h : terminal part = false) : (parseToolUse dispatched part).1 = [useLine part] ∧
      ((parseToolUse dispatched part).2 = dispatched ∨ (parseToolUse dispatched part).2 = recordToolDispatch dispatched part) := by
  unfold parseToolUse
  cases hstate : part.state with
  | none => exact ⟨rfl, .inl rfl⟩
  | some state =>
    simp only [terminal, hstate, Option.any_some, Bool.or_eq_false_iff, decide_eq_false_iff_not] at h
    simp [h.1, h.2]

theorem parse_terminal (h : terminal part = true) :
    ∃ type content, type ≠ LineType.toolUse ∧ parseToolUse dispatched part = finished dispatched part type content := by
  unfold parseToolUse
  cases hstate : part.state with
  | none => simp [terminal, hstate] at h
  | some state =>
    by_cases hcompleted : state.status = "completed"
    · exact ⟨.toolResult, state.output, by decide, by simp [hcompleted]⟩
    · have herror : state.status = "error" := by simpa [terminal, hstate, hcompleted] using h
      exact ⟨.error, state.error, by decide, by simp [herror]⟩

theorem countP_parse : (parseToolUse dispatched part).1.countP isUse =
      if terminal part = true ∧ toolCallWasDispatched dispatched part = true then 0 else 1 := by
  cases hterminal : terminal part with
  | false =>
    rw [(parse_open dispatched part hterminal).1]
    simp [isUse, useLine]
  | true =>
    obtain ⟨type, content, htype, hparse⟩ := parse_terminal dispatched part hterminal
    rw [hparse, finished]
    by_cases hdispatched : toolCallWasDispatched dispatched part = true
    · simp [hdispatched, isUse, htype]
    · simp [hdispatched, isUse, htype, useLine]

theorem outcome_parse : ((parseToolUse dispatched part).1.filter fun line => !isUse line).length = if terminal part then 1 else 0 := by
  cases hterminal : terminal part with
  | false =>
    rw [(parse_open dispatched part hterminal).1]
    simp [isUse, useLine]
  | true =>
    obtain ⟨type, content, htype, hparse⟩ := parse_terminal dispatched part hterminal
    rw [hparse, finished]
    by_cases hdispatched : toolCallWasDispatched dispatched part = true
    · simp [hdispatched, isUse, htype]
    · simp [hdispatched, isUse, htype, useLine]

theorem mem_parse {c : String} (hnodup : dispatched.Nodup) (h : c ∈ (parseToolUse dispatched part).2) :
    (c ∈ dispatched ∨ toolCallId part = some c) ∧ (terminal part = true → toolCallId part ≠ some c) := by
  cases hterminal : terminal part with
  | false =>
    refine ⟨?_, by simp⟩
    rcases (parse_open dispatched part hterminal).2 with hsame | hrecord
    · exact .inl (hsame ▸ h)
    · rw [hrecord, recordToolDispatch] at h
      cases hcall : toolCallId part with
      | none => exact .inl (by simpa [hcall] using h)
      | some callId =>
        by_cases hknown : callId ∈ dispatched
        · exact .inl (by simpa [hcall, hknown] using h)
        · simp only [hcall, hknown, if_false] at h
          rcases mem_append h with hmem | rfl
          · exact .inl hmem
          · exact .inr rfl
  | true =>
    obtain ⟨type, content, -, hparse⟩ := parse_terminal dispatched part hterminal
    rw [hparse, finished, finishToolCall] at h
    cases hcall : toolCallId part with
    | none => exact ⟨.inl (by simpa [hcall] using h), by simp⟩
    | some callId =>
      simp only [hcall] at h
      rw [hnodup.mem_erase_iff] at h
      refine ⟨.inl h.2, fun _ hsame => h.1 ?_⟩
      cases hsame
      rfl

theorem nodup_parse (hnodup : dispatched.Nodup) : (parseToolUse dispatched part).2.Nodup := by
  cases hterminal : terminal part with
  | false =>
    rcases (parse_open dispatched part hterminal).2 with hsame | hrecord
    · rwa [hsame]
    · rw [hrecord, recordToolDispatch]
      cases toolCallId part with
      | none => exact hnodup
      | some callId =>
        by_cases hknown : callId ∈ dispatched
        · simpa [hknown] using hnodup
        · simpa [hknown] using nodup_append hnodup hknown
  | true =>
    obtain ⟨type, content, -, hparse⟩ := parse_terminal dispatched part hterminal
    rw [hparse, finished, finishToolCall]
    cases toolCallId part with
    | none => exact hnodup
    | some callId => exact hnodup.erase callId

end Frame

/-! ## A step -/

section Step

variable {s next : State} {event : Event}

theorem Remembers.step (h : Remembers s) (hstep : step s event = some next) : Remembers next := by
  cases event with
  | other =>
    cases hstep
    exact h
  | toolUse part =>
    cases hstep
    refine ⟨nodup_parse s.dispatched part h.nodup, fun callId hmem => ?_⟩
    obtain ⟨horigin, hnot⟩ := mem_parse s.dispatched part h.nodup hmem
    show openCall callId (_ :: s.log) ≠ []
    unfold openCall
    by_cases hcall : toolCallId part = some callId
    · have hterminal : terminal part = false := by
        cases hterminal : terminal part with
        | false => rfl
        | true => exact absurd hcall (hnot hterminal)
      simp [hcall, hterminal]
    · simp only [hcall, if_false]
      rcases horigin with hold | hnew
      · exact h.open_ callId hold
      · exact absurd hnew hcall

theorem lastCall_of_open {callId : String} {log : List Shown} (h : openCall callId log ≠ []) : lastCall callId log = openCall callId log := by
  induction log with
  | nil => rfl
  | cons frame log ih =>
    by_cases hcall : toolCallId frame.part = some callId
    · by_cases hterminal : terminal frame.part = true
      · simp [openCall, hcall, hterminal] at h
      · simp [openCall, lastCall, hcall, hterminal]
    · simp only [openCall, lastCall, hcall, if_false] at h ⊢
      exact ih h

theorem uses_lastCall_cons (frame : Shown) (log : List Shown) (callId : String) : uses (lastCall callId (frame :: log)) =
      if toolCallId frame.part = some callId then frame.lines.countP isUse + uses (openCall callId log) else uses (lastCall callId log) := by
  by_cases hcall : toolCallId frame.part = some callId
  · simp [lastCall, hcall, uses, List.countP_append]
  · simp [lastCall, hcall]

theorem oneLineEach_step_iff (hremembers : Remembers s) (h : OneLineEach s) (hstep : step s event = some next) :
    OneLineEach next ↔ Timely s event next := by
  cases event with
  | other =>
    cases hstep
    exact iff_of_true h fun part callId hevent => by cases hevent
  | toolUse part =>
    have hlog : next.log = ⟨part, (parseToolUse s.dispatched part).1⟩ :: s.log := by
      cases hstep
      rfl
    have houtcome : ∀ frame ∈ next.log, (frame.lines.filter fun line => !isUse line).length = if terminal frame.part then 1 else 0 := by
      rw [hlog]
      intro frame hframe
      rcases List.mem_cons.1 hframe with rfl | hold
      · exact outcome_parse s.dispatched part
      · exact h.outcome frame hold
    have hother : ∀ callId, toolCallId part ≠ some callId → lastCall callId next.log = lastCall callId s.log := by
      intro callId hcall
      rw [hlog]
      simp [lastCall, hcall]
    cases hpart : toolCallId part with
    | none =>
      have hsame : ∀ callId, lastCall callId next.log = lastCall callId s.log := fun callId => hother callId (by simp [hpart])
      refine iff_of_true ⟨fun callId hcall => ?_, houtcome⟩ ?_
      · rw [hsame] at hcall ⊢
        exact h.use callId hcall
      · rintro _ callId ⟨⟩ hcall
        rw [hpart] at hcall
        cases hcall
    | some callId =>
      have hcount : uses (lastCall callId next.log) = (parseToolUse s.dispatched part).1.countP isUse + uses (openCall callId s.log) := by
        rw [hlog, uses_lastCall_cons, if_pos hpart]
      have hdispatched : toolCallWasDispatched s.dispatched part = decide (callId ∈ s.dispatched) := by simp [toolCallWasDispatched, hpart]
      have hnonempty : lastCall callId next.log ≠ [] := by
        rw [hlog]
        simp [lastCall, hpart]
      have hone : uses (lastCall callId next.log) = 1 ↔ openCall callId s.log = [] ∨ terminal part = true ∧ callId ∈ s.dispatched := by
        rw [hcount, countP_parse, hdispatched]
        by_cases hopen : openCall callId s.log = []
        · -- the memory has no id of a call that has not begun
          have hforgot : callId ∉ s.dispatched := fun hmem => hremembers.open_ callId hmem hopen
          simp [hopen, hforgot, uses]
        · have hbefore : uses (openCall callId s.log) = 1 := by
            rw [← lastCall_of_open hopen]
            exact h.use callId (by rwa [lastCall_of_open hopen])
          rw [hbefore]
          by_cases hlast : terminal part = true ∧ callId ∈ s.dispatched
          · simp [hlast]
          · simp [hlast, hopen]
      constructor
      · rintro hnext _ c ⟨⟩ hc
        rw [hpart] at hc
        cases hc
        exact hone.1 (hnext.use callId hnonempty)
      · intro htimely
        refine ⟨fun c hc => ?_, houtcome⟩
        by_cases hsame : toolCallId part = some c
        · rw [hpart] at hsame
          cases hsame
          exact hone.2 (htimely part callId rfl hpart)
        · rw [hother c hsame] at hc ⊢
          exact h.use c hc

end Step

/-! ## Every run -/

/-- After every event each call has its one line, exactly when every frame of the run is timely. -/
theorem oneLineEach_iff_timely (events : List Event) :
    Run.Throughout step (fun _ _ next => OneLineEach next) {} events ↔ Run.Throughout step Timely {} events := by
  have hstart : Remembers {} ∧ OneLineEach {} :=
    ⟨⟨List.nodup_nil, by simp⟩, ⟨fun callId h => absurd rfl h, by simp⟩⟩
  have hiff : ∀ s event next, Remembers s ∧ OneLineEach s → step s event = some next → (OneLineEach next ↔ Timely s event next) :=
    fun s event next hs hstep => oneLineEach_step_iff hs.1 hs.2 hstep
  have hkeeps : ∀ s event next, Remembers s ∧ OneLineEach s → Timely s event next → step s event = some next → Remembers next ∧ OneLineEach next :=
    fun s event next hs htimely hstep => ⟨hs.1.step hstep, (hiff s event next hs hstep).2 htimely⟩
  exact Run.Throughout.iff_of_step hiff hkeeps hstart

def announced : List Event :=
  [.toolUse { callID := some "call_1", tool := "ralph_read_file", state := some { status := "pending" } },
    .toolUse { callID := some "call_1", tool := "ralph_read_file", state := some { status := "running" } }]

/-- It is shown twice. -/
theorem status_update_repeats : ¬ Run.Throughout step (fun _ _ next => OneLineEach next) {} announced := by
  intro h
  have htwice := h.2.1.use "call_1" (by decide)
  exact absurd htwice (by decide)

end RalphWorkflow.Parsers.OpenCode
