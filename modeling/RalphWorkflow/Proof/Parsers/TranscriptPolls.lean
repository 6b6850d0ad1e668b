import Mathlib.Data.List.Induction
import RalphWorkflow.Agents.Parsers.InteractiveTranscript

/-! What the tail of a growing transcript sends, against the lines of the whole transcript fed one by one. The two agree where every poll finds
whole lines: what a poll cuts in two is fed in two, and no parser sees the line again. -/
namespace RalphWorkflow.SubagentTranscript
open Lib.TextMode List
open Lib.Text (isLineBreak splitLinesFrom)
open Parsers.Interactive (InteractiveTranscriptEvent ParserState Screen feed)

variable (screen : Screen)

/-! ## Runs -/

def run (steps : List Step) : World := steps.foldl (step screen) discovered

def summariesOf (file : Bytes) : List Text := (forwardLines screen {} (completeLines (readText file))).1

def unread (world : World) : Bytes := world.file.drop world.tail.offset

/-- A poll reads what it has measured: nothing is written meanwhile, or each byte is a character. -/
structure FindsWholeLines (world : World) (late : Bytes) : Prop where
  whole : EndsLine 10 world.file
  measured : late = [] ∨ ∀ b ∈ unread world, b.toNat < 0x80 ∧ b.toNat ≠ 13
  unbroken : ∀ c ∈ readText (unread world), isLineBreak c = true → c = '\n'

def PollsWholeLines (steps : List Step) : Prop :=
  ∀ before late after, steps = before ++ .poll late :: after → FindsWholeLines (run screen before) late

/-! ## Whole lines so far -/

/-- The tail has read whole lines, and has sent what they send. -/
structure Caught (world : World) : Prop where
  inside : world.tail.offset ≤ world.file.length
  whole : EndsLine 10 (world.file.take world.tail.offset)
  forwarded : forwardLines screen {} (completeLines (readText (world.file.take world.tail.offset))) = (world.sent, world.tail.parser)

theorem discovered_caught : Caught screen discovered := ⟨Nat.le_refl _, .inl rfl, rfl⟩

theorem forwardLines_append (parser : ParserState) (first second : List Text) : forwardLines screen parser (first ++ second) =
      ((forwardLines screen parser first).1 ++ (forwardLines screen (forwardLines screen parser first).2 second).1,
        (forwardLines screen (forwardLines screen parser first).2 second).2) := by
  induction first generalizing parser with
  | nil => rfl
  | cons line first ih => simp [forwardLines, ih]

variable {screen} {world : World}

theorem append_caught (h : Caught screen world) (bytes : Bytes) : Caught screen (step screen world (.append bytes)) := by
  have htake : (world.file ++ bytes).take world.tail.offset = world.file.take world.tail.offset := take_append_of_le_length h.inside
  refine ⟨?_, ?_, ?_⟩
  · exact Nat.le_trans h.inside (by simp [step])
  · simpa only [step, htake] using h.whole
  · simpa only [step, htake] using h.forwarded

theorem unread_endsLine (hwhole : EndsLine 10 world.file) : EndsLine 10 (unread world) := by
  rcases hwhole with hnil | ⟨front, hfront⟩
  · exact .inl (by rw [unread, hnil, drop_nil])
  · by_cases hinside : world.tail.offset ≤ front.length
    · exact .inr ⟨front.drop world.tail.offset, by rw [unread, hfront, drop_append_of_le_length hinside]⟩
    · refine .inl ?_
      rw [unread, hfront, drop_eq_nil_iff, length_append, length_singleton]
      omega

theorem chunk_eq {late : Bytes} (hpoll : FindsWholeLines world late) (hinside : world.tail.offset ≤ world.file.length) :
    (readText ((world.file ++ late).drop world.tail.offset)).take (world.file.length - world.tail.offset) = readText (unread world) := by
  have hlength : world.file.length - world.tail.offset = (unread world).length := by rw [unread, length_drop]
  have hdrop : (world.file ++ late).drop world.tail.offset = unread world ++ late := by
    rw [unread, drop_append_of_le_length hinside]
  rw [hlength, hdrop]
  rcases hpoll.measured with rfl | hplain
  · rw [append_nil]
    exact take_of_length_le (length_readText _)
  · have hascii := readText_ascii hplain []
    have hempty : readText ([] : Bytes) = [] := rfl
    rw [append_nil, hempty, append_nil] at hascii
    rw [readText_ascii hplain late, hascii, take_append_of_le_length (by simp)]
    exact take_of_length_le (by simp)

theorem advance_caught {late : Bytes} (h : Caught screen world) (hpoll : FindsWholeLines world late) :
    Caught screen (advance screen world late) ∧ (advance screen world late).sent = summariesOf screen world.file := by
  have hsize : ¬ world.file.length < world.tail.offset := Nat.not_lt.2 h.inside
  by_cases hnew : world.tail.offset < world.file.length
  · have hsplit : world.file.take world.tail.offset ++ unread world = world.file := take_append_drop _ _
    have hread : completeLines (readText world.file) =
        completeLines (readText (world.file.take world.tail.offset)) ++ completeLines (readText (unread world)) := by
      rw [← completeLines_append (readText_endsLine h.whole), ← readText_append h.whole, hsplit]
    have hlines : splitLinesFrom [] (readText (unread world)) = completeLines (readText (unread world)) :=
      splitLinesFrom_whole (readText_endsLine (unread_endsLine hpoll.whole)) hpoll.unbroken
    have hall : forwardLines screen {} (completeLines (readText world.file)) =
        (world.sent ++ (forwardChunk screen world.tail.parser (readText (unread world))).1,
          (forwardChunk screen world.tail.parser (readText (unread world))).2) := by
      rw [hread, forwardLines_append, h.forwarded, forwardChunk, hlines]
    have hadvance : advance screen world late =
        { file := world.file ++ late, tail := { parser := (forwardChunk screen world.tail.parser (readText (unread world))).2, offset := world.file.length },
          sent := world.sent ++ (forwardChunk screen world.tail.parser (readText (unread world))).1 } := by
      simp only [advance, if_neg hsize, if_pos hnew, chunk_eq hpoll h.inside]
    rw [hadvance]
    refine ⟨⟨by simp, ?_, ?_⟩, ?_⟩
    · simpa using hpoll.whole
    · simpa using hall
    · rw [summariesOf, hall]
  · have hend : world.tail.offset = world.file.length := Nat.le_antisymm h.inside (Nat.not_lt.1 hnew)
    have hadvance : advance screen world late = { file := world.file ++ late, tail := world.tail, sent := world.sent } := by
      simp only [advance, if_neg hsize, if_neg hnew]
    have hforwarded := h.forwarded
    rw [hadvance]
    refine ⟨append_caught h late, ?_⟩
    rw [hend, take_length] at hforwarded
    rw [summariesOf, hforwarded]

theorem run_caught {steps : List Step} (h : PollsWholeLines screen steps) : Caught screen (run screen steps) := by
  induction steps using List.reverseRecOn with
  | nil => exact discovered_caught screen
  | append_singleton steps last ih =>
    have hbefore : Caught screen (run screen steps) := by
      refine ih fun before late after hsteps => h before late (after ++ [last]) ?_
      rw [hsteps, append_assoc, cons_append]
    rw [run, foldl_append]
    cases last with
    | append bytes => exact append_caught hbefore bytes
    | poll late => exact (advance_caught hbefore (h steps late [] rfl)).1

variable (screen)

/-- After every poll the sink has had what complete lines send, each once. -/
theorem polls_forward_once (steps : List Step) (h : PollsWholeLines screen steps) (before after : List Step) (late : Bytes)
    (hsteps : steps = before ++ .poll late :: after) :
    (advance screen (run screen before) late).sent = summariesOf screen (run screen before).file := by
  have hbefore : PollsWholeLines screen before := by
    intro first earlier rest hfirst
    refine h first earlier (rest ++ .poll late :: after) ?_
    rw [hsteps, hfirst, append_assoc, cons_append]
  exact (advance_caught (run_caught hbefore) (h before late after hsteps)).2

/-! ## One tool call -/

/-- A screen on which nothing is recognised; a record of a tool call is read without it. -/
def blankScreen : Screen where
  eventForText _ _ := (none, none)
  isTuiThinkingGarbage _ := false
  isZero literal := literal = ['0']
  str _ := []
  bufferedEvents state := ([], state)

def ascii (text : String) : Bytes := text.toList.map fun c => UInt8.ofNat c.toNat

def firstHalf : Bytes := ascii "\x7b\"type\":\"assistant\",\"message\":\x7b\"content\":[\x7b\"type\":"

def secondHalf : Bytes := ascii "\"tool_use\",\"name\":\"Bash\"\x7d]\x7d\x7d\n"

/-- Both halves are there when the transcript is polled. -/
theorem polls_forward_once_record : (advance blankScreen (run blankScreen [.append firstHalf, .append secondHalf]) []).sent =
      summariesOf blankScreen (run blankScreen [.append firstHalf, .append secondHalf]).file := by
  have hfile : (run blankScreen [.append firstHalf, .append secondHalf]).file =
      ascii "\x7b\"type\":\"assistant\",\"message\":\x7b\"content\":[\x7b\"type\":\"tool_use\",\"name\":\"Bash\"\x7d]\x7d\x7d" ++ [10] := by decide +kernel
  have hbreaks : (readText (unread (run blankScreen [.append firstHalf, .append secondHalf]))).all
      (fun c => !isLineBreak c || c == '\n') = true := by decide +kernel
  refine polls_forward_once blankScreen [.append firstHalf, .append secondHalf, .poll []] ?_
    [.append firstHalf, .append secondHalf] [] [] rfl
  intro before late after hsteps
  match before, hsteps with
  | [_, _], hsteps =>
    cases hsteps
    refine ⟨.inr ⟨_, hfile⟩, .inl rfl, fun c hc hbreak => ?_⟩
    have hthis := all_eq_true.1 hbreaks c hc
    simpa [hbreak] using hthis
  | _ :: _ :: _ :: _, hsteps => simp at hsteps

/-- A poll between the two halves: the call is never sent. -/
theorem poll_loses_record : (run blankScreen [.append firstHalf, .poll [], .append secondHalf, .poll []]).sent ≠
      summariesOf blankScreen (run blankScreen [.append firstHalf, .poll [], .append secondHalf, .poll []]).file := by
  have hsent : (run blankScreen [.append firstHalf, .poll [], .append secondHalf, .poll []]).sent = [] := by decide +kernel
  have hwhole : summariesOf blankScreen (run blankScreen [.append firstHalf, .poll [], .append secondHalf, .poll []]).file =
      ["tool_use:Bash".toList] := by decide +kernel
  rw [hsent, hwhole]
  decide

end RalphWorkflow.SubagentTranscript
