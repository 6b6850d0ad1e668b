import Mathlib.Data.List.Flatten
import RalphWorkflow.Proof.Parsers.ClaudeBlocks

/-! When every block of a stream is shown once: the thinking that is held back must be paragraph breaks, and the result must have nothing to repeat. -/
namespace RalphWorkflow.Parsers.Claude
open List ClaudeParser TextAccumulator
open Lib.Json (Text)
open Lib.Text (isSpace)

variable {parser : ClaudeParser} {id : Text}

/-! ## Messages -/

def blockLines (id : Text) (index : Nat) : List StreamedBlock → List Line
  | [] => []
  | block :: blocks => block.lines (id, index) ++ blockLines id (index + 1) blocks

structure Ran (parser next : ClaudeParser) (id : Text) (seen : Nat) (blocks : List StreamedBlock) : Prop where
  idle : Idle next
  current : next.currentMessageId = some id
  seen : ∀ position < seen, (id, (position : Int)) ∈ next.seenContentBlocks
  emitted : ∀ content, content ∈ next.emittedText ↔ (∃ block ∈ blocks, content ∈ block.emitted) ∨ content ∈ parser.emittedText

theorem blocks_run (h : Idle parser) (hid : id ≠ []) (hcurrent : parser.currentMessageId = some id) (index : Nat) (blocks : List StreamedBlock)
    (hseen : ∀ position < index, (id, (position : Int)) ∈ parser.seenContentBlocks)
    (hrepeats : ∀ (position : Nat) (block : StreamedBlock), blocks[position]? = some block →
      ∀ frame ∈ framesOf block.steps ++ block.frames, frame.length ≤ index + position + 1) :
    (parser.parseFrom (blockEvents id index blocks)).1 = blockLines id index blocks ∧
      Ran parser (parser.parseFrom (blockEvents id index blocks)).2 id (index + blocks.length) blocks := by
  induction blocks generalizing parser index with
  | nil => exact ⟨rfl, h, hcurrent, fun position hposition => hseen position (by simpa using hposition), fun content => by simp [blockEvents, parseFrom]⟩
  | cons block blocks ih =>
    have hnow : ∀ position < index + 1, (id, (position : Int)) ∈ (id, (index : Int)) :: parser.seenContentBlocks := by
      intro position hposition
      by_cases heq : position = index
      · rw [heq]
        exact mem_cons_self
      · exact mem_cons_of_mem _ (hseen position (by omega))
    have hfirst := hrepeats 0 block rfl
    obtain ⟨hlines, hafter⟩ := block_run h hid hcurrent block index fun frame hframe position hposition =>
      hnow position (by have := hfirst frame (mem_append_left _ hframe); omega)
    rw [blockEvents, parseFrom_append, parseFrom_append]
    rw [frames_silent _ hid block.frames fun frame hframe position hposition => by
      rw [hafter.seen]
      exact hnow position (by have := hfirst frame (mem_append_right _ hframe); omega)]
    dsimp only
    obtain ⟨hlater, hran⟩ := ih hafter.idle (hafter.current.trans hcurrent) (index + 1)
      (fun position hposition => by
        rw [hafter.seen]
        exact hnow position hposition)
      (fun position later hlater frame hframe => by
        have := hrepeats (position + 1) later hlater frame hframe
        omega)
    refine ⟨?_, hran.idle, hran.current, fun position hposition => hran.seen position (by simp only [length_cons] at hposition; omega), ?_⟩
    · rw [hlines, hlater, append_nil, blockLines]
    · intro content
      rw [hran.emitted, hafter.emitted, mem_append]
      simp only [mem_cons, exists_eq_or_imp]
      rw [or_assoc, or_left_comm]

theorem start_message (h : Idle parser) (hid : id ≠ []) : Idle (parser.recordMessageStart id) ∧ (parser.recordMessageStart id).currentMessageId = some id ∧
    (parser.recordMessageStart id).emittedText = [] := by
  have hnonempty : ¬ id.isEmpty = true := by simpa using hid
  rw [recordMessageStart, if_neg hnonempty]
  exact ⟨⟨h.text, h.thinking, h.fallback, h.fallbackThinking⟩, rfl, rfl⟩

theorem message_run (h : Idle parser) (message : Message) :
    (parser.parseFrom message.events).1 = blockLines message.id 0 message.blocks ∧ Idle (parser.parseFrom message.events).2 ∧
      ∀ content, content ∈ (parser.parseFrom message.events).2.emittedText ↔ ∃ block ∈ message.blocks, content ∈ block.emitted := by
  obtain ⟨hidle, hcurrent, hemitted⟩ := start_message h message.id_ne
  obtain ⟨hlines, hran⟩ := blocks_run hidle message.id_ne hcurrent 0 message.blocks (fun position hposition => absurd hposition (Nat.not_lt_zero _))
    (fun position block hblock frame hframe => by
      have hlength := (message.repeats position block hblock frame hframe).length_le
      rw [length_map, length_take] at hlength
      omega)
  rw [Message.events, parseFrom, dispatch, parseStreamed, parseFrom_append, parseFrom,
    dispatch, parseStreamed, handleMessageStop]
  dsimp only
  rw [flushAccumulators_idle hran.idle]
  dsimp only
  rw [frames_silent _ message.id_ne message.frames fun frame hframe position hposition => by
    have hlength := (message.repeatsAll frame hframe).length_le
    rw [length_map] at hlength
    exact hran.seen position (by omega)]
  refine ⟨by simpa using hlines, ⟨hran.idle.text, hran.idle.thinking, hran.idle.fallback, hran.idle.fallbackThinking⟩, fun content => ?_⟩
  rw [hran.emitted, hemitted]
  simp

/-! ## Streams -/

theorem messages_run (h : Idle parser) (messages : List Message) :
    (parser.parseFrom (messages.flatMap Message.events)).1 = messages.flatMap (fun message => blockLines message.id 0 message.blocks) ∧
      Idle (parser.parseFrom (messages.flatMap Message.events)).2 ∧
        ∀ last, messages.getLast? = some last → ∀ content,
          content ∈ (parser.parseFrom (messages.flatMap Message.events)).2.emittedText ↔ ∃ block ∈ last.blocks, content ∈ block.emitted := by
  induction messages generalizing parser with
  | nil => exact ⟨rfl, h, fun last hlast => nomatch hlast⟩
  | cons message messages ih =>
    obtain ⟨hlines, hidle, hemitted⟩ := message_run h message
    obtain ⟨hlater, hidle', hemitted'⟩ := ih hidle
    rw [flatMap_cons, parseFrom_append]
    refine ⟨by rw [hlines, hlater, flatMap_cons], hidle', fun last hlast => ?_⟩
    cases messages with
    | nil =>
      cases hlast
      exact hemitted
    | cons next messages => exact hemitted' last (by rwa [List.getLast?_cons_cons] at hlast)

/-! ## What is shown of a block -/

theorem splitBreak_append {text flushed remaining : Text} (h : splitBreak text = some (flushed, remaining)) (more : Text) :
    splitBreak (text ++ more) = some (flushed, remaining ++ more) := by
  induction text using splitBreak.induct generalizing flushed with
  | case1 rest =>
    rw [splitBreak] at h
    cases h
    simp only [cons_append, splitBreak]
  | case2 c rest hbreak ih =>
    rw [splitBreak.eq_2 _ _ hbreak] at h
    obtain ⟨⟨first, second⟩, hsplit, heq⟩ := Option.map_eq_some_iff.1 h
    cases heq
    have hbreak' : ∀ rest', c = '\n' → rest ++ more = '\n' :: rest' → False := by
      intro rest' hc hrest
      cases rest with
      | nil => simp [splitBreak] at hsplit
      | cons d rest =>
        cases hrest
        exact hbreak rest hc rfl
    rw [cons_append, splitBreak.eq_2 _ _ hbreak', ih hsplit]
    rfl
  | case3 => cases h

theorem accumulate_cut (acc : TextAccumulator) (text : Text) :
    ∃ cut, acc.buffer ++ text = cut ++ (acc.accumulate text false).2.buffer ∧ Unbroken (acc.accumulate text false).1.flatten cut := by
  unfold accumulate
  by_cases hcap : maxRawLines < acc.rawLines + 1
  · refine ⟨acc.buffer ++ text, ?_⟩
    simp [hcap, takeParagraph, splitBreak, Unbroken.refl]
  · simp only [hcap, if_false, takeParagraph]
    cases hsplit : splitBreak (acc.buffer ++ text) with
    | none => exact ⟨[], rfl, .nil⟩
    | some parts =>
      have hshown : ((if parts.1.isEmpty then [] else [parts.1]) : List Text).flatten = parts.1 := by
        cases hempty : parts.1 <;> simp
      refine ⟨parts.1 ++ ['\n', '\n'], ?_, ?_⟩
      · rw [splitBreak_eq hsplit]
        simp
      · simp only [hshown]
        have hbreak := (Unbroken.refl parts.1).append (Unbroken.newlines 1)
        rwa [append_nil] at hbreak

theorem accumulateAll_cut (acc : TextAccumulator) (deltas : List Text) :
    ∃ cut, acc.buffer ++ deltas.flatten = cut ++ (accumulateAll acc deltas).2.buffer ∧ Unbroken (accumulateAll acc deltas).1.flatten cut := by
  induction deltas generalizing acc with
  | nil => exact ⟨[], by simp [accumulateAll], .nil⟩
  | cons delta deltas ih =>
    obtain ⟨cut, hcut, hemitted⟩ := accumulate_cut acc delta
    obtain ⟨later, hlater, hemitted'⟩ := ih (acc.accumulate delta false).2
    refine ⟨cut ++ later, ?_, ?_⟩
    · rw [flatten_cons, ← append_assoc, hcut, append_assoc, hlater, accumulateAll, append_assoc]
    · rw [accumulateAll, flatten_append]
      exact hemitted.append hemitted'

theorem held_whole_iff (acc : TextAccumulator) (deltas : List Text) (hdeltas : ∀ delta ∈ deltas, delta ≠ [])
    (hnone : splitBreak acc.buffer = none) (hraw : acc.rawLines ≤ maxRawLines) :
    (accumulateAll acc deltas).2.buffer = acc.buffer ++ deltas.flatten ↔
      splitBreak (acc.buffer ++ deltas.flatten) = none ∧ acc.rawLines + deltas.length ≤ maxRawLines := by
  induction deltas generalizing acc with
  | nil => simp [accumulateAll, hnone, hraw]
  | cons delta deltas ih =>
    have hshorter : ∀ next : TextAccumulator, next.buffer.length < (acc.buffer ++ delta).length →
        (accumulateAll next deltas).2.buffer ≠ acc.buffer ++ (delta :: deltas).flatten := by
      intro next hnext heq
      obtain ⟨cut, hcut, -⟩ := accumulateAll_cut next deltas
      have hlength := congrArg List.length hcut
      rw [heq] at hlength
      simp only [length_append, flatten_cons] at hlength hnext
      omega
    have hdelta : 0 < delta.length := length_pos_iff.2 (hdeltas delta mem_cons_self)
    rw [accumulateAll]
    dsimp only
    by_cases hcap : maxRawLines < acc.rawLines + 1
    · have hnext : (acc.accumulate delta false).2.buffer = [] := by
        simp [accumulate, hcap, takeParagraph, splitBreak]
      refine iff_of_false (hshorter _ (by rw [hnext, length_append]; simp only [length_nil]; omega)) ?_
      rintro ⟨-, hfew⟩
      rw [length_cons] at hfew
      omega
    · cases hsplit : splitBreak (acc.buffer ++ delta) with
      | some parts =>
        have hnext : (acc.accumulate delta false).2.buffer = parts.2 := by
          simp [accumulate, hcap, takeParagraph, hsplit]
        have hlength := congrArg List.length (splitBreak_eq hsplit)
        simp only [length_append, length_cons] at hlength
        refine iff_of_false (hshorter _ (by rw [hnext, length_append]; omega)) ?_
        rintro ⟨hwhole, -⟩
        rw [flatten_cons, ← append_assoc, splitBreak_append hsplit] at hwhole
        cases hwhole
      | none =>
        have hnext : (acc.accumulate delta false).2 = { buffer := acc.buffer ++ delta, rawLines := acc.rawLines + 1 } := by
          simp [accumulate, hcap, takeParagraph, hsplit]
        have hlater := ih { buffer := acc.buffer ++ delta, rawLines := acc.rawLines + 1 }
          (fun later hmem => hdeltas later (mem_cons_of_mem _ hmem)) hsplit (by dsimp only; omega)
        rw [hnext, flatten_cons, ← append_assoc, hlater, length_cons]
        dsimp only
        rw [Nat.add_right_comm, Nat.add_assoc]

namespace StreamedBlock

theorem kept_sublist (block : StreamedBlock) : block.kept.flatten.Sublist block.content := filter_sublist.flatten

theorem kept_text (block : StreamedBlock) (h : isText block = true) : block.kept.flatten = block.content := by
  have htype : block.type = .text := by simpa [isText] using h
  rw [kept, content, htype]
  exact flatten_filter_not_isEmpty

theorem kept_text_nonempty (block : StreamedBlock) (h : isText block = true) : ∀ delta ∈ block.kept, delta ≠ [] := by
  have htype : block.type = .text := by simpa [isText] using h
  intro delta hdelta
  rw [kept, htype] at hdelta
  simpa using (mem_filter.1 hdelta).2

theorem shown_text (block : StreamedBlock) (h : isText block = true) : Unbroken block.shown.flatten block.content := by
  obtain ⟨cut, hcut, hemitted⟩ := accumulateAll_cut {} block.kept
  have htype : block.type = .text := by simpa [isText] using h
  have hflush : (block.rest.flush (block.type = .thinking)).flatten = block.rest.buffer := by
    rw [htype]
    cases hbuffer : block.rest.buffer with
    | nil => simp [flush, hbuffer]
    | cons c rest => simp [flush, hbuffer]
  rw [shown, flatten_append, hflush, ← kept_text block h]
  have hwhole : block.kept.flatten = cut ++ block.rest.buffer := hcut
  rw [hwhole]
  exact hemitted.append (Unbroken.refl _)

/-- The thinking that reaches the accumulator, without a blank end that is still held when the block stops. -/
def handed (block : StreamedBlock) : Text :=
  if block.rest.buffer.all isSpace then block.kept.flatten.take (block.kept.flatten.length - block.rest.buffer.length) else block.kept.flatten

theorem handed_sublist (block : StreamedBlock) : block.handed.Sublist block.content := by
  rw [handed]
  by_cases hblank : block.rest.buffer.all isSpace = true
  · rw [if_pos hblank]
    exact (take_sublist _ _).trans block.kept_sublist
  · rw [if_neg hblank]
    exact block.kept_sublist

theorem shown_thinking (block : StreamedBlock) (h : block.type = .thinking) : Unbroken block.shown.flatten block.handed := by
  obtain ⟨cut, hcut, hemitted⟩ := accumulateAll_cut {} block.kept
  have hwhole : block.kept.flatten = cut ++ block.rest.buffer := hcut
  rw [shown, flatten_append, handed, h, hwhole]
  by_cases hblank : block.rest.buffer.all isSpace = true
  · rw [if_pos hblank, length_append, Nat.add_sub_cancel, take_left' rfl]
    simpa [flush, hblank] using hemitted
  · rw [if_neg hblank]
    have hflush : block.rest.flush true = [block.rest.buffer] := by simp [flush, hblank]
    simp only [decide_true, hflush, flatten_singleton]
    exact hemitted.append (Unbroken.refl _)

theorem thinking_iff (block : StreamedBlock) (h : block.type = .thinking) : Unbroken block.shown.flatten block.content ↔ Unbroken block.handed block.content :=
  ⟨fun hshown => (block.shown_thinking h).between hshown block.handed_sublist, (block.shown_thinking h).trans⟩

end StreamedBlock

/-! ## Lines of text -/

def isTextLine (line : Line) : Bool := line.type = .text

def isThinkingLine (line : Line) : Bool := line.type = .thinking

def textOf (lines : List Line) : Text := (lines.filter isTextLine).flatMap Line.content

def thinkingOf (key : BlockKey) (lines : List Line) : List Line := lines.filter fun line => isThinkingLine line && line.block = some key

def shownText (blocks : List StreamedBlock) : Text := (blocks.filter isText).flatMap fun block => block.shown.flatten

theorem textOf_append (first second : List Line) : textOf (first ++ second) = textOf first ++ textOf second := by
  rw [textOf, filter_append, flatMap_append, ← textOf, ← textOf]

theorem thinkingOf_append (key : BlockKey) (first second : List Line) : thinkingOf key (first ++ second) = thinkingOf key first ++ thinkingOf key second :=
  filter_append ..

theorem textOf_texts (key : Option BlockKey) (contents : List Text) : textOf (contents.map (textLine key)) = contents.flatten := by
  induction contents with
  | nil => rfl
  | cons content contents ih =>
    rw [map_cons, flatten_cons, ← ih]
    rfl

theorem textOf_thoughts (key : Option BlockKey) (contents : List Text) : textOf (contents.map (thinkingLine key)) = [] := by
  induction contents with
  | nil => rfl
  | cons content contents ih => exact ih

theorem textOf_block (block : StreamedBlock) (key : BlockKey) : textOf (block.lines key) = if isText block then block.shown.flatten else [] := by
  rw [StreamedBlock.lines, isText]
  cases block.type with
  | text => exact textOf_texts _ _
  | thinking => exact textOf_thoughts _ _
  | toolUse name => rfl

theorem textOf_blocks (id : Text) (index : Nat) (blocks : List StreamedBlock) : textOf (blockLines id index blocks) = shownText blocks := by
  induction blocks generalizing index with
  | nil => rfl
  | cons block blocks ih =>
    rw [blockLines, textOf_append, textOf_block, ih, shownText, shownText, filter_cons]
    by_cases htext : isText block = true
    · rw [if_pos htext, if_pos htext, flatMap_cons]
    · rw [if_neg htext, if_neg htext, nil_append]

theorem shownText_unbroken (blocks : List StreamedBlock) : Unbroken (shownText blocks) (blocksText blocks) := by
  induction blocks with
  | nil => exact .nil
  | cons block blocks ih =>
    rw [shownText, blocksText, filter_cons]
    by_cases htext : isText block = true
    · rw [if_pos htext, flatMap_cons, flatMap_cons]
      exact (block.shown_text htext).append ih
    · rw [if_neg htext]
      exact ih

/-! ## Lines of thinking -/

theorem block_of_mem (block : StreamedBlock) (key : BlockKey) : ∀ line ∈ block.lines key, line.block = some key := by
  intro line hline
  rw [StreamedBlock.lines] at hline
  cases htype : block.type with
  | text =>
    rw [htype] at hline
    obtain ⟨content, -, rfl⟩ := mem_map.1 hline
    rfl
  | thinking =>
    rw [htype] at hline
    obtain ⟨content, -, rfl⟩ := mem_map.1 hline
    rfl
  | toolUse name =>
    rw [htype] at hline
    cases mem_singleton.1 hline
    rfl

theorem thinkingOf_own (block : StreamedBlock) (key : BlockKey) : thinkingOf key (block.lines key) = (block.lines key).filter isThinkingLine := by
  refine filter_congr fun line hline => ?_
  rw [block_of_mem block key line hline]
  simp

theorem thinkingOf_other (block : StreamedBlock) {key other : BlockKey} (h : key ≠ other) : thinkingOf other (block.lines key) = [] := by
  refine filter_eq_nil_iff.2 fun line hline => ?_
  rw [block_of_mem block key line hline]
  simp [h]

theorem thinkingOf_earlier (id : Text) {position index : Nat} (h : position < index) (blocks : List StreamedBlock) :
    thinkingOf (id, (position : Int)) (blockLines id index blocks) = [] := by
  induction blocks generalizing index with
  | nil => rfl
  | cons block blocks ih =>
    have hother : ((id, (index : Int)) : BlockKey) ≠ (id, (position : Int)) := by
      intro heq
      have hindex := congrArg Prod.snd heq
      dsimp only at hindex
      omega
    rw [blockLines, thinkingOf_append, thinkingOf_other block hother, ih (Nat.lt_succ_of_lt h), append_nil]

theorem thinkingOf_block (id : Text) (index : Nat) (blocks : List StreamedBlock) {position : Nat} {block : StreamedBlock}
    (h : blocks[position]? = some block) :
    thinkingOf (id, ((index + position : Nat) : Int)) (blockLines id index blocks) =
      (block.lines (id, ((index + position : Nat) : Int))).filter isThinkingLine := by
  induction blocks generalizing index position with
  | nil => simp at h
  | cons first blocks ih =>
    rw [blockLines, thinkingOf_append]
    cases position with
    | zero =>
      cases h
      rw [Nat.add_zero, thinkingOf_own, thinkingOf_earlier id (Nat.lt_succ_self index), append_nil]
    | succ position =>
      have hother : ((id, (index : Int)) : BlockKey) ≠ (id, ((index + (position + 1) : Nat) : Int)) := by
        intro heq
        have hindex := congrArg Prod.snd heq
        dsimp only at hindex
        omega
      have hlater := ih (index + 1) h
      rw [Nat.add_assoc, Nat.add_comm 1] at hlater
      rw [thinkingOf_other first hother, nil_append, hlater]

theorem thinking_in_order (id : Text) (index : Nat) (blocks : List StreamedBlock) : (blockLines id index blocks).filter isThinkingLine =
      (List.range' index blocks.length).flatMap fun position : Nat => thinkingOf (id, (position : Int)) (blockLines id index blocks) := by
  induction blocks generalizing index with
  | nil => rfl
  | cons block blocks ih =>
    have hlater : ∀ position ∈ List.range' (index + 1) blocks.length,
        thinkingOf (id, (position : Int)) (blockLines id index (block :: blocks)) = thinkingOf (id, (position : Int)) (blockLines id (index + 1) blocks) := by
      intro position hposition
      have hpast := (mem_range'_1.1 hposition).1
      have hother : ((id, (index : Int)) : BlockKey) ≠ (id, (position : Int)) := by
        intro heq
        have hindex := congrArg Prod.snd heq
        dsimp only at hindex
        omega
      rw [blockLines, thinkingOf_append, thinkingOf_other block hother, nil_append]
    have hnow : thinkingOf (id, (index : Int)) (blockLines id index (block :: blocks)) = (block.lines (id, index)).filter isThinkingLine := by
      have hown := @thinkingOf_block id index (block :: blocks) 0 block rfl
      rwa [Nat.add_zero] at hown
    rw [length_cons, List.range'_succ, flatMap_cons, hnow, blockLines, filter_append, ih, ← blockLines]
    congr 1
    exact (flatMap_congr hlater).symm

theorem contents_thinking (block : StreamedBlock) (h : block.type = .thinking) (key : BlockKey) :
    ((block.lines key).filter isThinkingLine).map Line.content = block.shown := by
  rw [StreamedBlock.lines, h]
  dsimp only
  rw [filter_eq_self.2 fun line hline => by
    obtain ⟨content, -, rfl⟩ := mem_map.1 hline
    rfl]
  rw [map_map]
  exact map_id _

/-! ## Whole streams -/

def Stream.shown (stream : Stream) : Text := stream.messages.flatMap fun message => shownText message.blocks

/-- Nothing, when a flush of the last message has had it whole. -/
def Stream.repeated (stream : Stream) : Text :=
  if stream.hasResult = true ∧ ¬ ∃ block ∈ stream.lastBlocks, stream.lastText ∈ block.emitted then stream.lastText else []

theorem idle_new : Idle new := ⟨rfl, rfl, rfl, rfl⟩

theorem shown_unbroken (stream : Stream) : Unbroken stream.shown stream.text := by
  rw [Stream.shown, Stream.text]
  generalize stream.messages = messages
  induction messages with
  | nil => exact .nil
  | cons message messages ih =>
    rw [flatMap_cons, flatMap_cons]
    exact (shownText_unbroken message.blocks).append ih

theorem textOf_messages (messages : List Message) :
    textOf (messages.flatMap fun message => blockLines message.id 0 message.blocks) = messages.flatMap fun message => shownText message.blocks := by
  induction messages with
  | nil => rfl
  | cons message messages ih => rw [flatMap_cons, textOf_append, textOf_blocks, ih, flatMap_cons]

theorem parse_lines (stream : Stream) :
    ∃ result, parse stream.events = (new.parseFrom (stream.messages.flatMap Message.events)).1 ++ result ∧
      textOf result = stream.repeated ∧ result.filter isThinkingLine = [] := by
  obtain ⟨-, hidle, hemitted⟩ := messages_run idle_new stream.messages
  rw [parse, Stream.events, parseFrom_append]
  generalize new.parseFrom (stream.messages.flatMap Message.events) = run at hidle hemitted ⊢
  cases hresult : stream.hasResult with
  | false =>
    refine ⟨[], ?_, ?_, rfl⟩
    · simp [parseFrom, flushAccumulators_idle hidle]
    · simp [Stream.repeated, hresult, textOf]
  | true =>
    refine ⟨run.2.parseResultEvent stream.lastText, ?_, ?_, ?_⟩
    · simp [parseFrom, dispatch, flushAccumulators_idle hidle]
    · rw [Stream.repeated, hresult, parseResultEvent]
      by_cases hempty : stream.lastText = []
      · simp [hempty, textOf]
      · have hremembered : run.2.emittedText.contains stream.lastText = true ↔ ∃ block ∈ stream.lastBlocks, stream.lastText ∈ block.emitted := by
          cases hlast : stream.messages.getLast? with
          | none => exact absurd (show stream.lastText = [] by rw [Stream.lastText, Stream.lastBlocks, hlast]; rfl) hempty
          | some last =>
            have hblocks : stream.lastBlocks = last.blocks := by rw [Stream.lastBlocks, hlast]; rfl
            rw [contains_iff_mem, hemitted last hlast, hblocks]
        have hnonempty : stream.lastText.isEmpty = false := by simpa using hempty
        by_cases hmem : ∃ block ∈ stream.lastBlocks, stream.lastText ∈ block.emitted
        · rw [hremembered.2 hmem, Bool.or_true, if_pos rfl, if_neg (fun h => h.2 hmem)]
          rfl
        · rw [Bool.eq_false_iff.2 (fun h => hmem (hremembered.1 h)), hnonempty, Bool.or_false, if_neg Bool.false_ne_true, if_pos ⟨rfl, hmem⟩]
          exact textOf_texts none [stream.lastText] |>.trans (flatten_singleton)
    · rw [parseResultEvent]
      by_cases h : (stream.lastText.isEmpty || run.2.emittedText.contains stream.lastText) = true
      · rw [if_pos h]
        rfl
      · rw [if_neg h]
        rfl

/-! ## The result -/

structure WholeBlock (content : Text) (block : StreamedBlock) : Prop where
  text : isText block = true
  whole : block.content = content
  unbroken : splitBreak content = none
  few : ((deltasOf block.steps).filter fun delta => !delta.isEmpty).length ≤ maxRawLines

theorem emitted_iff (block : StreamedBlock) {content : Text} (hcontent : content ≠ []) (hlength : isText block = true → block.content.length ≤ content.length) :
    content ∈ block.emitted ↔ WholeBlock content block := by
  by_cases htext : isText block = true
  · have htype : block.type = .text := by simpa [isText] using htext
    have hkept : block.kept = (deltasOf block.steps).filter fun delta => !delta.isEmpty := by rw [StreamedBlock.kept, htype]
    have hwhole := held_whole_iff {} block.kept (block.kept_text_nonempty htext) rfl (Nat.zero_le _)
    have hempty : ({} : TextAccumulator).buffer ++ block.kept.flatten = block.content := block.kept_text htext
    rw [hempty] at hwhole
    have hflush : content ∈ block.emitted ↔ block.rest.buffer = content := by
      rw [StreamedBlock.emitted, if_pos htext, flush]
      by_cases hbuffer : block.rest.buffer = []
      · simp [hbuffer, hcontent.symm]
      · have hnonempty : block.rest.buffer.isEmpty = false := by simpa using hbuffer
        simp only [hnonempty, Bool.false_eq_true, if_false, mem_singleton]
        exact eq_comm
    rw [hflush]
    constructor
    · intro hrest
      obtain ⟨cut, hcut, -⟩ := accumulateAll_cut {} block.kept
      rw [hempty] at hcut
      have hcut' : block.content = cut ++ content := by rw [hcut, ← hrest, StreamedBlock.rest]
      have hnothing : cut = [] := by
        have hle := hlength htext
        rw [hcut', length_append] at hle
        exact eq_nil_of_length_eq_zero (by omega)
      rw [hnothing, nil_append] at hcut'
      obtain ⟨hunbroken, hfew⟩ := hwhole.1 (hrest.trans hcut'.symm)
      exact ⟨htext, hcut', hcut' ▸ hunbroken, by rw [← hkept]; simpa using hfew⟩
    · rintro ⟨-, hsame, hunbroken, hfew⟩
      rw [← hkept] at hfew
      exact (hwhole.2 ⟨hsame ▸ hunbroken, by simpa using hfew⟩).trans hsame
  · refine iff_of_false ?_ fun h => htext h.text
    rw [StreamedBlock.emitted, if_neg htext]
    exact not_mem_nil

theorem content_length_le {blocks : List StreamedBlock} {block : StreamedBlock} (hmem : block ∈ blocks) (htext : isText block = true) :
    block.content.length ≤ (blocksText blocks).length := by
  have hsub : block.content.Sublist (blocksText blocks) :=
    sublist_flatten_of_mem (mem_map.2 ⟨block, mem_filter.2 ⟨hmem, htext⟩, rfl⟩)
  exact hsub.length_le

/-- Nothing in it, or shown as one block; else it stands for removed breaks. -/
def Stream.ResultFine (stream : Stream) : Prop :=
  stream.hasResult = false ∨ stream.lastText = [] ∨ (∃ block ∈ stream.lastBlocks, WholeBlock stream.lastText block) ∨
    ((∀ c ∈ stream.lastText, c = '\n') ∧ stream.lastText.length % 2 = 0 ∧ trailing stream.shown + stream.lastText.length ≤ trailing stream.text)

theorem resultFine_iff (stream : Stream) : Unbroken (stream.shown ++ stream.repeated) stream.text ↔ stream.ResultFine := by
  have hnothing : stream.repeated = [] → Unbroken (stream.shown ++ stream.repeated) stream.text := by
    intro h
    rw [h, append_nil]
    exact shown_unbroken stream
  by_cases hempty : stream.lastText = []
  · refine iff_of_true (hnothing ?_) (.inr (.inl hempty))
    rw [Stream.repeated, hempty, ite_self]
  · have hheld : (∃ block ∈ stream.lastBlocks, stream.lastText ∈ block.emitted) ↔ ∃ block ∈ stream.lastBlocks, WholeBlock stream.lastText block := by
      refine exists_congr fun block => and_congr_right fun hmem => ?_
      exact emitted_iff block hempty fun htext => content_length_le hmem htext
    by_cases hshow : stream.hasResult = true ∧ ¬ ∃ block ∈ stream.lastBlocks, stream.lastText ∈ block.emitted
    · have hrepeated : stream.repeated = stream.lastText := if_pos hshow
      rw [hrepeated, (shown_unbroken stream).append_iff, Stream.ResultFine, ← hheld]
      refine ⟨fun h => .inr (.inr (.inr h)), ?_⟩
      rintro (hnone | hnone | hwhole | hbreaks)
      · rw [hshow.1] at hnone
        cases hnone
      · exact absurd hnone hempty
      · exact absurd hwhole hshow.2
      · exact hbreaks
    · refine iff_of_true (hnothing (if_neg hshow)) ?_
      rw [Stream.ResultFine, ← hheld]
      cases hresult : stream.hasResult with
      | false => exact .inl rfl
      | true => exact .inr (.inr (.inl (by by_contra hnone; exact hshow ⟨hresult, hnone⟩)))

/-! ## Each block once -/

def linesOf (before : List Message) (message : Message) : List Line :=
  ((new.parseFrom (before.flatMap Message.events)).2.parseFrom message.events).1

/-- Each block is shown as it came, but for paragraph breaks of thinking. -/
structure ShownOnce (stream : Stream) : Prop where
  text : Unbroken (textOf (parse stream.events)) stream.text
  thinking : ∀ before message after, stream.messages = before ++ message :: after → ∀ (index : Nat) (block : StreamedBlock),
    message.blocks[index]? = some block → block.type = .thinking → ¬ block.content.all isSpace = true →
      Unbroken ((thinkingOf (message.id, index) (linesOf before message)).flatMap Line.content) block.content
  inOrder : ∀ before message after, stream.messages = before ++ message :: after → (linesOf before message).filter isThinkingLine =
    (List.range message.blocks.length).flatMap fun index : Nat => thinkingOf (message.id, index) (linesOf before message)
  nothingElse : (parse stream.events).filter isThinkingLine =
    (new.parseFrom (stream.messages.flatMap Message.events)).1.filter isThinkingLine

theorem linesOf_eq (before : List Message) (message : Message) : linesOf before message = blockLines message.id 0 message.blocks :=
  (message_run (messages_run idle_new before).2.1 message).1

/-- A stream shows its blocks once exactly when its thinking loses only breaks and its result repeats nothing. -/
theorem shownOnce_iff_fine (stream : Stream) : ShownOnce stream ↔
      (∀ message ∈ stream.messages, ∀ block ∈ message.blocks, block.type = .thinking → ¬ block.content.all isSpace = true →
        Unbroken block.handed block.content) ∧ stream.ResultFine := by
  have hthinking : ∀ before message (index : Nat) block, message.blocks[index]? = some block → block.type = .thinking →
      (Unbroken ((thinkingOf (message.id, index) (linesOf before message)).flatMap Line.content) block.content ↔ Unbroken block.handed block.content) := by
    intro before message index block hindex htype
    have hown := thinkingOf_block message.id 0 message.blocks hindex
    rw [Nat.zero_add] at hown
    rw [linesOf_eq, hown, flatMap_def, contents_thinking block htype, block.thinking_iff htype]
  obtain ⟨result, hparse, hresult, hsilent⟩ := parse_lines stream
  have htext : textOf (parse stream.events) = stream.shown ++ stream.repeated := by
    rw [hparse, textOf_append, hresult, (messages_run idle_new stream.messages).1, textOf_messages, Stream.shown]
  constructor
  · intro h
    refine ⟨fun message hmessage block hmem htype hblank => ?_, (resultFine_iff stream).1 (htext ▸ h.text)⟩
    obtain ⟨before, after, hstream⟩ := append_of_mem hmessage
    obtain ⟨index, hindex⟩ := mem_iff_getElem?.1 hmem
    exact (hthinking before message index block hindex htype).1 (h.thinking before message after hstream index block hindex htype hblank)
  · rintro ⟨hblocks, hfine⟩
    refine ⟨htext ▸ (resultFine_iff stream).2 hfine, fun before message after hstream index block hindex htype hblank => ?_, ?_, ?_⟩
    · refine (hthinking before message index block hindex htype).2 (hblocks message ?_ block (mem_of_getElem? hindex) htype hblank)
      rw [hstream]
      exact mem_append_right _ mem_cons_self
    · intro before message after _
      rw [linesOf_eq, range_eq_range']
      exact thinking_in_order message.id 0 message.blocks
    · rw [hparse, filter_append, hsilent, append_nil]

def twoParagraphs : StreamedBlock where
  type := .text
  startWrapped := true
  steps := [.delta true "One.\n\n".toList, .delta true "Two.".toList]
  stopWrapped := true
  frames := []

def answer : Stream where
  messages :=
    [{ id := "msg".toList
       id_ne := by decide
       startWrapped := true
       blocks := [twoParagraphs]
       stopWrapped := true
       frames := [[twoParagraphs.final]]
       repeats := by
         intro index block hblock frame hframe
         obtain rfl : twoParagraphs = block := mem_singleton.1 (mem_of_getElem? hblock) |>.symm
         exact absurd hframe not_mem_nil
       repeatsAll := by
         intro frame hframe
         rw [mem_singleton.1 hframe]
         exact List.Sublist.refl _ }]
  hasResult := true

/-- Two paragraphs, then the result: no flush has had both. -/
theorem answer_shown_twice : ¬ ShownOnce answer := by
  intro h
  exact absurd h.text.length_le (by decide)

end RalphWorkflow.Parsers.Claude
