import RalphWorkflow.Agents.Parsers.Claude
import RalphWorkflow.Proof.Parsers.Unbroken

/-! What a well-formed stream shows of its blocks. Between blocks nothing is held, so a block is shown by its own events; the frames that repeat
blocks show nothing, and the result shows the last text once more unless one flush has had it whole. -/
namespace RalphWorkflow.Parsers.Claude
open List ClaudeParser
open Lib (Dict)
open Lib.Json (Text)
open Lib.Text (isSpace)

/-! ## Streams -/

inductive Step
  | delta (wrapped : Bool) (content : Text)
  | frame (content : List ContentBlock)

structure StreamedBlock where
  type : BlockType
  startWrapped : Bool
  steps : List Step
  stopWrapped : Bool
  frames : List (List ContentBlock)

def BlockType.delta : BlockType → Text → Delta
  | .text, delta => .text delta
  | .thinking, delta => .thinking delta
  | .toolUse _, _ => .inputJson

def Step.event (id : Text) (index : Int) (type : BlockType) : Step → Event
  | .delta wrapped content => .streamed wrapped (.contentBlockDelta index (type.delta content))
  | .frame content => .assistant id content

def deltasOf : List Step → List Text
  | [] => []
  | .delta _ content :: steps => content :: deltasOf steps
  | .frame _ :: steps => deltasOf steps

def framesOf : List Step → List (List ContentBlock)
  | [] => []
  | .delta _ _ :: steps => framesOf steps
  | .frame content :: steps => content :: framesOf steps

namespace StreamedBlock

def content (block : StreamedBlock) : Text := (deltasOf block.steps).flatten

def final (block : StreamedBlock) : ContentBlock := { type := block.type, text := block.content }

def events (block : StreamedBlock) (id : Text) (index : Int) : List Event :=
  .streamed block.startWrapped (.contentBlockStart index { type := block.type, text := [] }) ::
    (block.steps.map (Step.event id index block.type) ++ [.streamed block.stopWrapped (.contentBlockStop index)])

end StreamedBlock

def blockEvents (id : Text) (index : Nat) : List StreamedBlock → List Event
  | [] => []
  | block :: blocks => block.events id index ++ block.frames.map (.assistant id) ++ blockEvents id (index + 1) blocks

structure Message where
  id : Text
  id_ne : id ≠ []
  startWrapped : Bool
  blocks : List StreamedBlock
  stopWrapped : Bool
  frames : List (List ContentBlock)
  repeats : ∀ (index : Nat) (block : StreamedBlock), blocks[index]? = some block → ∀ frame ∈ framesOf block.steps ++ block.frames,
    frame.Sublist ((blocks.take (index + 1)).map StreamedBlock.final)
  repeatsAll : ∀ frame ∈ frames, frame.Sublist (blocks.map StreamedBlock.final)

def Message.events (message : Message) : List Event :=
  .streamed message.startWrapped (.messageStart message.id) ::
    (blockEvents message.id 0 message.blocks ++
      .streamed message.stopWrapped .messageStop :: message.frames.map (.assistant message.id))

def isText (block : StreamedBlock) : Bool := block.type = .text

def blocksText (blocks : List StreamedBlock) : Text := (blocks.filter isText).flatMap StreamedBlock.content

structure Stream where
  messages : List Message
  hasResult : Bool

def Stream.lastBlocks (stream : Stream) : List StreamedBlock := (stream.messages.getLast?.map Message.blocks).getD []

def Stream.lastText (stream : Stream) : Text := blocksText stream.lastBlocks

def Stream.events (stream : Stream) : List Event :=
  stream.messages.flatMap Message.events ++ (if stream.hasResult then [.result stream.lastText] else [])

def Stream.text (stream : Stream) : Text := stream.messages.flatMap fun message => blocksText message.blocks

/-! ## What a block shows -/

def accumulateAll (acc : TextAccumulator) : List Text → List Text × TextAccumulator
  | [] => ([], acc)
  | delta :: deltas =>
    let first := acc.accumulate delta false
    let rest := accumulateAll first.2 deltas
    (first.1 ++ rest.1, rest.2)

namespace StreamedBlock

def kept (block : StreamedBlock) : List Text :=
  (deltasOf block.steps).filter fun delta =>
    match block.type with
    | .text => !delta.isEmpty
    | .thinking => !isDropped delta
    | .toolUse _ => false

def rest (block : StreamedBlock) : TextAccumulator := (accumulateAll {} block.kept).2

def shown (block : StreamedBlock) : List Text := (accumulateAll {} block.kept).1 ++ block.rest.flush (block.type = .thinking)

def lines (block : StreamedBlock) (key : BlockKey) : List Line :=
  match block.type with
  | .text => block.shown.map (textLine (some key))
  | .thinking => block.shown.map (thinkingLine (some key))
  | .toolUse name => [{ type := .toolUse, content := name, block := some key }]

def emitted (block : StreamedBlock) : List Text := if isText block then block.rest.flush false else []

end StreamedBlock

/-! ## One block of the parser -/

structure Idle (parser : ClaudeParser) : Prop where
  text : parser.textAccumulator = ∅
  thinking : parser.thinkingAccumulator = ∅
  fallback : parser.fallbackAccumulator = none
  fallbackThinking : parser.fallbackThinkingAccumulator = none

structure After (parser next : ClaudeParser) (key : BlockKey) (block : StreamedBlock) : Prop where
  idle : Idle next
  current : next.currentMessageId = parser.currentMessageId
  seen : next.seenContentBlocks = key :: parser.seenContentBlocks
  emitted : next.emittedText = block.emitted ++ parser.emittedText

def only (key : BlockKey) (acc : TextAccumulator) : Dict BlockKey TextAccumulator := (∅ : Dict BlockKey TextAccumulator).set key acc

variable {parser : ClaudeParser} {key : BlockKey} {id : Text} {index : Int}

theorem set_only (key : BlockKey) (acc next : TextAccumulator) : (only key acc).set key next = only key next := by
  have hentries : ((only key acc).set key next).entries = (only key next).entries := by
    show Dict.assign key next [(key, acc)] = [(key, next)]
    rw [Dict.assign, if_pos rfl]
  cases h : (only key acc).set key next
  cases h' : only key next
  rw [h, h'] at hentries
  cases hentries
  rfl

theorem erase_only (key : BlockKey) (acc : TextAccumulator) : (only key acc).erase key = ∅ := by
  have hentries : ((only key acc).erase key).entries = [] := by
    show List.filter (fun entry => entry.1 ≠ key) [(key, acc)] = []
    simp
  cases h : (only key acc).erase key
  rw [h] at hentries
  cases hentries
  rfl

theorem get?_only (key : BlockKey) (acc : TextAccumulator) : (only key acc).get? key = some acc := by simp [only]

theorem parseFrom_append (parser : ClaudeParser) (first second : List Event) : parser.parseFrom (first ++ second) =
      ((parser.parseFrom first).1 ++ ((parser.parseFrom first).2.parseFrom second).1, ((parser.parseFrom first).2.parseFrom second).2) := by
  induction first generalizing parser with
  | nil => rfl
  | cons event first ih => simp [parseFrom, ih]

theorem frame_silent (parser : ClaudeParser) (hid : id ≠ []) (index : Nat) (frame : List ContentBlock)
    (hseen : ∀ position < index + frame.length, (id, (position : Int)) ∈ parser.seenContentBlocks) : parser.parseMessageContent id index frame = [] := by
  induction frame generalizing index with
  | nil => rfl
  | cons block frame ih =>
    simp only [length_cons] at hseen
    have hhere : parser.seenContentBlocks.contains (id, (index : Int)) = true := by
      rw [contains_iff_mem]
      exact hseen index (by omega)
    have hnonempty : (!id.isEmpty) = true := by simpa using hid
    rw [parseMessageContent, hnonempty, hhere, Bool.and_self, if_pos rfl]
    exact ih (index + 1) fun position hposition => hseen position (by omega)

theorem assistant_silent (parser : ClaudeParser) (hid : id ≠ []) {frame : List ContentBlock}
    (hseen : ∀ position < frame.length, (id, (position : Int)) ∈ parser.seenContentBlocks) : parser.dispatch (.assistant id frame) = ([], parser) := by
  rw [dispatch]
  exact congrArg (·, parser) (frame_silent parser hid 0 frame fun position hposition => hseen position (by omega))

theorem frames_silent (parser : ClaudeParser) (hid : id ≠ []) (frames : List (List ContentBlock))
    (hseen : ∀ frame ∈ frames, ∀ position < frame.length, (id, (position : Int)) ∈ parser.seenContentBlocks) :
    parser.parseFrom (frames.map (.assistant id)) = ([], parser) := by
  induction frames with
  | nil => rfl
  | cons frame frames ih =>
    rw [map_cons, parseFrom, assistant_silent parser hid (hseen frame mem_cons_self)]
    dsimp only
    rw [ih fun later hlater => hseen later (mem_cons_of_mem _ hlater)]
    rfl

/-! Each block is read and held in one way, with its type for a parameter. -/

def keeps : BlockType → Text → Bool
  | .text, delta => !delta.isEmpty
  | .thinking, delta => !isDropped delta
  | .toolUse _, _ => false

def holding (parser : ClaudeParser) (key : BlockKey) : BlockType → TextAccumulator → ClaudeParser
  | .text, acc => { parser with textAccumulator := only key acc }
  | .thinking, acc => { parser with thinkingAccumulator := only key acc }
  | .toolUse _, _ => parser

def lineOf (key : BlockKey) : BlockType → Text → Line
  | .thinking => thinkingLine (some key)
  | _ => textLine (some key)

theorem delta_held (hcurrent : parser.currentMessageId = some id) (type : BlockType) (acc : TextAccumulator) (delta : Text) :
    (holding parser (id, index) type acc).parseContentBlockDelta index (type.delta delta) =
      if keeps type delta then
        ((acc.accumulate delta false).1.map (lineOf (id, index) type), holding parser (id, index) type (acc.accumulate delta false).2)
      else ([], holding parser (id, index) type acc) := by
  cases type with
  | toolUse name => rfl
  | text =>
    cases hempty : delta.isEmpty <;>
      simp [BlockType.delta, parseContentBlockDelta, accumulateTextDelta, holding, keeps, lineOf, hempty,
        hcurrent, get?_only, set_only]
  | thinking =>
    cases hdropped : isDropped delta <;>
      simp [BlockType.delta, parseContentBlockDelta, accumulateThinkingDelta, holding, keeps, lineOf, hdropped,
        hcurrent, get?_only, set_only]

theorem steps_run (hid : id ≠ []) (hcurrent : parser.currentMessageId = some id) (type : BlockType) (acc : TextAccumulator) (steps : List Step)
    (hseen : ∀ frame ∈ framesOf steps, ∀ position < frame.length, (id, (position : Int)) ∈ parser.seenContentBlocks) :
    (holding parser (id, index) type acc).parseFrom (steps.map (Step.event id index type)) =
      ((accumulateAll acc ((deltasOf steps).filter (keeps type))).1.map (lineOf (id, index) type),
        holding parser (id, index) type (accumulateAll acc ((deltasOf steps).filter (keeps type))).2) := by
  have hheld : ∀ acc, (holding parser (id, index) type acc).seenContentBlocks = parser.seenContentBlocks := by
    cases type <;> exact fun _ => rfl
  induction steps generalizing acc with
  | nil => rfl
  | cons step steps ih =>
    rw [map_cons, parseFrom]
    cases step with
    | frame content =>
      rw [Step.event, assistant_silent _ hid (by rw [hheld]; exact hseen content mem_cons_self)]
      dsimp only
      rw [ih acc fun frame hframe => hseen frame (mem_cons_of_mem _ hframe)]
      rfl
    | delta wrapped content =>
      rw [Step.event, dispatch, parseStreamed, delta_held hcurrent, deltasOf, filter_cons]
      split
      · dsimp only
        rw [ih _ hseen, accumulateAll, map_append]
      · dsimp only
        rw [ih acc hseen]
        rfl

theorem flushAccumulators_idle (h : Idle parser) : parser.flushAccumulators = ([], parser) := by
  have hkeys : (∅ : Dict BlockKey TextAccumulator).keys = [] := rfl
  simp only [flushAccumulators, h.text, hkeys, flushKeys, h.thinking, flushFallbackAccumulator, h.fallback,
    flushFallbackThinkingAccumulator, h.fallbackThinking, append_nil]

def openingLines (key : BlockKey) : BlockType → List Line
  | .toolUse name => [{ type := .toolUse, content := name, block := some key }]
  | _ => []

theorem start_block (h : Idle parser) (hcurrent : parser.currentMessageId = some id) (wrapped : Bool) (index : Int) (type : BlockType) :
    ∃ started, parser.parseContentBlockStart wrapped index { type, text := [] } =
        (openingLines (id, index) type, holding started (id, index) type {}) ∧
      Idle started ∧ started.currentMessageId = some id ∧ started.seenContentBlocks = (id, index) :: parser.seenContentBlocks ∧
      started.emittedText = parser.emittedText := by
  refine ⟨{ parser with
    seenContentBlocks := (id, index) :: parser.seenContentBlocks
    streamedBlockFingerprints :=
      if wrapped then { type, text := [] } :: parser.streamedBlockFingerprints else parser.streamedBlockFingerprints }, ?_,
    ⟨h.text, h.thinking, h.fallback, h.fallbackThinking⟩, hcurrent, rfl, rfl⟩
  have habsent : (∅ : Dict BlockKey TextAccumulator).contains (id, index) = false := rfl
  cases type <;> cases wrapped <;>
    simp [parseContentBlockStart, trackContentBlockStart, parseContentBlock, openingLines, holding, only,
      hcurrent, h.text, h.thinking, habsent]

def closingLines (key : BlockKey) (acc : TextAccumulator) : BlockType → List Line
  | .text => (acc.flush false).map (textLine (some key))
  | .thinking => (acc.flush true).map (thinkingLine (some key))
  | .toolUse _ => []

theorem stop_block (h : Idle parser) (hcurrent : parser.currentMessageId = some id) (type : BlockType) (acc : TextAccumulator) :
    (holding parser (id, index) type acc).flushContentBlock index = (closingLines (id, index) acc type,
      { parser with emittedText := (if type = .text then acc.flush false else []) ++ parser.emittedText }) := by
  obtain ⟨text, thinking, _, _, _, _, _, _⟩ := parser
  obtain ⟨htext, hthinking, -, -⟩ := h
  dsimp only at htext hthinking hcurrent
  subst htext hthinking hcurrent
  cases type <;>
    simp [holding, closingLines, flushContentBlock, flushTextAccumulator, flushThinkingAccumulator,
      get?_only, erase_only]

theorem kept_eq (block : StreamedBlock) : block.kept = (deltasOf block.steps).filter (keeps block.type) := by
  obtain ⟨type, _, steps, _, _⟩ := block
  cases type <;> rfl

theorem block_run (h : Idle parser) (hid : id ≠ []) (hcurrent : parser.currentMessageId = some id) (block : StreamedBlock) (index : Int)
    (hseen : ∀ frame ∈ framesOf block.steps, ∀ position < frame.length, (id, (position : Int)) ∈ (id, index) :: parser.seenContentBlocks) :
    (parser.parseFrom (block.events id index)).1 = block.lines (id, index) ∧
      After parser (parser.parseFrom (block.events id index)).2 (id, index) block := by
  obtain ⟨type, startWrapped, steps, stopWrapped, frames⟩ := block
  obtain ⟨started, hstart, hidle, hstarted, hseen', hemitted⟩ := start_block h hcurrent startWrapped index type
  dsimp only at hseen
  rw [← hseen'] at hseen
  rw [StreamedBlock.events, parseFrom, parseFrom_append, dispatch, parseStreamed, hstart]
  dsimp only
  rw [steps_run hid hstarted type {} steps hseen]
  simp only [parseFrom, dispatch, parseStreamed]
  rw [stop_block hidle hstarted]
  refine ⟨?_, ⟨hidle.text, hidle.thinking, hidle.fallback, hidle.fallbackThinking⟩, hstarted.trans hcurrent.symm, hseen', ?_⟩
  · cases type with
    | toolUse name =>
      have hnone : (deltasOf steps).filter (keeps (.toolUse name)) = [] := filter_eq_nil_iff.mpr (by simp [keeps])
      rw [hnone]
      rfl
    | _ => simp [StreamedBlock.lines, StreamedBlock.shown, StreamedBlock.rest, kept_eq, openingLines, closingLines, lineOf]
  · cases type <;> simp [StreamedBlock.emitted, isText, StreamedBlock.rest, kept_eq, hemitted]

end RalphWorkflow.Parsers.Claude
