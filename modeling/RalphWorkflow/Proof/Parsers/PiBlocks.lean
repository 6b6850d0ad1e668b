import RalphWorkflow.Agents.Parsers.Pi
import RalphWorkflow.Proof.Parsers.Unbroken

/-! What a well-formed stream shows of each content block. Blocks do not disturb each other, so a block is followed by itself: what its deltas
have flushed, what its end shows, and what the final message shows again. -/
namespace RalphWorkflow.Parsers.Pi
open List PiParser
open Lib (Dict)
open Lib.Json (Text)
open Lib.Text (isSpace)

/-! ## Streams -/

structure StreamedBlock where
  kind : Kind
  deltas : List Text

def StreamedBlock.content (block : StreamedBlock) : Text := block.deltas.flatten

def startEvent : AccumulatorKey → SubEvent
  | (.text, contentIndex) => .textStart contentIndex
  | (.thinking, contentIndex) => .thinkingStart contentIndex

def deltaEvent : AccumulatorKey → Text → SubEvent
  | (.text, contentIndex), delta => .textDelta contentIndex delta
  | (.thinking, contentIndex), delta => .thinkingDelta contentIndex delta

def endEvent : AccumulatorKey → Text → SubEvent
  | (.text, contentIndex), content => .textEnd contentIndex content
  | (.thinking, contentIndex), content => .thinkingEnd contentIndex content

def SubEvent.key : SubEvent → Option AccumulatorKey
  | .textStart contentIndex | .textDelta contentIndex _ | .textEnd contentIndex _ => some (.text, contentIndex)
  | .thinkingStart contentIndex | .thinkingDelta contentIndex _ | .thinkingEnd contentIndex _ => some (.thinking, contentIndex)
  | .done _ => none

def StreamedBlock.events (block : StreamedBlock) (contentIndex : Int) : List SubEvent :=
  startEvent (block.kind, contentIndex) ::
    (block.deltas.map (deltaEvent (block.kind, contentIndex)) ++ [endEvent (block.kind, contentIndex) block.content])

structure Message where
  blocks : List StreamedBlock
  updates : List SubEvent
  interleaved : ∀ (index : Nat) (block : StreamedBlock), blocks[index]? = some block →
    updates.filter (fun sub => sub.key = some (block.kind, (index : Int))) = block.events index
  inside : ∀ sub ∈ updates, ∃ (index : Nat) (block : StreamedBlock), blocks[index]? = some block ∧ sub.key = some (block.kind, (index : Int))
  /-- The `done` that comes before the final message, if one does, with its stop reason. -/
  done : Option (Option Text)
  stopReason : Option Text
  errorMessage : Option Text

def Message.final (message : Message) : FinalMessage where
  content := message.blocks.map fun block => { kind := block.kind, content := block.content }
  stopReason := message.stopReason
  errorMessage := message.errorMessage

def Message.events (message : Message) : List Event :=
  .messageStart :: ((message.updates ++ (message.done.map SubEvent.done).toList).map .messageUpdate ++ [.messageEnd message.final])

def contentsOf (key : AccumulatorKey) (lines : List Line) : List Text := (lines.filter fun line => line.block = some key).map Line.content

/-! ## One block of the parser -/

structure View where
  held : Option TextAccumulator
  ended : Bool

def PiParser.view (parser : PiParser) (key : AccumulatorKey) : View := { held := parser.accumulators.get? key, ended := parser.sawEnd key }

def View.delta (view : View) (delta : Text) : List Text × View :=
  if delta.isEmpty || view.ended then ([], view)
  else
    let accumulated := (view.held.getD {}).accumulate delta true
    (accumulated.1, { view with held := some accumulated.2 })

def unshown : Kind → Text → Bool
  | .text, content => content.isEmpty
  | .thinking, content => content.all isSpace

def View.close (view : View) (kind : Kind) (content : Text) : List Text × View :=
  (if unshown kind content then (view.held.map fun acc => acc.flush (kind = .thinking)).getD [] else [content], { held := none, ended := true })

def View.update (view : View) (kind : Kind) : SubEvent → List Text × View
  | .textDelta _ delta | .thinkingDelta _ delta => view.delta delta
  | .textEnd _ content | .thinkingEnd _ content => view.close kind content
  | _ => ([], view)

def View.updates (view : View) (kind : Kind) : List SubEvent → List Text × View
  | [] => ([], view)
  | sub :: subs =>
    let first := view.update kind sub
    let rest := first.2.updates kind subs
    (first.1 ++ rest.1, rest.2)

variable {key other : AccumulatorKey} {parser : PiParser}

theorem contentsOf_append (first second : List Line) : contentsOf key (first ++ second) = contentsOf key first ++ contentsOf key second := by
  simp [contentsOf]

theorem contentsOf_own (key : AccumulatorKey) (contents : List Text) : contentsOf key (contents.map (contentLine key)) = contents := by
  simp [contentsOf, contentLine, filter_map, Function.comp_def]

theorem contentsOf_other (h : other ≠ key) (contents : List Text) : contentsOf key (contents.map (contentLine other)) = [] := by
  simp [contentsOf, contentLine, filter_map, Function.comp_def, h]

theorem sawEnd_addEnd (parser : PiParser) (key other : AccumulatorKey) :
    (parser.addEnd other).sawEnd key = (decide (key = other) || parser.sawEnd key) := by
  obtain ⟨kind, index⟩ := key
  obtain ⟨otherKind, otherIndex⟩ := other
  cases kind <;> cases otherKind <;> simp [addEnd, sawEnd]

section

variable (parser : PiParser)

theorem view_delta_own (key : AccumulatorKey) (delta : Text) :
    (contentsOf key (parser.handleDelta key delta).1, (parser.handleDelta key delta).2.view key) = (parser.view key).delta delta := by
  unfold handleDelta View.delta PiParser.view
  by_cases hsilent : (delta.isEmpty || parser.sawEnd key) = true
  · simp [hsilent, contentsOf]
  · simp only [hsilent, Bool.false_eq_true, if_false, contentsOf_own, Dict.get?_set, if_true]
    obtain ⟨kind, index⟩ := key
    cases kind <;> rfl

theorem view_delta_other (h : other ≠ key) (parser : PiParser) (delta : Text) :
    contentsOf key (parser.handleDelta other delta).1 = [] ∧ (parser.handleDelta other delta).2.view key = parser.view key := by
  unfold handleDelta PiParser.view
  by_cases hsilent : (delta.isEmpty || parser.sawEnd other) = true
  · simp [hsilent, contentsOf]
  · simp only [hsilent, Bool.false_eq_true, if_false, contentsOf_other h, Dict.get?_set, Ne.symm h, true_and]
    obtain ⟨kind, index⟩ := key
    cases kind <;> rfl

theorem view_end_own (key : AccumulatorKey) (content : Text) :
    (contentsOf key (parser.handleEnd key content (unshown key.1 content)).1, (parser.handleEnd key content (unshown key.1 content)).2.view key) =
      (parser.view key).close key.1 content := by
  have hended : ((parser.addEnd key).pop key).sawEnd key = true := by
    have hsaw := sawEnd_addEnd parser key key
    obtain ⟨kind, index⟩ := key
    cases kind <;> simpa [pop, sawEnd] using hsaw
  have hheld : ((parser.addEnd key).pop key).accumulators.get? key = none := by simp [pop]
  unfold handleEnd View.close PiParser.view
  simp only [hended, hheld]
  by_cases hunshown : unshown key.1 content = true
  · simp only [hunshown, if_true]
    cases hacc : parser.accumulators.get? key with
    | none => simp [contentsOf]
    | some acc => simp [flushKey, contentsOf_own]
  · have hone := contentsOf_own key [content]
    simp only [hunshown, Bool.false_eq_true, if_false]
    simpa using hone

theorem view_end_other (h : other ≠ key) (parser : PiParser) (content : Text) (hidden : Bool) :
    contentsOf key (parser.handleEnd other content hidden).1 = [] ∧ (parser.handleEnd other content hidden).2.view key = parser.view key := by
  have hsaw : ((parser.addEnd other).pop other).sawEnd key = parser.sawEnd key := by
    have hadded := sawEnd_addEnd parser key other
    rw [decide_eq_false (Ne.symm h), Bool.false_or] at hadded
    obtain ⟨kind, index⟩ := key
    cases kind <;> simpa [pop, sawEnd] using hadded
  have hheld : ((parser.addEnd other).pop other).accumulators.get? key = parser.accumulators.get? key := by
    obtain ⟨otherKind, otherIndex⟩ := other
    cases otherKind <;> simp [pop, addEnd, Ne.symm h]
  unfold handleEnd PiParser.view
  simp only [hsaw, hheld, and_true]
  cases hidden with
  | true =>
    cases hacc : parser.accumulators.get? other with
    | none => simp [contentsOf]
    | some acc => simp [flushKey, contentsOf_other h]
  | false =>
    have hone := contentsOf_other h [content]
    simpa using hone

theorem view_update_own {sub : SubEvent} (h : sub.key = some key) (parser : PiParser) :
    (contentsOf key (parser.handleUpdate sub).1, (parser.handleUpdate sub).2.view key) = (parser.view key).update key.1 sub := by
  cases sub with
  | textStart contentIndex => rfl
  | thinkingStart contentIndex => rfl
  | textDelta contentIndex delta =>
    cases h
    exact view_delta_own parser _ delta
  | thinkingDelta contentIndex delta =>
    cases h
    exact view_delta_own parser _ delta
  | textEnd contentIndex content =>
    cases h
    exact view_end_own parser (.text, contentIndex) content
  | thinkingEnd contentIndex content =>
    cases h
    exact view_end_own parser (.thinking, contentIndex) content
  | done stopReason => cases h

theorem view_update_other {sub : SubEvent} (hsub : sub.key = some other) (h : other ≠ key) (parser : PiParser) :
    contentsOf key (parser.handleUpdate sub).1 = [] ∧ (parser.handleUpdate sub).2.view key = parser.view key := by
  cases sub with
  | textStart contentIndex => exact ⟨rfl, rfl⟩
  | thinkingStart contentIndex => exact ⟨rfl, rfl⟩
  | textDelta contentIndex delta =>
    cases hsub
    exact view_delta_other h parser delta
  | thinkingDelta contentIndex delta =>
    cases hsub
    exact view_delta_other h parser delta
  | textEnd contentIndex content =>
    cases hsub
    exact view_end_other h parser content _
  | thinkingEnd contentIndex content =>
    cases hsub
    exact view_end_other h parser content _
  | done stopReason => cases hsub

theorem parseFrom_append (first second : List Event) : parser.parseFrom (first ++ second) =
      ((parser.parseFrom first).1 ++ ((parser.parseFrom first).2.parseFrom second).1, ((parser.parseFrom first).2.parseFrom second).2) := by
  induction first generalizing parser with
  | nil => rfl
  | cons event first ih => simp [parseFrom, ih]

theorem view_updates (key : AccumulatorKey) {updates : List SubEvent} (hkeys : ∀ sub ∈ updates, sub.key.isSome = true) :
    (contentsOf key (parser.parseFrom (updates.map .messageUpdate)).1, (parser.parseFrom (updates.map .messageUpdate)).2.view key) =
      (parser.view key).updates key.1 (updates.filter fun sub => sub.key = some key) := by
  induction updates generalizing parser with
  | nil => rfl
  | cons sub updates ih =>
    rw [forall_mem_cons] at hkeys
    have hrest := ih (parser.handleUpdate sub).2 hkeys.2
    rw [map_cons, parseFrom, dispatch, contentsOf_append]
    by_cases hown : sub.key = some key
    · have hstep := view_update_own hown parser
      rw [filter_cons_of_pos (by simpa using hown), View.updates, ← hstep, ← hrest]
    · obtain ⟨other, hother⟩ := Option.isSome_iff_exists.1 hkeys.1
      obtain ⟨hnone, hsame⟩ := view_update_other hother (fun heq => hown (by rw [hother, heq])) parser
      rw [filter_cons_of_neg (by simpa using hown), hnone, ← hsame, ← hrest, nil_append]

/-! ## One streamed block -/

def heldBy (held : Option TextAccumulator) : List Text → List Text × Option TextAccumulator
  | [] => ([], held)
  | delta :: deltas =>
    if delta.isEmpty then heldBy held deltas
    else
      let accumulated := (held.getD {}).accumulate delta true
      let rest := heldBy (some accumulated.2) deltas
      (accumulated.1 ++ rest.1, rest.2)

def heldText (held : Option TextAccumulator) : Text := (held.getD {}).buffer

theorem updates_append (view : View) (kind : Kind) (first second : List SubEvent) : view.updates kind (first ++ second) =
      ((view.updates kind first).1 ++ ((view.updates kind first).2.updates kind second).1, ((view.updates kind first).2.updates kind second).2) := by
  induction first generalizing view with
  | nil => rfl
  | cons sub first ih => simp [View.updates, ih]

theorem updates_deltas (held : Option TextAccumulator) (key : AccumulatorKey) (deltas : List Text) :
    View.updates { held := held, ended := false } key.1 (deltas.map (deltaEvent key)) =
      ((heldBy held deltas).1, { held := (heldBy held deltas).2, ended := false }) := by
  obtain ⟨kind, contentIndex⟩ := key
  induction deltas generalizing held with
  | nil => rfl
  | cons delta deltas ih =>
    have hdelta : ∀ view : View, view.update kind (deltaEvent (kind, contentIndex) delta) = view.delta delta := by
      intro view
      cases kind <;> rfl
    rw [map_cons, View.updates, hdelta, View.delta, heldBy]
    by_cases hempty : delta.isEmpty = true
    · simp [hempty, ih]
    · simp [hempty, ih]

theorem updates_events (block : StreamedBlock) (contentIndex : Int) :
    View.updates { held := none, ended := false } block.kind (block.events contentIndex) =
      ((heldBy none block.deltas).1 ++
        (if unshown block.kind block.content then ((heldBy none block.deltas).2.map fun acc => acc.flush (block.kind = .thinking)).getD []
          else [block.content]),
        { held := none, ended := true }) := by
  have hdeltas := updates_deltas none (block.kind, contentIndex) block.deltas
  have hstart : ∀ view : View, view.update block.kind (startEvent (block.kind, contentIndex)) = ([], view) := by
    intro view
    cases block.kind <;> rfl
  have hend : ∀ view : View, view.update block.kind (endEvent (block.kind, contentIndex) block.content) = view.close block.kind block.content := by
    intro view
    cases block.kind <;> rfl
  rw [StreamedBlock.events, View.updates, hstart, updates_append, hdeltas, View.updates, hend]
  simp [View.close, View.updates]

theorem heldBy_unbroken (held : Option TextAccumulator) (deltas : List Text) :
    Unbroken ((heldBy held deltas).1.flatten ++ heldText (heldBy held deltas).2) (heldText held ++ deltas.flatten) := by
  induction deltas generalizing held with
  | nil => simpa [heldBy] using Unbroken.refl (heldText held)
  | cons delta deltas ih =>
    rw [heldBy, flatten_cons]
    by_cases hempty : delta.isEmpty = true
    · rw [if_pos hempty, isEmpty_iff.1 hempty, nil_append]
      exact ih held
    · rw [if_neg hempty]
      have hstep := (accumulate_unbroken (held.getD {}) delta true).append (Unbroken.refl deltas.flatten)
      have hrest := (Unbroken.refl ((held.getD {}).accumulate delta true).1.flatten).append (ih (some ((held.getD {}).accumulate delta true).2))
      simp only [append_assoc, flatten_append, heldText] at hstep hrest ⊢
      exact hrest.trans hstep

/-- Nothing is flushed while the deltas come: the accumulator stays under its cap, and no paragraph ends in it. -/
def QuietFrom (held : Option TextAccumulator) : List Text → Prop
  | [] => True
  | delta :: deltas =>
    if delta.isEmpty then QuietFrom held deltas
    else
      (held.getD {}).rawLines < maxRawLines ∧
        (∀ flushed remaining, splitBreak ((held.getD {}).buffer ++ delta) = some (flushed, remaining) → flushed = []) ∧
        QuietFrom (some ((held.getD {}).accumulate delta true).2) deltas

theorem accumulate_quiet_iff (acc : TextAccumulator) {delta : Text} (hdelta : delta.isEmpty = false) : (acc.accumulate delta true).1.flatten = [] ↔
      acc.rawLines < maxRawLines ∧ ∀ flushed remaining, splitBreak (acc.buffer ++ delta) = some (flushed, remaining) → flushed = [] := by
  have hgrown : acc.buffer ++ delta ≠ [] := by
    intro hnil
    rw [(append_eq_nil_iff.1 hnil).2] at hdelta
    cases hdelta
  unfold TextAccumulator.accumulate
  by_cases hcap : maxRawLines < acc.rawLines + 1
  · simp only [hcap, if_true, flatten_cons, append_eq_nil_iff, hgrown, false_and, false_iff, not_and]
    omega
  · simp only [hcap, if_false, TextAccumulator.takeParagraph]
    cases hsplit : splitBreak (acc.buffer ++ delta) with
    | none => simp; omega
    | some parts =>
      obtain ⟨flushed, remaining⟩ := parts
      have hroom : acc.rawLines < maxRawLines := by omega
      cases flushed <;> simp [hroom]

theorem heldBy_quiet_iff (held : Option TextAccumulator) (deltas : List Text) : (heldBy held deltas).1.flatten = [] ↔ QuietFrom held deltas := by
  induction deltas generalizing held with
  | nil => simp [heldBy, QuietFrom]
  | cons delta deltas ih =>
    rw [heldBy, QuietFrom]
    by_cases hempty : delta.isEmpty = true
    · rw [if_pos hempty, if_pos hempty]
      exact ih held
    · rw [if_neg hempty, if_neg hempty, flatten_append, append_eq_nil_iff, ih, accumulate_quiet_iff _ (by simpa using hempty), and_assoc]

theorem heldBy_empty (deltas : List Text) (h : deltas.flatten = []) : heldBy none deltas = ([], none) := by
  induction deltas with
  | nil => rfl
  | cons delta deltas ih =>
    rw [flatten_cons, append_eq_nil_iff] at h
    rw [heldBy, h.1]
    exact ih h.2

/-! ## Final messages -/

theorem flush_none (h : parser.accumulators.get? key = none) : contentsOf key parser.flushAccumulators.1 = [] := by
  have hlines : ∀ line ∈ parser.flushAccumulators.1, line.block ≠ some key := by
    intro line hline hblock
    obtain ⟨⟨other, acc⟩, hentry, hflushed⟩ := mem_flatMap.1 hline
    obtain ⟨content, -, rfl⟩ := mem_map.1 hflushed
    cases hblock
    rw [(Dict.get?_eq_some_iff _ _ _).2 hentry] at h
    cases h
  rw [contentsOf, filter_eq_nil_iff.2 (fun line hline => by simpa using hlines line hline), map_nil]

theorem contentsOf_final_other (h : other ≠ key) (content : Text) :
    contentsOf key (if content.isEmpty then [] else [contentLine other content]) = [] := by
  have hone := contentsOf_other h [content]
  by_cases hempty : content.isEmpty = true
  · simp [hempty, contentsOf]
  · simpa [hempty] using hone

theorem sawEnd_pop_addEnd (h : other ≠ key) (parser : PiParser) : ((parser.pop other).addEnd other).sawEnd key = parser.sawEnd key := by
  rw [sawEnd_addEnd, decide_eq_false (Ne.symm h), Bool.false_or]
  obtain ⟨kind, index⟩ := key
  cases kind <;> rfl

theorem emit_before {start : Int} (blocks : List Block) (h : key.2 < start) : contentsOf key (parser.emitMessageContent start blocks).1 = [] := by
  induction blocks generalizing parser start with
  | nil => rfl
  | cons block blocks ih =>
    have hother : ((block.kind, start) : AccumulatorKey) ≠ key := by
      rintro rfl
      exact absurd h (Int.lt_irrefl _)
    have hnext : key.2 < start + 1 := by omega
    rw [emitMessageContent]
    by_cases hsaw : parser.sawEnd (block.kind, start) = true
    · rw [if_pos hsaw]
      exact ih parser hnext
    · rw [if_neg hsaw]
      have hrest := ih ((parser.pop (block.kind, start)).addEnd (block.kind, start)) hnext
      simp only [contentsOf_append, contentsOf_final_other hother, nil_append]
      exact hrest

end

theorem emit_block (parser : PiParser) (start : Int) {blocks : List Block} {index : Nat} {block : Block} (hblock : blocks[index]? = some block) :
    contentsOf (block.kind, start + index) (parser.emitMessageContent start blocks).1 =
      if parser.sawEnd (block.kind, start + index) || block.content.isEmpty then [] else [block.content] := by
  induction blocks generalizing parser start index with
  | nil => cases hblock
  | cons first blocks ih =>
    rw [emitMessageContent]
    cases index with
    | zero =>
      cases hblock
      have hzero : start + ((0 : Nat) : Int) = start := by simp
      have hbefore : ∀ parser : PiParser, contentsOf (block.kind, start) (parser.emitMessageContent (start + 1) blocks).1 = [] :=
        fun parser => emit_before parser blocks (by simp only; omega)
      rw [hzero]
      by_cases hsaw : parser.sawEnd (block.kind, start) = true
      · rw [if_pos hsaw, hbefore]
        simp [hsaw]
      · have hone := contentsOf_own (block.kind, start) [block.content]
        rw [if_neg hsaw]
        simp only [contentsOf_append, hbefore, append_nil, hsaw, Bool.false_or]
        by_cases hempty : block.content.isEmpty = true
        · simp [hempty, contentsOf]
        · simpa [hempty] using hone
    | succ index =>
      have hlater : start + ((index + 1 : Nat) : Int) = start + 1 + (index : Int) := by omega
      have hother : ((first.kind, start) : AccumulatorKey) ≠ (block.kind, start + 1 + (index : Int)) := by
        intro heq
        have hindex := congrArg Prod.snd heq
        simp only at hindex
        omega
      have hblock' : blocks[index]? = some block := hblock
      rw [hlater]
      by_cases hsaw : parser.sawEnd (first.kind, start) = true
      · rw [if_pos hsaw]
        exact ih parser (start + 1) hblock'
      · have hrest := ih ((parser.pop (first.kind, start)).addEnd (first.kind, start)) (start + 1) hblock'
        rw [sawEnd_pop_addEnd hother] at hrest
        rw [if_neg hsaw]
        simp only [contentsOf_append, contentsOf_final_other hother, nil_append]
        exact hrest

theorem emit_accumulators (parser : PiParser) (start : Int) (blocks : List Block) (h : parser.accumulators = ∅) :
    (parser.emitMessageContent start blocks).2.accumulators = ∅ := by
  induction blocks generalizing parser start with
  | nil => exact h
  | cons block blocks ih =>
    rw [emitMessageContent]
    by_cases hsaw : parser.sawEnd (block.kind, start) = true
    · rw [if_pos hsaw]
      exact ih parser (start + 1) h
    · rw [if_neg hsaw]
      refine ih _ (start + 1) ?_
      obtain ⟨kind, content⟩ := block
      cases kind <;> simp only [addEnd, pop, h] <;> rfl

theorem messageEnd_new (parser : PiParser) (message : FinalMessage) : (parser.handleMessageEnd message).2 = new := by
  have hempty := emit_accumulators { parser with accumulators := ∅ } 0 message.content rfl
  unfold handleMessageEnd resetEmissionFlags new
  simp only [hempty]

theorem message_new (parser : PiParser) (message : Message) : (parser.parseFrom message.events).2 = new := by
  rw [Message.events, parseFrom, parseFrom_append]
  exact messageEnd_new _ _

theorem messages_new (messages : List Message) : (new.parseFrom (messages.flatMap Message.events)).2 = new := by
  induction messages with
  | nil => rfl
  | cons message messages ih =>
    rw [flatMap_cons, parseFrom_append, message_new]
    exact ih

/-! ## A message -/

theorem interleaved_keys (message : Message) : ∀ sub ∈ message.updates, sub.key.isSome = true := by
  intro sub hsub
  obtain ⟨index, block, -, hkey⟩ := message.inside sub hsub
  rw [hkey]
  rfl

def StreamedBlock.streamed (block : StreamedBlock) : List Text :=
  (heldBy none block.deltas).1 ++
    (if unshown block.kind block.content then ((heldBy none block.deltas).2.map fun acc => acc.flush (block.kind = .thinking)).getD []
      else [block.content])

theorem message_contents (message : Message) {index : Nat} {block : StreamedBlock} (hblock : message.blocks[index]? = some block) :
    contentsOf (block.kind, (index : Int)) (new.parseFrom message.events).1 =
      block.streamed ++ (if message.done.isSome && !block.content.isEmpty then [block.content] else []) := by
  have hview : (new.view (block.kind, (index : Int))) = { held := none, ended := false } := by
    cases block.kind <;> rfl
  have hupdates := view_updates new (block.kind, (index : Int)) (interleaved_keys message)
  rw [hview, message.interleaved index block hblock, updates_events] at hupdates
  obtain ⟨hcontents, hafter⟩ := Prod.mk.inj hupdates
  have hfinal : message.final.content[index]? = some { kind := block.kind, content := block.content } := by
    simp [Message.final, hblock]
  have hend : ∀ parser : PiParser, contentsOf (block.kind, (index : Int)) (parser.handleMessageEnd message.final).1 =
      if parser.sawEnd (block.kind, (index : Int)) || block.content.isEmpty then [] else [block.content] := by
    intro parser
    have hemit := emit_block { parser with accumulators := ∅ } 0 hfinal
    have hsaw : sawEnd { parser with accumulators := ∅ } (block.kind, (index : Int)) = parser.sawEnd (block.kind, (index : Int)) := by
      cases block.kind <;> rfl
    have hfailure : ∀ failure : Option Text,
        contentsOf (block.kind, (index : Int)) (failure.map fun text => ({ type := .error, content := text, block := none } : Line)).toList = [] := by
      intro failure
      cases failure <;> simp [contentsOf]
    rw [Int.zero_add, hsaw] at hemit
    rw [handleMessageEnd, contentsOf_append, hemit, hfailure, append_nil]
  have hheld : (new.parseFrom (message.updates.map .messageUpdate)).2.accumulators.get? (block.kind, (index : Int)) = none :=
    congrArg View.held hafter
  have hended : (new.parseFrom (message.updates.map .messageUpdate)).2.sawEnd (block.kind, (index : Int)) = true :=
    congrArg View.ended hafter
  have hlines : (new.parseFrom message.events).1 = (new.parseFrom (message.updates.map .messageUpdate)).1 ++
        ((new.parseFrom (message.updates.map .messageUpdate)).2.parseFrom
          ((message.done.map SubEvent.done).toList.map .messageUpdate ++ [.messageEnd message.final])).1 := by
    rw [Message.events, parseFrom, map_append, append_assoc, parseFrom_append]
    rfl
  have hstreamed : contentsOf (block.kind, (index : Int)) (new.parseFrom (message.updates.map .messageUpdate)).1 = block.streamed := hcontents
  rw [hlines, contentsOf_append, hstreamed]
  congr 1
  cases hdone : message.done with
  | none =>
    have hlast := hend (new.parseFrom (message.updates.map .messageUpdate)).2
    rw [hended] at hlast
    simpa [parseFrom, dispatch] using hlast
  | some reason =>
    have hflushed := flush_none _ hheld
    have hlast := hend ((new.parseFrom (message.updates.map .messageUpdate)).2.handleDone reason).2
    have hforgotten : ((new.parseFrom (message.updates.map .messageUpdate)).2.handleDone reason).2.sawEnd (block.kind, (index : Int)) = false := by
      cases block.kind <;> rfl
    have hdoneLines : contentsOf (block.kind, (index : Int)) ((new.parseFrom (message.updates.map .messageUpdate)).2.handleDone reason).1 = [] := by
      rw [handleDone, contentsOf_append, contentsOf_append, hflushed]
      cases hexhausted : reason.any fun reason => casefoldIs reason "length" <;> simp [contentsOf]
    rw [hforgotten, Bool.false_or] at hlast
    have hboth : contentsOf (block.kind, (index : Int)) ((new.parseFrom (message.updates.map .messageUpdate)).2.parseFrom
        (((some reason).map SubEvent.done).toList.map .messageUpdate ++ [.messageEnd message.final])).1 =
        if block.content.isEmpty then [] else [block.content] := by
      simp only [Option.map_some, Option.toList_some, map_cons, map_nil, cons_append, nil_append, parseFrom,
        dispatch, handleUpdate, append_nil, contentsOf_append, hdoneLines]
      exact hlast
    rw [hboth]
    by_cases hempty : block.content.isEmpty = true
    · simp [hempty]
    · simp [hempty]

/-! ## Each block once -/

/-- Text comes whole in its end, with nothing flushed before and no `done` behind it. -/
def BlockFine (done : Bool) (block : StreamedBlock) : Prop :=
  if block.content = [] then True
  else if unshown block.kind block.content then
    if done then QuietFrom none block.deltas else ∃ breaks, heldText (heldBy none block.deltas).2 = List.replicate (2 * breaks) '\n'
  else QuietFrom none block.deltas ∧ done = false

theorem streamed_unshown (block : StreamedBlock) (h : unshown block.kind block.content = true) (hcontent : block.content ≠ []) :
    block.streamed.flatten = (heldBy none block.deltas).1.flatten := by
  obtain ⟨kind, deltas⟩ := block
  cases kind with
  | text => exact absurd (isEmpty_iff.1 h) hcontent
  | thinking =>
    have hheld := heldBy_unbroken none deltas
    have hblank : ∀ acc, (heldBy none deltas).2 = some acc → acc.buffer.all isSpace = true := by
      intro acc hacc
      rw [all_eq_true]
      intro c hc
      have hmem := hheld.mem c (mem_append_right _ (by rw [hacc]; exact hc))
      exact all_eq_true.1 h c hmem
    have hflush : ((heldBy none deltas).2.map fun acc => acc.flush true).getD [] = [] := by
      cases hacc : (heldBy none deltas).2 with
      | none => rfl
      | some acc =>
        rw [Option.map_some, Option.getD_some, TextAccumulator.flush]
        simp only [hblank acc hacc, if_true]
    have hunshown : unshown Kind.thinking (StreamedBlock.content ⟨.thinking, deltas⟩) = true := h
    simp only [StreamedBlock.streamed, hunshown, if_true, decide_true, hflush, append_nil]

theorem blockFine_iff (done : Bool) (block : StreamedBlock) :
    Unbroken (block.streamed ++ (if done && !block.content.isEmpty then [block.content] else [])).flatten block.content ↔ BlockFine done block := by
  unfold BlockFine
  by_cases hcontent : block.content = []
  · have hheld := heldBy_empty block.deltas hcontent
    have hunshown : unshown block.kind block.content = true := by
      rw [hcontent]
      cases block.kind <;> rfl
    have hstreamed : block.streamed = [] := by
      rw [StreamedBlock.streamed, hheld, hunshown]
      rfl
    rw [hstreamed, hcontent]
    simpa using Unbroken.nil
  · have hempty : block.content.isEmpty = false := by simpa using hcontent
    have hheld : Unbroken ((heldBy none block.deltas).1.flatten ++ heldText (heldBy none block.deltas).2) block.content := heldBy_unbroken none block.deltas
    rw [if_neg hcontent, flatten_append]
    by_cases hunshown : unshown block.kind block.content = true
    · rw [if_pos hunshown, streamed_unshown block hunshown hcontent]
      cases done with
      | true =>
        simp only [hempty, Bool.not_false, Bool.and_true, if_true, flatten_singleton]
        rw [Unbroken.append_self_iff, heldBy_quiet_iff]
      | false =>
        simp only [Bool.false_and, Bool.false_eq_true, if_false, flatten_nil, append_nil]
        exact Unbroken.of_rest_iff hheld
    · have hstreamed : block.streamed.flatten = (heldBy none block.deltas).1.flatten ++ block.content := by
        simp [StreamedBlock.streamed, hunshown]
      rw [if_neg hunshown, hstreamed]
      cases done with
      | true =>
        simp only [hempty, Bool.not_false, Bool.and_true, if_true, flatten_singleton]
        rw [Unbroken.append_self_iff]
        simp [hcontent]
      | false =>
        simp only [Bool.false_and, Bool.false_eq_true, if_false, flatten_nil, append_nil, and_true]
        rw [Unbroken.append_self_iff, heldBy_quiet_iff]

def linesOf (before : List Message) (message : Message) : List Line :=
  ((new.parseFrom (before.flatMap Message.events)).2.parseFrom message.events).1

/-- Every block is shown once, but for paragraph breaks, and nothing is left at the end. -/
structure ShownOnce (stream : List Message) : Prop where
  blocks : ∀ before message after, stream = before ++ message :: after → ∀ (index : Nat) (block : StreamedBlock), message.blocks[index]? = some block →
    Unbroken (contentsOf (block.kind, (index : Int)) (linesOf before message)).flatten block.content
  rest : (new.parseFrom (stream.flatMap Message.events)).2.flushAccumulators.1 = []

/-- A stream shows its blocks once exactly when each of them meets its condition. -/
theorem shownOnce_iff (stream : List Message) :
    ShownOnce stream ↔ ∀ message ∈ stream, ∀ block ∈ message.blocks, BlockFine message.done.isSome block := by
  have hblock : ∀ before message (index : Nat) block, message.blocks[index]? = some block →
      (Unbroken (contentsOf (block.kind, (index : Int)) (linesOf before message)).flatten block.content ↔ BlockFine message.done.isSome block) := by
    intro before message index block hindex
    rw [linesOf, messages_new, message_contents message hindex]
    exact blockFine_iff _ block
  constructor
  · intro h message hmessage block hmem
    obtain ⟨before, after, hstream⟩ := append_of_mem hmessage
    obtain ⟨index, hindex⟩ := mem_iff_getElem?.1 hmem
    exact (hblock before message index block hindex).1 (h.blocks before message after hstream index block hindex)
  · intro h
    refine ⟨fun before message after hstream index block hindex => ?_, ?_⟩
    · have hmessage : message ∈ stream := hstream ▸ mem_append_right _ mem_cons_self
      exact (hblock before message index block hindex).2 (h message hmessage block (mem_of_getElem? hindex))
    · rw [messages_new]
      rfl

/-! ## Two paragraphs -/

def twoParagraphs : Message where
  blocks := [{ kind := .text, deltas := ["One.\n\n".toList, "Two.".toList] }]
  updates := [.textStart 0, .textDelta 0 "One.\n\n".toList, .textDelta 0 "Two.".toList, .textEnd 0 "One.\n\nTwo.".toList]
  interleaved := by
    intro index block hblock
    match index, hblock with
    | 0, rfl => decide
    | index + 1, hblock => cases hblock
  inside := by
    intro sub hsub
    refine ⟨0, _, rfl, ?_⟩
    revert sub
    decide
  done := none
  stopReason := none
  errorMessage := none

/-- The first paragraph is shown when it is over, and again with the end. -/
theorem paragraph_shown_twice : ¬ ShownOnce [twoParagraphs] := by
  intro h
  have hshown := h.blocks [] twoParagraphs [] rfl 0 { kind := .text, deltas := ["One.\n\n".toList, "Two.".toList] } rfl
  have hlines : (contentsOf (.text, ((0 : Nat) : Int)) (linesOf [] twoParagraphs)).flatten = "One.One.\n\nTwo.".toList := by decide
  rw [hlines] at hshown
  exact absurd hshown.length_le (by decide)

end RalphWorkflow.Parsers.Pi
