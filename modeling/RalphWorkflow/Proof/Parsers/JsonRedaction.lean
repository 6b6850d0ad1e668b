import RalphWorkflow.Agents.Parsers.Template

/-! Values that are the same once they are redacted are read on in the same way, and a secret is read where a sensitive key stands or not at all. -/
namespace RalphWorkflow.Parsers.Template
open Lib.Json (Text isBlank isBare hexValue escapedChar isHigh isLow ofHexDigits)
open Lib.JsonValue List False

/-! ## Alike states -/

def redactFrame : Frame → Frame
  | .object fields key => .object (redactFields fields) key
  | .array items => .array (redactItems items)

def redactState : State → State
  | .running stack mode => .running (stack.map redactFrame) mode
  | .finished value => .finished (redactJsonValues value)

variable {stack stack' : List Frame} {value value' : Json} {fields fields' : List (Text × Json)} {key : Text}

theorem redactItems_append (first second : List Json) : redactItems (first ++ second) = redactItems first ++ redactItems second := by
  induction first with
  | nil => rfl
  | cons item first ih => rw [cons_append, redactItems, redactItems, ih, cons_append]

theorem setField_alike (h : redactFields fields = redactFields fields')
    (hvalue : isSensitive key = true ∨ redactJsonValues value = redactJsonValues value') :
    redactFields (setField key value fields) = redactFields (setField key value' fields') := by
  have hsame : (if isSensitive key then Json.str redacted else redactJsonValues value) =
      if isSensitive key then Json.str redacted else redactJsonValues value' := by
    rcases hvalue with hkey | hvalue
    · rw [if_pos hkey, if_pos hkey]
    · rw [hvalue]
  induction fields generalizing fields' with
  | nil =>
    cases fields' with
    | nil => simp only [setField, redactFields, hsame]
    | cons field' fields' => simp [redactFields] at h
  | cons field fields ih =>
    cases fields' with
    | nil => simp [redactFields] at h
    | cons field' fields' =>
      simp only [redactFields, List.cons.injEq, Prod.mk.injEq] at h
      obtain ⟨⟨hkey, hfield⟩, hrest⟩ := h
      by_cases hown : field.1 = key
      · simp only [setField, hown, ← hkey, if_true, redactFields, hsame, hrest]
      · simp only [setField, hown, ← hkey, if_false, redactFields, ih hrest]
        rw [← hkey] at hfield
        rw [hfield]

def heldKey : List Frame → Option Text
  | .object _ key :: _ => some key
  | _ => none

section

variable (h : stack.map redactFrame = stack'.map redactFrame)
include h

theorem push_alike (hvalue : (∃ key, heldKey stack = some key ∧ isSensitive key = true) ∨ redactJsonValues value = redactJsonValues value') :
    redactState (push value stack) = redactState (push value' stack') := by
  cases stack with
  | nil =>
    cases stack' with
    | nil =>
      rcases hvalue with ⟨key, hkey, -⟩ | hvalue
      · cases hkey
      · simp only [push, redactState, hvalue]
    | cons frame' stack' => simp at h
  | cons frame stack =>
    cases stack' with
    | nil => simp at h
    | cons frame' stack' =>
      simp only [map_cons, List.cons.injEq] at h
      obtain ⟨hframe, hstack⟩ := h
      cases frame with
      | object fields key =>
        cases frame' with
        | array items' => simp [redactFrame] at hframe
        | object fields' key' =>
          simp only [redactFrame, Frame.object.injEq] at hframe
          obtain ⟨hfields, rfl⟩ := hframe
          have hset : isSensitive key = true ∨ redactJsonValues value = redactJsonValues value' := by
            refine hvalue.imp ?_ id
            rintro ⟨held, hheld, hsensitive⟩
            cases hheld
            exact hsensitive
          simp only [push, redactState, map_cons, redactFrame, hstack, setField_alike hfields hset]
      | array items =>
        cases frame' with
        | object fields' key' => simp [redactFrame] at hframe
        | array items' =>
          simp only [redactFrame, Frame.array.injEq] at hframe
          rcases hvalue with ⟨key, hkey, -⟩ | hvalue
          · cases hkey
          · simp only [push, redactState, map_cons, redactFrame, hstack, redactItems_append, hframe, redactItems, hvalue]

theorem closeObject_alike : (closeObject stack).map redactState = (closeObject stack').map redactState := by
  match stack, stack', h with
  | [], [], _ => rfl
  | .array _ :: _, .array _ :: _, _ => rfl
  | .object fields key :: rest, .object fields' key' :: rest', h =>
    simp only [map_cons, redactFrame, List.cons.injEq, Frame.object.injEq] at h
    have hvalue : redactJsonValues (.obj fields) = redactJsonValues (.obj fields') := by rw [redactJsonValues, redactJsonValues, h.1.1]
    exact congrArg some (push_alike h.2 (.inr hvalue))
  | .object _ _ :: _, .array _ :: _, h => simp [redactFrame] at h
  | .array _ :: _, .object _ _ :: _, h => simp [redactFrame] at h

theorem closeArray_alike : (closeArray stack).map redactState = (closeArray stack').map redactState := by
  match stack, stack', h with
  | [], [], _ => rfl
  | .object _ _ :: _, .object _ _ :: _, _ => rfl
  | .array items :: rest, .array items' :: rest', h =>
    simp only [map_cons, redactFrame, List.cons.injEq, Frame.array.injEq] at h
    have hvalue : redactJsonValues (.arr items) = redactJsonValues (.arr items') := by rw [redactJsonValues, redactJsonValues, h.1]
    exact congrArg some (push_alike h.2 (.inr hvalue))
  | .object _ _ :: _, .array _ :: _, h => simp [redactFrame] at h
  | .array _ :: _, .object _ _ :: _, h => simp [redactFrame] at h

theorem running_alike (mode : Mode) :
    redactState (.running stack mode) = redactState (.running stack' mode) := by rw [redactState, redactState, h]

theorem startValue_alike (c : Char) : (startValue stack c).map redactState = (startValue stack' c).map redactState := by
  unfold startValue
  split_ifs
  · exact congrArg some (running_alike (by simp only [map_cons, h]) _)
  · exact congrArg some (running_alike (by simp only [map_cons, h]) _)
  · exact congrArg some (running_alike h _)
  · exact congrArg some (running_alike h _)
  · rfl

theorem endString_alike (role : Role) (units : List Nat) :
    (endString stack role units).map redactState = (endString stack' role units).map redactState := by
  cases role with
  | value => exact congrArg some (push_alike h (.inr rfl))
  | key =>
    match stack, stack', h with
    | [], [], _ => rfl
    | .array _ :: _, .array _ :: _, _ => rfl
    | .object fields key :: rest, .object fields' key' :: rest', h =>
      simp only [map_cons, redactFrame, List.cons.injEq, Frame.object.injEq] at h
      exact congrArg some (running_alike (by simp only [map_cons, redactFrame, h.1.1, h.2]) _)
    | .object _ _ :: _, .array _ :: _, h => simp [redactFrame] at h
    | .array _ :: _, .object _ _ :: _, h => simp [redactFrame] at h

theorem stepAfter_alike (c : Char) : (stepAfter stack c).map redactState = (stepAfter stack' c).map redactState := by
  unfold stepAfter
  by_cases hblank : isBlank c = true
  · rw [if_pos hblank, if_pos hblank]
    exact congrArg some (running_alike h _)
  · rw [if_neg hblank, if_neg hblank]
    by_cases hcomma : c = ','
    · rw [if_pos hcomma, if_pos hcomma]
      match stack, stack', h with
      | [], [], _ => rfl
      | .array _ :: _, .array _ :: _, h => exact congrArg some (running_alike h _)
      | .object _ _ :: _, .object _ _ :: _, h => exact congrArg some (running_alike h _)
      | .object _ _ :: _, .array _ :: _, h => simp [redactFrame] at h
      | .array _ :: _, .object _ _ :: _, h => simp [redactFrame] at h
    · rw [if_neg hcomma, if_neg hcomma]
      split_ifs
      · exact closeObject_alike h
      · exact closeArray_alike h
      · rfl

theorem stepWord_alike (text : Text) (c : Char) : (stepWord stack text c).map redactState = (stepWord stack' text c).map redactState := by
  unfold stepWord
  by_cases hbare : isBare c = true
  · rw [if_pos hbare, if_pos hbare]
    exact congrArg some (running_alike h _)
  · rw [if_neg hbare, if_neg hbare]
    cases hword : ofWord text with
    | none => rfl
    | some value =>
      cases stack with
      | nil =>
        cases stack' with
        | nil => rfl
        | cons frame' stack' => simp at h
      | cons frame stack =>
        cases stack' with
        | nil => simp at h
        | cons frame' stack' =>
          have hpush := @push_alike _ _ value value h (.inr rfl)
          dsimp only
          revert hpush
          cases push value (frame :: stack) with
          | finished first =>
            cases push value (frame' :: stack') with
            | finished second => exact fun _ => rfl
            | running second mode => exact fun hpush => nomatch hpush
          | running first mode =>
            cases push value (frame' :: stack') with
            | finished second => exact fun hpush => nomatch hpush
            | running second mode' =>
              intro hpush
              simp only [redactState, State.running.injEq] at hpush
              exact stepAfter_alike hpush.1 c

theorem step_alike (mode : Mode) (c : Char) : (step stack mode c).map redactState = (step stack' mode c).map redactState := by
  cases mode with
  | value =>
    simp only [step]
    split_ifs
    · exact congrArg some (running_alike h _)
    · exact startValue_alike h c
  | firstItem =>
    simp only [step]
    split_ifs
    · exact congrArg some (running_alike h _)
    · exact closeArray_alike h
    · exact startValue_alike h c
  | firstKey =>
    simp only [step]
    split_ifs
    · exact congrArg some (running_alike h _)
    · exact closeObject_alike h
    · exact congrArg some (running_alike h _)
    · rfl
  | nextKey =>
    simp only [step]
    split_ifs
    · exact congrArg some (running_alike h _)
    · exact congrArg some (running_alike h _)
    · rfl
  | colon =>
    simp only [step]
    split_ifs
    · exact congrArg some (running_alike h _)
    · exact congrArg some (running_alike h _)
    · rfl
  | after => exact stepAfter_alike h c
  | string role units =>
    simp only [step, stepString]
    split_ifs
    · exact endString_alike h role units
    · exact congrArg some (running_alike h _)
    · rfl
    · exact congrArg some (running_alike h _)
  | escape role units =>
    simp only [step, stepEscape]
    split_ifs
    · exact congrArg some (running_alike h _)
    · cases escapedChar c with
      | none => rfl
      | some own => exact congrArg some (running_alike h _)
  | hex role units digits =>
    simp only [step, stepHex]
    cases hexValue c with
    | none => rfl
    | some digit =>
      simp only [Option.map_some]
      split_ifs
      · exact congrArg some (running_alike h _)
      · exact congrArg some (running_alike h _)
  | word text => exact stepWord_alike h text c

end

def Same : Option (Json × Text) → Option (Json × Text) → Prop
  | none, none => True
  | some (value, rest), some (value', rest') => redactJsonValues value = redactJsonValues value' ∧ rest = rest'
  | _, _ => False

theorem decodeFrom_alike (h : stack.map redactFrame = stack'.map redactFrame) (mode : Mode) (text : Text) :
    Same (decodeFrom stack mode text) (decodeFrom stack' mode text) := by
  induction text generalizing stack stack' mode with
  | nil => exact trivial
  | cons c text ih =>
    have hstep := step_alike h mode c
    rw [decodeFrom, decodeFrom]
    revert hstep
    cases step stack mode c with
    | none =>
      cases step stack' mode c with
      | none => exact fun _ => trivial
      | some next' => exact fun hstep => nomatch hstep
    | some next =>
      cases step stack' mode c with
      | none => exact fun hstep => nomatch hstep
      | some next' =>
        intro hstep
        simp only [Option.map_some, Option.some.injEq] at hstep
        cases next with
        | finished value =>
          cases next' with
          | running rest' mode' => cases hstep
          | finished value' =>
            simp only [redactState, State.finished.injEq] at hstep
            exact ⟨hstep, rfl⟩
        | running rest mode =>
          cases next' with
          | finished value' => cases hstep
          | running rest' mode' =>
            simp only [redactState, State.running.injEq] at hstep
            obtain ⟨hrest, rfl⟩ := hstep
            exact ih hrest mode

/-! ## Where the reading stands -/

def Open : State → Prop
  | .running stack _ => stack ≠ []
  | .finished _ => True

def InEscape : State → Prop
  | .running _ (.escape _ _) => True
  | _ => False

theorem push_open (value : Json) (stack : List Frame) : Open (push value stack) := by
  cases stack with
  | nil => trivial
  | cons frame stack => cases frame <;> exact cons_ne_nil _ _

theorem push_escape (value : Json) (stack : List Frame) : ¬ InEscape (push value stack) := by
  cases stack with
  | nil => exact id
  | cons frame stack => cases frame <;> exact id

variable {next : State} {c : Char} {mode : Mode}

theorem closeObject_eq (h : closeObject stack = some next) : ∃ value rest, next = push value rest := by
  match stack, h with
  | .object fields _ :: rest, h => exact ⟨.obj fields, rest, (Option.some.inj h).symm⟩

theorem closeArray_eq (h : closeArray stack = some next) : ∃ value rest, next = push value rest := by
  match stack, h with
  | .array items :: rest, h => exact ⟨.arr items, rest, (Option.some.inj h).symm⟩

def Sound (c : Char) (next : State) : Prop := Open next ∧ (InEscape next → c = '\\')

theorem Sound.push (c : Char) (value : Json) (stack : List Frame) : Sound c (push value stack) :=
  ⟨push_open value stack, fun h => absurd h (push_escape value stack)⟩

theorem startValue_sound (hopen : stack ≠ []) (h : startValue stack c = some next) : Sound c next := by
  unfold startValue at h
  split_ifs at h <;> cases h
  · exact ⟨cons_ne_nil _ _, elim⟩
  · exact ⟨cons_ne_nil _ _, elim⟩
  · exact ⟨hopen, elim⟩
  · exact ⟨hopen, elim⟩

theorem stepAfter_sound (hopen : stack ≠ []) (h : stepAfter stack c = some next) : Sound c next := by
  unfold stepAfter at h
  split_ifs at h
  · cases h
    exact ⟨hopen, elim⟩
  · match stack, h with
    | .object _ _ :: _, h =>
      cases h
      exact ⟨cons_ne_nil _ _, elim⟩
    | .array _ :: _, h =>
      cases h
      exact ⟨cons_ne_nil _ _, elim⟩
  · obtain ⟨value, rest, rfl⟩ := closeObject_eq h
    exact .push c value rest
  · obtain ⟨value, rest, rfl⟩ := closeArray_eq h
    exact .push c value rest

theorem endString_sound {role : Role} {units : List Nat} (h : endString stack role units = some next) : Sound c next := by
  cases role with
  | value =>
    cases h
    exact .push c _ stack
  | key =>
    match stack, h with
    | .object _ _ :: _, h =>
      cases h
      exact ⟨cons_ne_nil _ _, elim⟩

theorem stepWord_sound (hopen : stack ≠ []) {text : Text} (h : stepWord stack text c = some next) : Sound c next := by
  unfold stepWord at h
  split_ifs at h
  · cases h
    exact ⟨hopen, elim⟩
  · cases hword : ofWord text with
    | none => simp [hword] at h
    | some value =>
      cases stack with
      | nil => exact absurd rfl hopen
      | cons frame stack =>
        simp only [hword] at h
        have hpush := push_open value (frame :: stack)
        cases hstate : push value (frame :: stack) with
        | finished last => simp [hstate] at h
        | running rest mode =>
          rw [hstate] at h hpush
          exact stepAfter_sound hpush h

theorem step_sound (hopen : stack ≠ []) (h : step stack mode c = some next) : Sound c next := by
  cases mode with
  | value =>
    simp only [step] at h
    split_ifs at h
    · cases h
      exact ⟨hopen, elim⟩
    · exact startValue_sound hopen h
  | firstItem =>
    simp only [step] at h
    split_ifs at h
    · cases h
      exact ⟨hopen, elim⟩
    · obtain ⟨value, rest, rfl⟩ := closeArray_eq h
      exact .push c value rest
    · exact startValue_sound hopen h
  | firstKey =>
    simp only [step] at h
    split_ifs at h
    · cases h
      exact ⟨hopen, elim⟩
    · obtain ⟨value, rest, rfl⟩ := closeObject_eq h
      exact .push c value rest
    · cases h
      exact ⟨hopen, elim⟩
  | nextKey =>
    simp only [step] at h
    split_ifs at h <;> cases h <;> exact ⟨hopen, elim⟩
  | colon =>
    simp only [step] at h
    split_ifs at h <;> cases h <;> exact ⟨hopen, elim⟩
  | after => exact stepAfter_sound hopen h
  | string role units =>
    simp only [step, stepString] at h
    split_ifs at h with _ hslash
    · exact endString_sound h
    · cases h
      exact ⟨hopen, fun _ => hslash⟩
    · cases h
      exact ⟨hopen, elim⟩
  | escape role units =>
    simp only [step, stepEscape] at h
    split_ifs at h
    · cases h
      exact ⟨hopen, elim⟩
    · obtain ⟨own, -, rfl⟩ := Option.map_eq_some_iff.1 h
      exact ⟨hopen, elim⟩
  | hex role units digits =>
    simp only [step, stepHex] at h
    obtain ⟨digit, -, rfl⟩ := Option.map_eq_some_iff.1 h
    split_ifs
    · exact ⟨hopen, elim⟩
    · exact ⟨hopen, elim⟩
  | word text => exact stepWord_sound hopen h

/-! ## A key and its secret -/

inductive Spells : Text → Text → Prop
  | nil : Spells [] []
  | plain {c : Char} {spelled key : Text} : c ≠ '"' → c ≠ '\\' → isControl c = false → Spells spelled key → Spells (c :: spelled) (c :: key)
  | escaped {w x y z c : Char} {a b d e : Nat} {spelled key : Text} : hexValue w = some a → hexValue x = some b → hexValue y = some d →
      hexValue z = some e → ofHexDigits [a, b, d, e] = c.toNat → Spells spelled key → Spells ('\\' :: 'u' :: w :: x :: y :: z :: spelled) (c :: key)

def Plain (text : Text) : Prop := ∀ c ∈ text, c ≠ '"' ∧ c ≠ '\\' ∧ isControl c = false

inductive Body : Text → Prop
  | nil : Body []
  | plain {c : Char} {text : Text} : c ≠ '"' → c ≠ '\\' → ¬ c.toNat < 32 → Body text → Body (c :: text)
  | short {c own : Char} {text : Text} : escapedChar c = some own → Body text → Body ('\\' :: c :: text)
  | hex {w x y z : Char} {a b d e : Nat} {text : Text} : hexValue w = some a → hexValue x = some b → hexValue y = some d → hexValue z = some e →
      Body text → Body ('\\' :: 'u' :: w :: x :: y :: z :: text)

def Inside (part tail : Text) : Prop := Body part ∧ (∃ rest, tail = '"' :: rest) ∨ tail = [] ∧ ∃ more, Body (part ++ more)

def keyText (spelled gap gap' : Text) : Text := '"' :: (spelled ++ '"' :: (gap ++ ':' :: (gap' ++ ['"'])))

variable {spelled gap gap' text rest : Text} {role : Role} {units : List Nat}

theorem joinUnits_chars (text : Text) : joinUnits (text.map Char.toNat) = text := by
  have hunit : ∀ c : Char, isHigh c.toNat = false ∧ ofUnit c.toNat = c := by
    intro c
    have hvalid : c.toNat < 0xD800 ∨ 0xDFFF < c.toNat ∧ c.toNat < 0x110000 := c.valid
    have hhigh : isHigh c.toNat = false := by
      simp only [isHigh, Bool.and_eq_false_iff, decide_eq_false_iff_not]
      omega
    have hlow : isLow c.toNat = false := by
      simp only [isLow, Bool.and_eq_false_iff, decide_eq_false_iff_not]
      omega
    refine ⟨hhigh, ?_⟩
    rw [ofUnit, hhigh, hlow, Bool.or_false, if_neg Bool.false_ne_true, Char.ofNat_toNat]
  induction text with
  | nil => rfl
  | cons c text ih =>
    cases text with
    | nil =>
      simp only [map_cons, map_nil, joinUnits, (hunit c).2]
    | cons d text =>
      simp only [map_cons, joinUnits, (hunit c).1, Bool.false_and, Bool.false_eq_true, if_false, (hunit c).2]
      exact congrArg _ ih

theorem decode_char (hquote : c ≠ '"') (hslash : c ≠ '\\') (hlarge : ¬ c.toNat < 32) (rest : Text) :
    decodeFrom stack (.string role units) (c :: rest) = decodeFrom stack (.string role (units ++ [c.toNat])) rest := by
  have hstep : step stack (.string role units) c = some (.running stack (.string role (units ++ [c.toNat]))) := by
    rw [step, stepString, if_neg hquote, if_neg hslash, if_neg hlarge]
  rw [decodeFrom, hstep]

theorem decode_hex {w x y z : Char} {a b d e : Nat} (hw : hexValue w = some a) (hx : hexValue x = some b) (hy : hexValue y = some d)
    (hz : hexValue z = some e) (rest : Text) :
    decodeFrom stack (.string role units) ('\\' :: 'u' :: w :: x :: y :: z :: rest) =
      decodeFrom stack (.string role (units ++ [ofHexDigits [a, b, d, e]])) rest := by
  simp [decodeFrom, step, stepString, stepEscape, stepHex, hw, hx, hy, hz]

theorem decode_short {own : Char} (hown : escapedChar c = some own) (rest : Text) :
    decodeFrom stack (.string role units) ('\\' :: c :: rest) = decodeFrom stack (.string role (units ++ [own.toNat])) rest := by
  have hu : c ≠ 'u' := by
    rintro rfl
    cases hown
  simp [decodeFrom, step, stepString, stepEscape, hu, hown]

theorem decode_spelled {key : Text} (hspells : Spells spelled key) :
    decodeFrom stack (.string role units) (spelled ++ rest) = decodeFrom stack (.string role (units ++ key.map Char.toNat)) rest := by
  induction hspells generalizing units with
  | nil => rw [nil_append, map_nil, append_nil]
  | plain hquote hslash hcontrol _ ih =>
    have hlarge : ∀ c : Char, isControl c = false → ¬ c.toNat < 32 := by
      intro c hc hsmall
      simp [isControl, hsmall] at hc
    rw [cons_append, decode_char hquote hslash (hlarge _ hcontrol), ih, map_cons, append_assoc]
    rfl
  | escaped hw hx hy hz hc _ ih =>
    simp only [cons_append]
    rw [decode_hex hw hx hy hz, hc, ih, map_cons, append_assoc]
    rfl

theorem decode_body (hbody : Body text) (stack : List Frame) (role : Role) (units : List Nat) :
    ∃ read, ∀ rest, decodeFrom stack (.string role units) (text ++ rest) = decodeFrom stack (.string role read) rest := by
  induction hbody generalizing units with
  | nil => exact ⟨units, fun rest => rfl⟩
  | @plain c text hquote hslash hlarge _ ih =>
    obtain ⟨read, hread⟩ := ih (units ++ [c.toNat])
    exact ⟨read, fun rest => by rw [cons_append, decode_char hquote hslash hlarge, hread]⟩
  | @short c own text hown _ ih =>
    obtain ⟨read, hread⟩ := ih (units ++ [own.toNat])
    exact ⟨read, fun rest => by rw [cons_append, cons_append, decode_short hown, hread]⟩
  | @hex w x y z a b d e text hw hx hy hz _ ih =>
    obtain ⟨read, hread⟩ := ih (units ++ [ofHexDigits [a, b, d, e]])
    refine ⟨read, fun rest => ?_⟩
    simp only [cons_append]
    rw [decode_hex hw hx hy hz, hread]

theorem decodeFrom_append (h : decodeFrom stack mode text = some (value, rest)) (more : Text) :
    decodeFrom stack mode (text ++ more) = some (value, rest ++ more) := by
  induction text generalizing stack mode with
  | nil => cases h
  | cons c text ih =>
    rw [decodeFrom] at h
    rw [cons_append, decodeFrom]
    cases hstep : step stack mode c with
    | none => simp [hstep] at h
    | some next =>
      rw [hstep] at h
      cases next with
      | finished last =>
        cases h
        rfl
      | running next mode => exact ih h

theorem decode_part {part more : Text} (hbody : Body (part ++ more)) : decodeFrom stack (.string role units) part = none := by
  cases hread : decodeFrom stack (.string role units) part with
  | none => rfl
  | some result =>
    obtain ⟨read, hwhole⟩ := decode_body hbody stack role units
    have hmore := hwhole []
    rw [append_nil, decodeFrom_append hread] at hmore
    cases hmore

theorem decode_blanks (hstay : ∀ c, isBlank c = true → step stack mode c = some (.running stack mode)) (hgap : gap.all isBlank = true) :
    decodeFrom stack mode (gap ++ rest) = decodeFrom stack mode rest := by
  induction gap with
  | nil => rfl
  | cons c gap ih =>
    simp only [all_cons, Bool.and_eq_true] at hgap
    rw [cons_append, decodeFrom, hstay c hgap.1]
    exact ih hgap.2

/-! ## Coming to the key -/

theorem sensitive_ne {key : Text} (hkey : isSensitive key = true) {x : Char} (hc : c ∈ key) (hx : ∀ word ∈ sensitiveJsonKeys, x.toLower ∉ word) :
    c ≠ x := by
  rintro rfl
  have hmem : key.map Char.toLower ∈ sensitiveJsonKeys := contains_iff_mem.1 hkey
  exact hx _ hmem (mem_map.2 ⟨c, hc, rfl⟩)

theorem spelled_first {key : Text} (hspells : Spells spelled key) (hkey : isSensitive key = true) :
    ∃ f later, spelled = f :: later ∧ isBlank f = false ∧ f ≠ ':' ∧ f ≠ ',' ∧ f ≠ '}' ∧ f ≠ ']' := by
  cases hspells with
  | nil => exact absurd hkey (by decide)
  | @plain c spelled key _ _ _ _ =>
    have hne : ∀ x : Char, (∀ word ∈ sensitiveJsonKeys, x.toLower ∉ word) → c ≠ x := fun x hx => sensitive_ne hkey mem_cons_self hx
    refine ⟨c, spelled, rfl, ?_, hne ':' (by decide), hne ',' (by decide), hne '}' (by decide), hne ']' (by decide)⟩
    simp [isBlank, hne ' ' (by decide), hne '\t' (by decide), hne '\n' (by decide), hne '\r' (by decide)]
  | escaped => exact ⟨'\\', _, rfl, by decide, by decide, by decide, by decide, by decide⟩

theorem push_cons (value : Json) (frame : Frame) (stack : List Frame) : ∃ next, push value (frame :: stack) = .running next .after := by
  cases frame with
  | object fields key => exact ⟨_, rfl⟩
  | array items => exact ⟨_, rfl⟩

theorem after_colon (hgap : gap.all isBlank = true) (tail : Text) : decodeFrom stack .after (gap ++ ':' :: tail) = none := by
  have hstay : ∀ c, isBlank c = true → step stack .after c = some (.running stack .after) := fun c hc => by simp [step, stepAfter, hc]
  have hstep : step stack .after ':' = none := by simp [step, stepAfter, isBlank]
  rw [decode_blanks hstay hgap, decodeFrom, hstep]

theorem after_letter {f : Char} (hblank : isBlank f = false) (hcomma : f ≠ ',') (hbrace : f ≠ '}') (hbracket : f ≠ ']') (tail : Text) :
    decodeFrom stack .after (f :: tail) = none := by
  have hstep : step stack .after f = none := by simp [step, stepAfter, hblank, hcomma, hbrace, hbracket]
  rw [decodeFrom, hstep]

theorem colon_letter {f : Char} (hblank : isBlank f = false) (hcolon : f ≠ ':') (tail : Text) : decodeFrom stack .colon (f :: tail) = none := by
  have hstep : step stack .colon f = none := by simp [step, hblank, hcolon]
  rw [decodeFrom, hstep]

theorem value_key {key : Text} (hopen : stack ≠ []) (hspells : Spells spelled key) (hgap : gap.all isBlank = true) (tail : Text) :
    decodeFrom stack (.string .value []) (spelled ++ '"' :: (gap ++ ':' :: tail)) = none := by
  cases stack with
  | nil => exact absurd rfl hopen
  | cons frame stack =>
    obtain ⟨next, hnext⟩ := push_cons (.str (joinUnits ([] ++ key.map Char.toNat))) frame stack
    have hstep : step (frame :: stack) (.string .value ([] ++ key.map Char.toNat)) '"' = some (.running next .after) := by
      rw [step, stepString, if_pos rfl, endString, hnext]
    rw [decode_spelled hspells, decodeFrom, hstep]
    exact after_colon hgap tail

theorem read_key {key : Text} (hspells : Spells spelled key) (hgap : gap.all isBlank = true) (hgap' : gap'.all isBlank = true)
    (fields : List (Text × Json)) (before : Text) (stack : List Frame) (tail : Text) :
    decodeFrom (.object fields before :: stack) (.string .key []) (spelled ++ '"' :: (gap ++ ':' :: (gap' ++ '"' :: tail))) =
      decodeFrom (.object fields key :: stack) (.string .value []) tail := by
  have hquote : step (.object fields before :: stack) (.string .key ([] ++ key.map Char.toNat)) '"' =
      some (.running (.object fields key :: stack) .colon) := by
    rw [nil_append, step, stepString, if_pos rfl, endString, joinUnits_chars]
  have hstay : ∀ c, isBlank c = true → step (.object fields key :: stack) .colon c = some (.running (.object fields key :: stack) .colon) :=
    fun c hc => by rw [step, if_pos hc]
  have hcolon : step (.object fields key :: stack) .colon ':' = some (.running (.object fields key :: stack) .value) := by simp [step, isBlank]
  have hstay' : ∀ c, isBlank c = true → step (.object fields key :: stack) .value c = some (.running (.object fields key :: stack) .value) :=
    fun c hc => by rw [step, if_pos hc]
  have hbegin : step (.object fields key :: stack) .value '"' = some (.running (.object fields key :: stack) (.string .value [])) := by
    simp [step, isBlank, startValue]
  rw [decode_spelled hspells, decodeFrom, hquote]
  dsimp only
  rw [decode_blanks hstay hgap, decodeFrom, hcolon]
  dsimp only
  rw [decode_blanks hstay' hgap', decodeFrom, hbegin]

theorem decode_key {key : Text} (hspells : Spells spelled key) (hkey : isSensitive key = true) (hgap : gap.all isBlank = true)
    (hgap' : gap'.all isBlank = true) (hopen : stack ≠ []) (hmode : ¬ InEscape (.running stack mode)) :
    (∀ tail, decodeFrom stack mode (keyText spelled gap gap' ++ tail) = none) ∨
      ∃ fields rest, ∀ tail, decodeFrom stack mode (keyText spelled gap gap' ++ tail) = decodeFrom (.object fields key :: rest) (.string .value []) tail := by
  have hshape : ∀ tail, keyText spelled gap gap' ++ tail = '"' :: (spelled ++ '"' :: (gap ++ ':' :: (gap' ++ '"' :: tail))) := by
    intro tail
    simp [keyText]
  obtain ⟨f, later, hfirst, hblank, hcolon, hcomma, hbrace, hbracket⟩ := spelled_first hspells hkey
  simp only [hshape]
  cases mode with
  | value =>
    refine .inl fun tail => ?_
    have hstep : step stack .value '"' = some (.running stack (.string .value [])) := by simp [step, isBlank, startValue]
    rw [decodeFrom, hstep]
    exact value_key hopen hspells hgap _
  | firstItem =>
    refine .inl fun tail => ?_
    have hstep : step stack .firstItem '"' = some (.running stack (.string .value [])) := by simp [step, isBlank, startValue]
    rw [decodeFrom, hstep]
    exact value_key hopen hspells hgap _
  | firstKey =>
    have hstep : step stack .firstKey '"' = some (.running stack (.string .key [])) := by simp [step, isBlank]
    match stack with
    | .object fields before :: rest =>
      refine .inr ⟨fields, rest, fun tail => ?_⟩
      rw [decodeFrom, hstep]
      exact read_key hspells hgap hgap' fields before rest tail
    | .array items :: rest =>
      refine .inl fun tail => ?_
      have hend : step (.array items :: rest) (.string .key ([] ++ key.map Char.toNat)) '"' = none := by simp [step, stepString, endString]
      rw [decodeFrom, hstep]
      dsimp only
      rw [decode_spelled hspells, decodeFrom, hend]
  | nextKey =>
    have hstep : step stack .nextKey '"' = some (.running stack (.string .key [])) := by simp [step, isBlank]
    match stack with
    | .object fields before :: rest =>
      refine .inr ⟨fields, rest, fun tail => ?_⟩
      rw [decodeFrom, hstep]
      exact read_key hspells hgap hgap' fields before rest tail
    | .array items :: rest =>
      refine .inl fun tail => ?_
      have hend : step (.array items :: rest) (.string .key ([] ++ key.map Char.toNat)) '"' = none := by simp [step, stepString, endString]
      rw [decodeFrom, hstep]
      dsimp only
      rw [decode_spelled hspells, decodeFrom, hend]
  | colon =>
    have hstep : step stack .colon '"' = none := by simp [step, isBlank]
    exact .inl fun tail => by rw [decodeFrom, hstep]
  | after =>
    have hstep : step stack .after '"' = none := by simp [step, stepAfter, isBlank]
    exact .inl fun tail => by rw [decodeFrom, hstep]
  | string role units =>
    refine .inl fun tail => ?_
    rw [decodeFrom, step, stepString, if_pos rfl, hfirst, cons_append]
    match stack, role with
    | frame :: stack, .value =>
      obtain ⟨next, hnext⟩ := push_cons (.str (joinUnits units)) frame stack
      rw [endString, hnext]
      exact after_letter hblank hcomma hbrace hbracket _
    | .object fields before :: rest, .key => exact colon_letter hblank hcolon _
    | .array items :: rest, .key => rfl
  | escape role units => exact absurd trivial hmode
  | hex role units digits =>
    have hstep : step stack (.hex role units digits) '"' = none := by simp [step, stepHex, hexValue]
    exact .inl fun tail => by rw [decodeFrom, hstep]
  | word word =>
    have hstep : step stack (.word word) '"' = none := by
      have hbare : isBare '"' = false := by decide
      simp only [step, stepWord, hbare, Bool.false_eq_true, if_false]
      cases ofWord word with
      | none => rfl
      | some value =>
        cases stack with
        | nil => rfl
        | cons frame stack =>
          obtain ⟨next, hnext⟩ := push_cons value frame stack
          simp only [hnext]
          simp [stepAfter, isBlank]
    exact .inl fun tail => by rw [decodeFrom, hstep]

/-! ## Scanning up to the key -/

theorem decodeFrom_consumes (h : decodeFrom stack mode text = some (value, rest)) : ∃ c used, text = c :: (used ++ rest) := by
  induction text generalizing stack mode with
  | nil => cases h
  | cons c text ih =>
    rw [decodeFrom] at h
    cases hstep : step stack mode c with
    | none => simp [hstep] at h
    | some next =>
      rw [hstep] at h
      cases next with
      | finished last =>
        cases h
        exact ⟨c, [], rfl⟩
      | running next mode =>
        obtain ⟨d, used, rfl⟩ := ih h
        exact ⟨c, d :: used, rfl⟩

theorem decode_secret {key part part' tail : Text} (hspells : Spells spelled key) (hkey : isSensitive key = true) (hgap : gap.all isBlank = true)
    (hgap' : gap'.all isBlank = true) (hopen : stack ≠ []) (hmode : ¬ InEscape (.running stack mode)) (hpart : Inside part tail)
    (hpart' : Inside part' tail) :
    Same (decodeFrom stack mode (keyText spelled gap gap' ++ (part ++ tail))) (decodeFrom stack mode (keyText spelled gap gap' ++ (part' ++ tail))) ∧
      ∀ value rest, decodeFrom stack mode (keyText spelled gap gap' ++ (part ++ tail)) = some (value, rest) → rest.length < tail.length := by
  rcases decode_key hspells hkey hgap hgap' hopen hmode with hnone | ⟨fields, below, hread⟩
  · rw [hnone, hnone]
    exact ⟨trivial, fun _ _ h => nomatch h⟩
  · rw [hread, hread]
    rcases hpart with ⟨hbody, after, rfl⟩ | ⟨rfl, more, hbody⟩
    · rcases hpart' with ⟨hbody', -⟩ | ⟨hnone, -⟩
      · obtain ⟨units, hunits⟩ := decode_body hbody (.object fields key :: below) .value []
        obtain ⟨units', hunits'⟩ := decode_body hbody' (.object fields key :: below) .value []
        have hstep : ∀ units, step (.object fields key :: below) (.string .value units) '"' =
            some (.running (.object (setField key (.str (joinUnits units)) fields) key :: below) .after) := by
          intro units
          rw [step, stepString, if_pos rfl, endString, push]
        rw [hunits, hunits', decodeFrom, hstep, decodeFrom, hstep]
        refine ⟨decodeFrom_alike ?_ .after after, fun value rest h => ?_⟩
        · rw [map_cons, map_cons, redactFrame, redactFrame, setField_alike rfl (.inl hkey)]
        · obtain ⟨c, used, rfl⟩ := decodeFrom_consumes h
          simp only [length_cons, length_append]
          omega
      · cases hnone
    · rcases hpart' with ⟨-, after, hnone⟩ | ⟨-, more', hbody'⟩
      · cases hnone
      · rw [append_nil, append_nil, decode_part hbody, decode_part hbody']
        exact ⟨trivial, fun _ _ h => nomatch h⟩

theorem rawDecode_eq (c : Char) (text : Text) : rawDecode (c :: text) = none ∧ c ≠ '{' ∧ c ≠ '[' ∨
      ∃ frame mode, (∀ text, rawDecode (c :: text) = decodeFrom [frame] mode text) ∧ ¬ InEscape (.running [frame] mode) := by
  by_cases hobject : c = '{'
  · exact .inr ⟨.object [] [], .firstKey, fun text => by rw [rawDecode, if_pos hobject], id⟩
  · by_cases harray : c = '['
    · exact .inr ⟨.array [], .firstItem, fun text => by rw [rawDecode, if_neg hobject, if_pos harray], id⟩
    · exact .inl ⟨by rw [rawDecode, if_neg hobject, if_neg harray], hobject, harray⟩

theorem rawDecode_plain (hobject : c ≠ '{') (harray : c ≠ '[') (text : Text) : rawDecode (c :: text) = none := by
  rw [rawDecode, if_neg hobject, if_neg harray]

theorem findFragment_consumes (floatRepr : Text → Text) : Lib.Replace.Consumes (findFragment floatRepr) := by
  intro text new rest h
  obtain ⟨⟨value, after⟩, hdecode, heq⟩ := Option.map_eq_some_iff.1 h
  cases heq
  cases text with
  | nil => cases hdecode
  | cons c text =>
    rcases rawDecode_eq c text with ⟨hnone, -⟩ | ⟨frame, mode, hread, -⟩
    · rw [hnone] at hdecode
      cases hdecode
    · rw [hread] at hdecode
      obtain ⟨d, used, rfl⟩ := decodeFrom_consumes hdecode
      exact ⟨c, d :: used, rfl⟩

def Calm (text : Text) : Prop := ∀ front, text ≠ front ++ ['\\']

theorem Calm.of_suffix {back : Text} (h : Calm text) (hback : back <:+ text) : Calm back := by
  rintro front rfl
  obtain ⟨before, rfl⟩ := hback
  exact h (before ++ front) (append_assoc ..).symm

structure Twins where
  spelled : Text
  key : Text
  gap : Text
  gap' : Text
  part : Text
  part' : Text
  tail : Text
  spells : Spells spelled key
  sensitive : isSensitive key = true
  blank : gap.all isBlank = true
  blank' : gap'.all isBlank = true
  inside : Inside part tail
  inside' : Inside part' tail

namespace Twins

def first (twins : Twins) : Text := keyText twins.spelled twins.gap twins.gap' ++ (twins.part ++ twins.tail)

def second (twins : Twins) : Text := keyText twins.spelled twins.gap twins.gap' ++ (twins.part' ++ twins.tail)

theorem decodeFrom_front (twins : Twins) {front : Text} (hcalm : Calm front) (hopen : stack ≠ []) {mode : Mode}
    (hmode : front = [] → ¬ InEscape (.running stack mode)) :
    (Same (decodeFrom stack mode (front ++ twins.first)) (decodeFrom stack mode (front ++ twins.second)) ∧
        ∀ value rest, decodeFrom stack mode (front ++ twins.first) = some (value, rest) → rest.length < twins.tail.length) ∨
      ∃ value back, back <:+ front ∧ decodeFrom stack mode (front ++ twins.first) = some (value, back ++ twins.first) ∧
        decodeFrom stack mode (front ++ twins.second) = some (value, back ++ twins.second) := by
  induction front generalizing stack mode with
  | nil =>
    exact .inl (decode_secret twins.spells twins.sensitive twins.blank twins.blank' hopen (hmode rfl) twins.inside twins.inside')
  | cons c front ih =>
    rw [cons_append, cons_append, decodeFrom, decodeFrom]
    cases hstep : step stack mode c with
    | none => exact .inl ⟨trivial, fun _ _ h => nomatch h⟩
    | some next =>
      obtain ⟨hnext, hescape⟩ := step_sound hopen hstep
      cases next with
      | finished value => exact .inr ⟨value, front, suffix_cons c front, rfl, rfl⟩
      | running rest mode' =>
        have hmode' : front = [] → ¬ InEscape (.running rest mode') := by
          rintro rfl hin
          exact hcalm [] (by rw [hescape hin]; rfl)
        rcases ih (hcalm.of_suffix (suffix_cons c front)) hnext hmode' with hsame | ⟨value, back, hback, hfirst, hsecond⟩
        · exact .inl hsame
        · exact .inr ⟨value, back, hback.trans (suffix_cons c front), hfirst, hsecond⟩

theorem findFragment_front (twins : Twins) (floatRepr : Text → Text) {c : Char} {front : Text} (hcalm : Calm (c :: front)) :
    (findFragment floatRepr (c :: front ++ twins.first) = none ∧ findFragment floatRepr (c :: front ++ twins.second) = none) ∨
      (∃ new rest, rest.length < twins.tail.length ∧ findFragment floatRepr (c :: front ++ twins.first) = some (new, rest) ∧
        findFragment floatRepr (c :: front ++ twins.second) = some (new, rest)) ∨
      ∃ new back, back <:+ front ∧ findFragment floatRepr (c :: front ++ twins.first) = some (new, back ++ twins.first) ∧
        findFragment floatRepr (c :: front ++ twins.second) = some (new, back ++ twins.second) := by
  rw [findFragment, findFragment, cons_append, cons_append]
  rcases rawDecode_eq c front with ⟨-, hobject, harray⟩ | ⟨frame, mode, hread, hmode⟩
  · exact .inl ⟨by rw [rawDecode_plain hobject harray]; rfl, by rw [rawDecode_plain hobject harray]; rfl⟩
  · rw [hread, hread]
    rcases twins.decodeFrom_front (hcalm.of_suffix (suffix_cons c front)) (cons_ne_nil frame []) (fun _ => hmode) with
      ⟨hsame, hshort⟩ | ⟨value, back, hback, hfirst, hsecond⟩
    · match hfirst : decodeFrom [frame] mode (front ++ twins.first), hsecond : decodeFrom [frame] mode (front ++ twins.second) with
      | none, none => exact .inl ⟨rfl, rfl⟩
      | some (value, rest), some (value', rest') =>
        rw [hfirst, hsecond] at hsame
        obtain ⟨hvalue, rfl⟩ := hsame
        exact .inr (.inl ⟨_, rest, hshort value rest hfirst, rfl, by rw [Option.map_some, hvalue]⟩)
      | none, some _ =>
        rw [hfirst, hsecond] at hsame
        exact hsame.elim
      | some _, none =>
        rw [hfirst, hsecond] at hsame
        exact hsame.elim
    · exact .inr (.inr ⟨_, back, hback, by rw [hfirst]; rfl, by rw [hsecond]; rfl⟩)

theorem redactJsonFragments_front (twins : Twins) (floatRepr : Text → Text) {front : Text} (hcalm : Calm front) :
    redactJsonFragments floatRepr (front ++ twins.first) = redactJsonFragments floatRepr (front ++ twins.second) ∨
      Lib.Replace.Reaches (findFragment floatRepr) (front ++ twins.first) twins.first ∧
        ∃ new, redactJsonFragments floatRepr (front ++ twins.first) = new ++ redactJsonFragments floatRepr twins.first ∧
          redactJsonFragments floatRepr (front ++ twins.second) = new ++ redactJsonFragments floatRepr twins.second := by
  have hrun := @Lib.Replace.replaceAll_agree _ _ (findFragment_consumes floatRepr)
    (fun text other => text = other ∨ ∃ front, Calm front ∧ text = front ++ twins.first ∧ other = front ++ twins.second)
    (fun text other => text = other ∨ text = twins.first ∧ other = twins.second) ?_
    (front ++ twins.first) (front ++ twins.second) (.inr ⟨front, hcalm, rfl, rfl⟩)
  · obtain ⟨new, rest, rest', hdone, hreaches, hfirst, hsecond⟩ := hrun
    rcases hdone with rfl | ⟨rfl, rfl⟩
    · exact .inl (hfirst.trans hsecond.symm)
    · exact .inr ⟨hreaches, new, hfirst, hsecond⟩
  · rintro text other (rfl | ⟨front, hcalm, rfl, rfl⟩)
    · exact .inl (.inl rfl)
    · cases front with
      | nil => exact .inl (.inr ⟨rfl, rfl⟩)
      | cons c front =>
        have hrest := hcalm.of_suffix (suffix_cons c front)
        rcases twins.findFragment_front floatRepr hcalm with ⟨hfirst, hsecond⟩ | ⟨new, rest, -, hfirst, hsecond⟩ | ⟨new, back, hback, hfirst, hsecond⟩
        · exact .inr (.inl ⟨c, _, _, rfl, rfl, hfirst, hsecond, .inr ⟨front, hrest, rfl, rfl⟩⟩)
        · exact .inr (.inr ⟨new, rest, rest, hfirst, hsecond, .inl rfl⟩)
        · exact .inr (.inr ⟨new, _, _, hfirst, hsecond, .inr ⟨back, hrest.of_suffix hback, rfl, rfl⟩⟩)

end Twins

end RalphWorkflow.Parsers.Template
