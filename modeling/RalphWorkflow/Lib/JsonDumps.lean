import RalphWorkflow.Lib.Json

/-! `json.loads` reads back what `json.dumps` wrote, and a text put together from beginnings of written objects is no
object unless it is one of them whole. -/
namespace RalphWorkflow.Lib.Json
open List

variable {Number : Type} [Spelling Number]

/-! ## Runs through states of one kind -/

/-- The text leads from one state to the other, and until its last character every state is in `P`. -/
def Within (P : State Number → Prop) : State Number → Text → State Number → Prop
  | state, [], final => state = final
  | state, c :: text, final => P state ∧ ∃ next, step state c = some next ∧ Within P next text final

variable {P Q : State Number → Prop} {state middle final : State Number} {first second text : Text} {c : Char}
  {stack : List (Frame Number)} {role : Role}

theorem Within.single (hstate : P state) (hstep : step state c = some final) : Within P state [c] final :=
  ⟨hstate, final, hstep, rfl⟩

theorem Within.trans (hfirst : Within P state first middle) (hsecond : Within P middle second final) : Within P state (first ++ second) final := by
  induction first generalizing state with
  | nil =>
    have hsame : state = middle := hfirst
    exact hsame ▸ hsecond
  | cons c first ih =>
    obtain ⟨hstate, next, hstep, hrest⟩ := hfirst
    exact ⟨hstate, next, hstep, ih hrest⟩

theorem Within.mono (hkinds : ∀ state, P state → Q state) (hwithin : Within P state text final) : Within Q state text final := by
  induction text generalizing state with
  | nil => exact hwithin
  | cons c text ih =>
    obtain ⟨hstate, next, hstep, hrest⟩ := hwithin
    exact ⟨hkinds state hstate, next, hstep, ih hrest⟩

theorem Within.run (hwithin : Within P state text final) : run state text = some final := by
  induction text generalizing state with
  | nil => exact congrArg some hwithin
  | cons c text ih =>
    obtain ⟨-, next, hstep, hrest⟩ := hwithin
    rw [Json.run, hstep, Option.bind_some]
    exact ih hrest

theorem Within.run_prefix (hwithin : Within P state (first ++ second) final) (hsecond : second ≠ []) :
    ∃ middle, Json.run state first = some middle ∧ P middle := by
  induction first generalizing state with
  | nil =>
    obtain ⟨c, second, rfl⟩ := exists_cons_of_ne_nil hsecond
    exact ⟨state, rfl, hwithin.1⟩
  | cons c first ih =>
    obtain ⟨-, next, hstep, hrest⟩ := hwithin
    obtain ⟨middle, hrun, hmiddle⟩ := ih hrest
    exact ⟨middle, by rw [Json.run, hstep, Option.bind_some, hrun], hmiddle⟩

theorem run_append (state : State Number) (first second : Text) :
    run state (first ++ second) = (run state first).bind fun middle => run middle second := by
  induction first generalizing state with
  | nil => rfl
  | cons c first ih =>
    rw [cons_append, run, run]
    cases step state c with
    | none => rfl
    | some next => exact ih next

/-! ## Strings -/

def OnStack (stack : List (Frame Number)) (state : State Number) : Prop := ∃ mode, state = .running stack mode

omit [Spelling Number] in
theorem onStack (stack : List (Frame Number)) (mode : Mode) : OnStack stack (.running stack mode) := ⟨mode, rfl⟩

variable {n : Nat} {mode : Mode}

theorem hexValue_hexDigit (hn : n < 16) : hexValue (hexDigit n) = some n := by
  have hall : ∀ m : Fin 16, hexValue (hexDigit m) = some m.val := by decide
  exact hall ⟨n, hn⟩

theorem step_hex {digits : List Nat} {high : Option Nat} (n : Nat) (hshort : digits.length < 3) :
    step (.running stack (.hex role text digits high)) (hexDigit (n % 16)) =
      some (.running stack (.hex role text (digits ++ [n % 16]) high)) := by
  have hdigit := hexValue_hexDigit (Nat.mod_lt n (by decide : 0 < 16))
  simp only [step, stepHex, hdigit, length_append, length_singleton]
  exact if_pos (by omega)

theorem within_hex4 (hn : n < 0x10000) {high : Option Nat} (hends : endHex role text n high = some mode) :
    Within (OnStack stack) (.running stack (.hex role text [] high)) (hex4 n) (.running stack mode) := by
  have hdigits : ofHexDigits [n / 4096 % 16, n / 256 % 16, n / 16 % 16, n % 16] = n := by
    simp only [ofHexDigits, foldl_cons, foldl_nil]
    omega
  have hlast : step (.running stack (.hex role text [n / 4096 % 16, n / 256 % 16, n / 16 % 16] high))
      (hexDigit (n % 16)) = some (.running stack mode) := by
    have hdigit := hexValue_hexDigit (Nat.mod_lt n (by decide : 0 < 16))
    simp [step, stepHex, hdigit, hdigits, hends]
  exact ⟨onStack _ _, _, step_hex _ (by decide), onStack _ _, _, step_hex _ (Nat.lt_add_one_of_le (by simp)),
    onStack _ _, _, step_hex _ (by simp), onStack _ _, _, hlast, rfl⟩

theorem within_unicodeEscape (hn : n < 0x10000) (hends : endHex role text n none = some mode) :
    Within (OnStack stack) (.running stack (.string role text)) (unicodeEscape n) (.running stack mode) := by
  refine ⟨onStack _ _, .running stack (.escape role text), ?_, onStack _ _, .running stack (.hex role text [] none), ?_,
    within_hex4 hn hends⟩
  · simp [step, stepString]
  · simp [step, stepEscape]

theorem within_lowEscape {high : Nat} (hn : n < 0x10000) (hends : endHex role text n (some high) = some mode) :
    Within (OnStack stack) (.running stack (.lowEscape role text high)) (unicodeEscape n) (.running stack mode) := by
  refine ⟨onStack _ _, .running stack (.lowHex role text high), ?_, onStack _ _,
    .running stack (.hex role text [] (some high)), ?_, within_hex4 hn hends⟩
  · simp [step]
  · simp [step]

theorem within_shortEscape {own : Char} (hown : escapedChar c = some own) (hc : c ≠ 'u') :
    Within (OnStack stack) (.running stack (.string role text)) ['\\', c]
      (.running stack (.string role (text ++ [own]))) := by
  refine ⟨onStack _ _, .running stack (.escape role text), ?_, onStack _ _, _, ?_, rfl⟩
  · simp [step, stepString]
  · simp [step, stepEscape, hc, hown]

theorem toNat_valid (c : Char) : c.toNat < 0xD800 ∨ 0xDFFF < c.toNat ∧ c.toNat < 0x110000 := c.valid

theorem within_escapeChar (c : Char) : Within (OnStack stack) (.running stack (.string role text)) (escapeChar c)
      (.running stack (.string role (text ++ [c]))) := by
  unfold escapeChar
  split_ifs with hquote hslash hn hr ht hf hb hplain hshort
  · subst hquote
    exact within_shortEscape rfl (by decide)
  · subst hslash
    exact within_shortEscape rfl (by decide)
  · subst hn
    exact within_shortEscape rfl (by decide)
  · subst hr
    exact within_shortEscape rfl (by decide)
  · subst ht
    exact within_shortEscape rfl (by decide)
  · subst hf
    exact within_shortEscape rfl (by decide)
  · subst hb
    exact within_shortEscape rfl (by decide)
  · refine Within.single (onStack _ _) ?_
    have hprintable : ¬ c.toNat < 32 := Nat.not_lt.mpr hplain.1
    simp [step, stepString, hquote, hslash, hprintable]
  · refine within_unicodeEscape hshort ?_
    have hvalid := toNat_valid c
    have hhigh : isHigh c.toNat = false := by
      simp only [isHigh, Bool.and_eq_false_iff, decide_eq_false_iff_not]
      omega
    have hlow : isLow c.toNat = false := by
      simp only [isLow, Bool.and_eq_false_iff, decide_eq_false_iff_not]
      omega
    simp [endHex, hhigh, hlow, Char.ofNat_toNat]
  · -- a pair: the halves give the character back
    have hvalid := toNat_valid c
    have hhigh : isHigh (0xD800 + (c.toNat - 0x10000) / 0x400) = true := by
      simp only [isHigh, Bool.and_eq_true, decide_eq_true_eq]
      omega
    have hlow : isLow (0xDC00 + (c.toNat - 0x10000) % 0x400) = true := by
      simp only [isLow, Bool.and_eq_true, decide_eq_true_eq]
      omega
    have hwhole : 0x10000 + (0xD800 + (c.toNat - 0x10000) / 0x400 - 0xD800) * 0x400 +
        (0xDC00 + (c.toNat - 0x10000) % 0x400 - 0xDC00) = c.toNat := by omega
    refine (within_unicodeEscape (by omega) (if_pos hhigh)).trans (within_lowEscape (by omega) ?_)
    rw [endHex, if_pos hlow, hwhole, Char.ofNat_toNat]

theorem within_escaped (own : Text) : Within (OnStack stack) (.running stack (.string role text)) (own.flatMap escapeChar)
      (.running stack (.string role (text ++ own))) := by
  induction own generalizing text with
  | nil =>
    rw [append_nil]
    exact rfl
  | cons c own ih =>
    rw [flatMap_cons, append_cons]
    exact (within_escapeChar c).trans ih

/-! ## Objects -/

def Inside (stack : List (Frame Number)) (state : State Number) : Prop :=
  ∃ fields key mode, state = .running (.object fields key :: stack) mode

omit [Spelling Number] in
theorem inside (fields : List (Text × Value Number)) (key : Text) (stack : List (Frame Number)) (mode : Mode) :
    Inside stack (.running (.object fields key :: stack) mode) := ⟨fields, key, mode, rfl⟩

omit [Spelling Number] in
theorem OnStack.inside {fields : List (Text × Value Number)} {key : Text} :
    ∀ state : State Number, OnStack (.object fields key :: stack) state → Inside stack state := by
  rintro state ⟨mode, rfl⟩
  exact Json.inside fields key stack mode

/-- The value has been read, and the next character that belongs to no word closes it. -/
def Ready (stack : List (Frame Number)) (value : Value Number) (state : State Number) : Prop :=
  ∀ c, isBare c = false → step state c = stepAfter (push value stack) c

theorem within_string (own : Text) {final : State Number} (hopen : step (.running stack mode) '"' = some (.running stack (.string role [])))
    (hclose : endString stack role own = some final) :
    Within (OnStack stack) (.running stack mode) (dumpsString own) final := by
  refine ⟨onStack _ _, .running stack (.string role []), hopen, (within_escaped own).trans ?_⟩
  refine Within.single (onStack _ _) ?_
  rw [nil_append]
  simpa [step, stepString] using hclose

theorem within_bare {word : Text} (hbare : ∀ c ∈ word, isBare c = true) (read : Text) :
    Within (OnStack stack) (.running stack (.word read)) word (.running stack (.word (read ++ word))) := by
  induction word generalizing read with
  | nil =>
    rw [append_nil]
    exact rfl
  | cons c word ih =>
    obtain ⟨hc, hrest⟩ := forall_mem_cons.mp hbare
    refine ⟨onStack _ _, .running stack (.word (read ++ [c])), ?_, ?_⟩
    · simp [step, hc]
    · have hread := ih hrest (read ++ [c])
      rwa [append_assoc, singleton_append] at hread

theorem ready_word {word : Text} {value : Value Number} (hends : endWord stack word = some (push value stack)) :
    Ready stack value (.running stack (.word word)) := by
  intro c hc
  simp [step, hc, hends]

theorem isBare_not (c : Char) (hc : isBare c = true) : isBlank c = false ∧ c ≠ '{' ∧ c ≠ '[' ∧ c ≠ '"' := by
  refine ⟨?_, ?_, ?_, ?_⟩
  · by_contra hblank
    simp only [isBlank, Bool.not_eq_false, Bool.or_eq_true, beq_iff_eq, or_assoc] at hblank
    rcases hblank with rfl | rfl | rfl | rfl <;> exact absurd hc (by decide)
  all_goals
    rintro rfl
    exact absurd hc (by decide)

theorem within_word {word : Text} {value : Value Number} (hne : word ≠ []) (hbare : ∀ c ∈ word, isBare c = true)
    (hends : endWord stack word = some (push value stack)) :
    ∃ final, Within (OnStack stack) (.running stack .value) word final ∧ OnStack stack final ∧
      Ready stack value final := by
  obtain ⟨c, word, rfl⟩ := exists_cons_of_ne_nil hne
  obtain ⟨hc, hrest⟩ := forall_mem_cons.mp hbare
  obtain ⟨hblank, hobject, harray, hquote⟩ := isBare_not c hc
  refine ⟨.running stack (.word (c :: word)), ⟨onStack _ _, .running stack (.word [c]), ?_, within_bare hrest [c]⟩,
    onStack _ _, ready_word hends⟩
  simp [step, startValue, hblank, hobject, harray, hquote, hc]

variable {fields : List (Text × Value Number)} {key : Text}

theorem within_scalar (stack : List (Frame Number)) (fields : List (Text × Value Number)) (key : Text) (scalar : Scalar Number) :
    ∃ final, Within (Inside stack) (.running (.object fields key :: stack) .value) (dumpsScalar scalar) final ∧
      Inside stack final ∧ Ready (.object fields key :: stack) scalar.toValue final := by
  have hword : ∀ {word : Text} {value : Value Number}, word ≠ [] → (∀ c ∈ word, isBare c = true) →
      endWord (.object fields key :: stack) word = some (push value (.object fields key :: stack)) →
      ∃ final, Within (Inside stack) (.running (.object fields key :: stack) .value) word final ∧ Inside stack final ∧
        Ready (.object fields key :: stack) value final := by
    intro word value hne hbare hends
    obtain ⟨final, hwithin, honStack, hready⟩ := within_word hne hbare hends
    exact ⟨final, hwithin.mono OnStack.inside, OnStack.inside _ honStack, hready⟩
  cases scalar with
  | null =>
    have hbare : ∀ c ∈ "null".toList, isBare c = true := all_eq_true.mp (by decide)
    exact hword (cons_ne_nil _ _) hbare (if_pos rfl)
  | num number =>
    have hnotNull : Spelling.word number ≠ "null".toList := by
      intro hnull
      have hread := Spelling.ofWord_word number
      rw [hnull, Spelling.ofWord_null] at hread
      cases hread
    have hends : endWord (.object fields key :: stack) (Spelling.word number) = some (push (.num number) (.object fields key :: stack)) := by
      rw [endWord, if_neg hnotNull, Spelling.ofWord_word]
      rfl
    exact hword (Spelling.word_ne_nil number) (Spelling.word_bare number) hends
  | str text =>
    refine ⟨push (.str text) (.object fields key :: stack), ?_, inside _ _ _ _, fun c _ => rfl⟩
    exact (within_string text rfl rfl).mono OnStack.inside

theorem within_field (stack : List (Frame Number)) (fields : List (Text × Value Number)) (key : Text)
    (field : Text × Scalar Number) (hopen : step (.running (.object fields key :: stack) mode) '"' =
      some (.running (.object fields key :: stack) (.string .key []))) :
    ∃ final, Within (Inside stack) (.running (.object fields key :: stack) mode) (dumpsField field) final ∧
      Inside stack final ∧ Ready (.object fields field.1 :: stack) field.2.toValue final := by
  obtain ⟨final, hscalar, hinside, hready⟩ := within_scalar stack fields field.1 field.2
  refine ⟨final, ?_, hinside, hready⟩
  have hkey : Within (Inside stack) (.running (.object fields key :: stack) mode) (dumpsString field.1)
      (.running (.object fields field.1 :: stack) .colon) := (within_string field.1 hopen rfl).mono OnStack.inside
  exact hkey.trans ⟨inside _ _ _ _, .running (.object fields field.1 :: stack) .value, rfl, inside _ _ _ _,
    .running (.object fields field.1 :: stack) .value, rfl, hscalar⟩

def closed (stack : List (Frame Number)) (fields : List (Text × Value Number)) : State Number :=
  match stack with
  | [] => .finished (some fields)
  | frame :: stack => push .other (frame :: stack)

def toValues (fields : List (Text × Scalar Number)) : List (Text × Value Number) :=
  fields.map fun field => (field.1, field.2.toValue)

theorem within_rest (rest : List (Text × Scalar Number)) {value : Value Number} {state : State Number}
    (hinside : Inside stack state) (hready : Ready (.object fields key :: stack) value state) :
    Within (Inside stack) state (dumpsRest rest ++ ['}']) (closed stack (fields ++ [(key, value)] ++ toValues rest)) := by
  induction rest generalizing state fields key value with
  | nil =>
    refine Within.single hinside ?_
    rw [hready '}' (by decide), toValues, map_nil, append_nil]
    cases stack with
    | nil => rfl
    | cons frame stack => rfl
  | cons field rest ih =>
    obtain ⟨final, hfield, hfinal, hnext⟩ :=
      within_field stack (fields ++ [(key, value)]) key field (rfl : step (.running _ .nextKey) '"' = _)
    have hcomma : step state ',' = some (.running (.object (fields ++ [(key, value)]) key :: stack) .nextKey) :=
      hready ',' (by decide)
    have hrest := ih hfinal hnext
    have htext : dumpsRest (field :: rest) ++ ['}'] = [',', ' '] ++ (dumpsField field ++ (dumpsRest rest ++ ['}'])) := by
      simp [dumpsRest]
    rw [htext]
    refine ⟨hinside, _, hcomma, inside _ _ _ _, _, rfl, ?_⟩
    have hvalues : fields ++ [(key, value)] ++ toValues (field :: rest) =
        fields ++ [(key, value)] ++ [(field.1, field.2.toValue)] ++ toValues rest := by
      simp [toValues]
    rw [hvalues]
    exact hfield.trans hrest

theorem within_dumps (stack : List (Frame Number)) (field : Text × Scalar Number) (rest : List (Text × Scalar Number)) :
    Within (Inside stack) (.running (.object [] [] :: stack) .firstKey) (dumpsField field ++ (dumpsRest rest ++ ['}']))
      (closed stack (toValues (field :: rest))) := by
  obtain ⟨final, hfield, hfinal, hnext⟩ :=
    within_field stack [] [] field (rfl : step (.running _ .firstKey) '"' = _)
  exact hfield.trans (within_rest rest hfinal hnext)

section

variable (fields : List (Text × Scalar Number))

theorem loads_dumps : loads (dumps fields) = some (toValues fields) := by
  cases fields with
  | nil => rfl
  | cons field rest =>
    have hrun := (within_dumps [] field rest).run
    have hopen : run (.running [] .value : State Number) (dumps (field :: rest)) =
        run (.running [.object [] []] .firstKey) (dumpsField field ++ (dumpsRest rest ++ ['}'])) := rfl
    rw [loads, hopen, hrun]
    rfl

/-! ## The characters of a written object -/

def isPrintable (c : Char) : Bool := 32 ≤ c.toNat && c.toNat ≤ 126

theorem hexDigit_printable (hn : n < 16) : isPrintable (hexDigit n) = true := by
  have hall : ∀ m : Fin 16, isPrintable (hexDigit m) = true := by decide
  exact hall ⟨n, hn⟩

theorem unicodeEscape_printable (n : Nat) : (unicodeEscape n).all isPrintable = true := by
  have hdigit : ∀ m, isPrintable (hexDigit (m % 16)) = true := fun m => hexDigit_printable (Nat.mod_lt m (by decide))
  have hslash : isPrintable '\\' = true := by decide
  have hu : isPrintable 'u' = true := by decide
  simp [unicodeEscape, hex4, hdigit, hslash, hu]

theorem escapeChar_printable (c : Char) : (escapeChar c).all isPrintable = true := by
  unfold escapeChar
  split_ifs with _ _ _ _ _ _ _ hplain
  all_goals first
    | decide
    | skip
  · simp [isPrintable, hplain]
  · exact unicodeEscape_printable _
  · rw [all_append, unicodeEscape_printable, unicodeEscape_printable, Bool.and_self]

theorem dumpsString_printable (text : Text) : (dumpsString text).all isPrintable = true := by
  have hbody : (text.flatMap escapeChar).all isPrintable = true := by
    rw [all_flatMap]
    exact all_eq_true.mpr fun c _ => escapeChar_printable c
  have hquote : isPrintable '"' = true := by decide
  simp [dumpsString, hbody, hquote]

theorem isBare_printable {c : Char} (hc : isBare c = true) : isPrintable c = true := by
  delta isBare Char.isAlphanum Char.isAlpha Char.isUpper Char.isLower at hc
  simp only [Char.isDigit, Bool.or_eq_true,
    Bool.and_eq_true, decide_eq_true_eq, ge_iff_le, UInt32.le_iff_toNat_le, beq_iff_eq] at hc
  simp only [isPrintable, Bool.and_eq_true, decide_eq_true_eq]
  have hval : c.val.toNat = c.toNat := rfl
  rcases hc with ((((hupper | hlower) | hdigit) | rfl) | rfl) | rfl
  · simp only [hval] at hupper
    exact ⟨Nat.le_trans (by decide) hupper.1, Nat.le_trans hupper.2 (by decide)⟩
  · simp only [hval] at hlower
    exact ⟨Nat.le_trans (by decide) hlower.1, Nat.le_trans hlower.2 (by decide)⟩
  · simp only [hval] at hdigit
    exact ⟨Nat.le_trans (by decide) hdigit.1, Nat.le_trans hdigit.2 (by decide)⟩
  · decide
  · decide
  · decide

theorem isBare_escape {c : Char} (hc : isBare c = true) : escapeChar c = [c] := by
  have hprintable := isBare_printable hc
  simp only [isPrintable, Bool.and_eq_true, decide_eq_true_eq] at hprintable
  unfold escapeChar
  split_ifs with hquote hslash hn hr ht hf hb
  · exact absurd hc (hquote ▸ by decide)
  · exact absurd hc (hslash ▸ by decide)
  · exact absurd hc (hn ▸ by decide)
  · exact absurd hc (hr ▸ by decide)
  · exact absurd hc (ht ▸ by decide)
  · exact absurd hc (hf ▸ by decide)
  · exact absurd hc (hb ▸ by decide)
  · rfl

theorem dumpsField_printable (field : Text × Scalar Number) : (dumpsField field).all isPrintable = true := by
  have hvalue : (dumpsScalar field.2).all isPrintable = true := by
    cases field.2 with
    | null => exact (by decide : ("null".toList).all isPrintable = true)
    | str text => exact dumpsString_printable text
    | num number => exact all_eq_true.mpr fun c hc => isBare_printable (Spelling.word_bare number c hc)
  have hmarks : isPrintable ':' = true ∧ isPrintable ' ' = true := by decide
  simp [dumpsField, dumpsString_printable, hvalue, hmarks]

theorem dumps_printable : (dumps fields).all isPrintable = true := by
  cases fields with
  | nil => exact (by decide : (['{', '}'] : Text).all isPrintable = true)
  | cons field rest =>
    have hrest : (dumpsRest rest).all isPrintable = true := by
      have hmarks : isPrintable ',' = true ∧ isPrintable ' ' = true := by decide
      rw [dumpsRest, all_flatMap]
      exact all_eq_true.mpr fun field _ => by simp [dumpsField_printable, hmarks]
    have hbraces : isPrintable '{' = true ∧ isPrintable '}' = true := by decide
    simp [dumps, dumpsField_printable, hrest, hbraces]

theorem dumps_ends : ∃ body, dumps fields = body ++ ['}'] := by
  cases fields with
  | nil => exact ⟨['{'], rfl⟩
  | cons field rest => exact ⟨'{' :: (dumpsField field ++ dumpsRest rest), by simp [dumps]⟩

end

/-! ## Texts put together from beginnings of objects -/

variable (Number) in
/-- A written object whose first key begins with a plain character. -/
def Written (text : Text) : Prop :=
  ∃ (c : Char) (key : Text) (scalar : Scalar Number) (rest : List (Text × Scalar Number)),
    isBare c = true ∧ text = dumps ((c :: key, scalar) :: rest)

def Open (state : State Number) : Prop := ∃ frame stack mode, state = .running (frame :: stack) mode

omit [Spelling Number] in
theorem isOpen (frame : Frame Number) (stack : List (Frame Number)) (mode : Mode) :
    Open (.running (frame :: stack) mode) := ⟨frame, stack, mode, rfl⟩

omit [Spelling Number] in
theorem Inside.open (hinside : Inside stack state) : Open state := by
  obtain ⟨fields, key, mode, rfl⟩ := hinside
  exact isOpen _ _ _

omit [Spelling Number] in
theorem push_open (value : Value Number) (frame : Frame Number) (stack : List (Frame Number)) : Open (push value (frame :: stack)) := by
  cases frame <;> exact isOpen _ _ _

theorem Written.start (hwritten : Written Number text) : ∃ c rest, isBare c = true ∧ text = '{' :: '"' :: c :: rest := by
  obtain ⟨c, key, scalar, rest, hbare, rfl⟩ := hwritten
  exact ⟨c, _, hbare, by simp [dumps, dumpsField, dumpsString, isBare_escape hbare]; rfl⟩

variable {piece : Text}

theorem Written.run_prefix (hwritten : Written Number text) (hfront : '{' :: piece <+: text) (stack : List (Frame Number)) :
    ∃ state, run (.running (.object [] [] :: stack) .firstKey) piece = some state ∧
      (Inside stack state ∨ '{' :: piece = text ∧ ∃ fields, state = closed stack fields) := by
  obtain ⟨c, key, scalar, rest, -, rfl⟩ := hwritten
  have hwithin := within_dumps stack (c :: key, scalar) rest
  obtain ⟨left, hleft⟩ := hfront
  have hbody : piece ++ left = dumpsField (c :: key, scalar) ++ (dumpsRest rest ++ ['}']) :=
    (List.cons.inj hleft).2
  cases left with
  | nil =>
    rw [append_nil] at hbody
    exact ⟨_, hbody ▸ hwithin.run, .inr ⟨by rw [hbody]; rfl, _, rfl⟩⟩
  | cons next left =>
    rw [← hbody] at hwithin
    obtain ⟨state, hrun, hinside⟩ := hwithin.run_prefix (cons_ne_nil _ _)
    exact ⟨state, hrun, .inl hinside⟩

omit [Spelling Number] in
theorem closed_open (frame : Frame Number) (stack : List (Frame Number)) (fields : List (Text × Value Number)) :
    Open (closed (frame :: stack) fields) := push_open .other frame stack

omit [Spelling Number] in
theorem stepAfter_brace (state : State Number) : stepAfter state '{' = none := by
  cases state with
  | finished fields => rfl
  | running stack mode => rfl

theorem step_bare_after {c : Char} (hc : isBare c = true) (stack : List (Frame Number)) :
    step (.running stack .after) c = none ∧ step (.running stack .colon) c = none := by
  obtain ⟨hblank, -⟩ := isBare_not c hc
  have hothers : c ≠ ',' ∧ c ≠ '}' ∧ c ≠ ']' ∧ c ≠ ':' := by
    refine ⟨?_, ?_, ?_, ?_⟩ <;>
    · rintro rfl
      exact absurd hc (by decide)
  obtain ⟨hcomma, hbrace, hbracket, hcolon⟩ := hothers
  exact ⟨by simp [step, stepAfter, hblank, hcomma, hbrace, hbracket], by simp [step, hblank, hcolon]⟩

theorem Written.prefix_cons (hwritten : Written Number text) (hfront : piece <+: text) (hne : piece ≠ []) : ∃ rest, piece = '{' :: rest := by
  obtain ⟨c, rest, -, rfl⟩ := hwritten.start
  obtain ⟨first, piece, rfl⟩ := exists_cons_of_ne_nil hne
  obtain ⟨rfl, -⟩ := cons_prefix_cons.mp hfront
  exact ⟨piece, rfl⟩

theorem open_string_run {frame : Frame Number} {next : State Number} (hrun : run (.running (frame :: stack) (.string role first)) piece = some next)
    (hwritten : Written Number text) (hfront : piece <+: text) : Open next := by
  obtain ⟨c, rest, hbare, rfl⟩ := hwritten.start
  match piece, hfront with
  | [], _ =>
    cases hrun
    exact isOpen _ _ _
  | [brace], hbrace =>
    obtain ⟨rfl, -⟩ := cons_prefix_cons.mp hbrace
    cases hrun
    exact isOpen _ _ _
  | brace :: quote :: piece, hbrace =>
    obtain ⟨rfl, hquote⟩ := cons_prefix_cons.mp hbrace
    obtain ⟨rfl, hthird⟩ := cons_prefix_cons.mp hquote
    have hends : run (.running (frame :: stack) (.string role first)) ('{' :: '"' :: piece) =
        (endString (frame :: stack) role (first ++ ['{'])).bind fun state => run state piece := by
      simp [run, step, stepString]
    rw [hends] at hrun
    obtain ⟨ended, hended, hrest⟩ := Option.bind_eq_some_iff.mp hrun
    -- after the quote the object is between values, where the next character cannot be read
    have hmode : ∃ frame mode, ended = .running (frame :: stack) mode ∧ (mode = .after ∨ mode = .colon) := by
      cases role with
      | value =>
        cases Option.some.inj hended
        cases frame <;> exact ⟨_, .after, rfl, .inl rfl⟩
      | key =>
        cases frame with
        | object fields key =>
          cases Option.some.inj hended
          exact ⟨_, .colon, rfl, .inr rfl⟩
        | array => cases hended
    obtain ⟨frame, mode, rfl, hmode⟩ := hmode
    cases piece with
    | nil =>
      cases hrest
      exact isOpen _ _ _
    | cons third piece =>
      obtain ⟨rfl, -⟩ := cons_prefix_cons.mp hthird
      obtain ⟨hafter, hcolon⟩ := step_bare_after hbare (frame :: stack)
      rcases hmode with rfl | rfl
      · rw [run, hafter] at hrest
        cases hrest
      · rw [run, hcolon] at hrest
        cases hrest

theorem Open.run {next : State Number} (hopen : Open state) (hrun : Json.run state piece = some next)
    (hwritten : Written Number text) (hfront : piece <+: text) (hne : piece ≠ []) : Open next := by
  obtain ⟨frame, stack, mode, rfl⟩ := hopen
  obtain ⟨rest, rfl⟩ := hwritten.prefix_cons hfront hne
  have hnested : run (.running (.object [] [] :: frame :: stack) .firstKey) rest = some next → Open next := by
    intro hrest
    obtain ⟨state, hstate, hkind⟩ := hwritten.run_prefix hfront (frame :: stack)
    cases hrest.symm.trans hstate
    rcases hkind with hinside | ⟨-, fields, rfl⟩
    · exact hinside.open
    · exact closed_open frame stack fields
  cases mode with
  | value => exact hnested hrun
  | firstItem => exact hnested hrun
  | string role text => exact open_string_run hrun hwritten hfront
  | word text =>
    have hstep : step (.running (frame :: stack) (.word text)) '{' = none := by
      have hbrace : isBare '{' = false := by decide
      simp [step, hbrace, stepAfter_brace]
    rw [Json.run, hstep] at hrun
    cases hrun
  | firstKey => cases hrun
  | nextKey => cases hrun
  | colon => cases hrun
  | after => cases hrun
  | escape role text => cases hrun
  | hex role text digits high => cases hrun
  | lowEscape role text high => cases hrun
  | lowHex role text high => cases hrun

variable (Number) in
def Pieces (pieces : List Text) : Prop :=
  ∀ piece ∈ pieces, piece ≠ [] ∧ ∃ text, Written Number text ∧ piece <+: text

theorem Open.run_pieces {pieces : List Text} {next : State Number} (hopen : Open state)
    (hpieces : Pieces Number pieces) (hrun : Json.run state pieces.flatten = some next) : Open next := by
  induction pieces generalizing state with
  | nil =>
    cases hrun
    exact hopen
  | cons piece pieces ih =>
    obtain ⟨⟨hne, text, hwritten, hfront⟩, hrest⟩ := forall_mem_cons.mp hpieces
    rw [flatten_cons, run_append] at hrun
    obtain ⟨middle, hmiddle, hnext⟩ := Option.bind_eq_some_iff.mp hrun
    exact ih (hopen.run hmiddle hwritten hfront hne) hrest hnext

theorem loads_of_open {text : Text} (hopen : ∀ state : State Number, run (.running [] .value) text = some state → Open state) :
    (loads text : Option (List (Text × Value Number))) = none := by
  unfold loads
  cases hrun : run (.running [] .value : State Number) text with
  | none => rfl
  | some state =>
    obtain ⟨frame, stack, mode, rfl⟩ := hopen state hrun
    rfl

theorem loads_pieces (pieces : List Text) (hpieces : Pieces Number (piece :: pieces)) (htorn : pieces ≠ [] ∨ ¬ Written Number piece) :
    (loads (piece ++ pieces.flatten) : Option (List (Text × Value Number))) = none := by
  obtain ⟨⟨hne, text, hwritten, hfront⟩, hrest⟩ := forall_mem_cons.mp hpieces
  obtain ⟨piece, rfl⟩ := hwritten.prefix_cons hfront hne
  obtain ⟨state, hstate, hkind⟩ := hwritten.run_prefix hfront []
  have hfirst : run (.running [] .value : State Number) ('{' :: piece) = some state := hstate
  rcases hkind with hinside | ⟨hwhole, fields, rfl⟩
  · refine loads_of_open fun next hrun => ?_
    rw [run_append, hfirst] at hrun
    exact hinside.open.run_pieces hrest hrun
  · -- the first is whole, so another follows it
    obtain ⟨second, pieces, rfl⟩ := exists_cons_of_ne_nil (htorn.resolve_right fun hnot => hnot (hwhole ▸ hwritten))
    obtain ⟨⟨hsecond, text, hwritten, hfront⟩, -⟩ := forall_mem_cons.mp hrest
    obtain ⟨second, rfl⟩ := hwritten.prefix_cons hfront hsecond
    have hdead : run (.running [] .value : State Number) ('{' :: piece ++ (('{' :: second) :: pieces).flatten) = none := by
      rw [run_append, hfirst]
      rfl
    rw [loads, hdead]

theorem Written.eq_of_prefix {other : Text} (hwritten : Written Number text) (hother : Written Number other)
    (hfront : text <+: other) : text = other := by
  obtain ⟨c, rest, -, htext⟩ := hwritten.start
  have hbegins : '{' :: ('"' :: c :: rest) <+: other := htext ▸ hfront
  obtain ⟨state, hstate, hkind⟩ := hother.run_prefix hbegins []
  obtain ⟨fields, hfields⟩ : ∃ fields : List (Text × Value Number), run (.running [.object [] []] .firstKey) ('"' :: c :: rest) = some (.finished (some fields)) := by
    obtain ⟨d, key, scalar, fields, -, hdumps⟩ := hwritten
    have hrun := (within_dumps [] (d :: key, scalar) fields).run
    have hbody : '"' :: c :: rest = dumpsField (d :: key, scalar) ++ (dumpsRest fields ++ ['}']) :=
      (List.cons.inj (htext.symm.trans hdumps)).2
    exact ⟨_, hbody ▸ hrun⟩
  rw [hfields] at hstate
  cases hstate
  rcases hkind with ⟨_, _, _, hinside⟩ | ⟨hwhole, -⟩
  · cases hinside
  · exact htext.trans hwhole

end RalphWorkflow.Lib.Json
