import Mathlib.Data.List.TakeWhile
import Mathlib.Tactic.IntervalCases
import RalphWorkflow.Agents.CompletionLine

/-! A line of the emitter is whole, and no line is whole that was welded from one and a piece of another: the summary ends at the second
quote, so what is behind it has to be a tail, and a cut before the first quote leaves no head. -/
namespace RalphWorkflow.Agents.CompletionLine
open List
open Lib.Json (Text)
open Lib.Text (isSpace containsChars)
open Parsers.Template (caseless dropCaseless)

structure SessionId where
  text : Text
  nonempty : text ≠ []
  chars : text.all isIdChar = true

structure Timestamp where
  text : Text
  ten : text.length = 10
  decimal : text.all Char.isDigit = true

variable {digits : Digits} {text rest : Text} {id : SessionId} {time : Timestamp}

/-! ## Lines of the emitter -/

def marker : Text := "Task declared complete: session_id=".toList

def summaryField : Text := ", summary=".toList

def timestampField : Text := ", timestamp=".toList

def tailOf (time : Timestamp) : Text := timestampField ++ time.text

def lineOf (id : SessionId) (summary : Text) (time : Timestamp) : Text :=
  marker ++ (id.text ++ (summaryField ++ '\'' :: (summary ++ '\'' :: tailOf time)))

theorem mem_flattenControls {c : Char} (h : c ∈ flattenControls text) : isControl c = false := by
  fun_induction flattenControls text with
  | case1 => cases h
  | case2 d text hd ih =>
    rcases mem_cons.mp h with rfl | hmem
    · simpa using hd
    · exact ih hmem
  | case3 d text hd hnext ih => exact ih h
  | case4 d text hd hnext ih =>
    rcases mem_cons.mp h with rfl | hmem
    · rfl
    · exact ih hmem

theorem mem_quotableSummary {c : Char} (h : c ∈ quotableSummary text) : c ≠ '\'' ∧ isControl c = false := by
  obtain ⟨d, hd, rfl⟩ := mem_map.mp h
  have hcontrol := mem_flattenControls hd
  split_ifs with hquote
  · exact ⟨by decide, by decide⟩
  · exact ⟨hquote, hcontrol⟩

theorem newline_not_mem_quotableSummary : '\n' ∉ quotableSummary text := by
  intro h
  have hcontrol := (mem_quotableSummary h).2
  revert hcontrol
  decide

theorem ascii_cases {p : Char → Bool} (h : ((List.range 128).all fun n => p (Char.ofNat n)) = true) {c : Char} (hc : c.toNat < 128) :
    p c = true := by
  have hn := all_eq_true.mp h c.toNat (mem_range.mpr hc)
  rwa [Char.ofNat_toNat] at hn

theorem isIdChar_lt {c : Char} (h : isIdChar c = true) : c.toNat < 128 := by
  delta isIdChar Char.isAlphanum Char.isAlpha Char.isUpper Char.isLower at h
  simp only [Char.isDigit, Bool.or_eq_true, Bool.and_eq_true, decide_eq_true_eq,
    UInt32.le_iff_toNat_le, contains_eq_mem, mem_cons, not_mem_nil, or_false] at h
  rcases h with ((⟨-, h⟩ | ⟨-, h⟩) | ⟨-, h⟩) | rfl | rfl | rfl | rfl
  · exact Nat.lt_of_le_of_lt h (by decide)
  · exact Nat.lt_of_le_of_lt h (by decide)
  · exact Nat.lt_of_le_of_lt h (by decide)
  all_goals decide

theorem isIdChar_facts {c : Char} (h : isIdChar c = true) :
    c ≠ '\n' ∧ c ≠ '\'' ∧ isSpace c = false ∧ isIdCharCaseless c = true := by
  have hfacts := @ascii_cases (fun c => !isIdChar c || (c ≠ '\n' && c ≠ '\'' && !isSpace c && isIdCharCaseless c)) (by decide +kernel) c (isIdChar_lt h)
  simpa [h, and_assoc] using hfacts

theorem isIdChar_of_isDigit {c : Char} (h : c.isDigit = true) : isIdChar c = true := by simp [isIdChar, Char.isAlphanum, h]

theorem isDecimal_of_isDigit {c : Char} (h : c.isDigit = true) : digits.isDecimal c = true := by
  rw [digits.isDecimal_ascii c (isIdChar_lt (isIdChar_of_isDigit h)), h]

/-! ## Tails -/

theorem mem_of_dropWhile {p : Char → Bool} {c : Char} (h : c ∈ text) (hc : p c = false) : c ∈ text.dropWhile p := by
  rw [← takeWhile_append_dropWhile (p := p) (l := text)] at h
  rcases mem_append.mp h with htaken | hmem
  · rw [mem_takeWhile_imp htaken] at hc
    cases hc
  · exact hmem

theorem mem_of_dropCaseless {word : Text} {c : Char} (h : dropCaseless word text = some rest) (hword : (word.all fun letter => !caseless c letter) = true)
    (hc : c ∈ text) : c ∈ rest := by
  induction word generalizing text with
  | nil =>
    cases h
    exact hc
  | cons letter word ih =>
    cases text with
    | nil => cases h
    | cons d text =>
      rw [dropCaseless] at h
      obtain ⟨hd, hrest⟩ := Option.ite_none_right_eq_some.mp h
      rw [all_cons, Bool.and_eq_true] at hword
      rcases mem_cons.mp hc with rfl | hmem
      · rw [hd] at hword
        cases hword.1
      · exact ih hrest hword.2 hmem

theorem quote_mem_of_dropSeparator (h : dropSeparator text = some rest) (hquote : '\'' ∈ text) : '\'' ∈ rest := by
  cases text with
  | nil => cases hquote
  | cons c text =>
    obtain ⟨hc, heq⟩ := Option.ite_none_right_eq_some.mp h
    cases heq
    rcases mem_cons.mp hquote with rfl | hmem
    · exact absurd hc (by decide)
    · exact hmem

theorem quote_not_mem_of_atEnd (h : atEnd text = true) : '\'' ∉ text := by
  simp only [atEnd, Bool.or_eq_true, decide_eq_true_eq] at h
  rcases h with rfl | rfl
  · exact not_mem_nil
  · decide

/-- No tail has a quote. -/
theorem isTail_of_quote (h : '\'' ∈ text) : isTail digits text = false := by
  rw [← Bool.not_eq_true]
  intro htail
  obtain ⟨last, hlast, hends⟩ := (Option.any_eq_true _ _).mp htail
  obtain ⟨first, hfirst, hlast⟩ := Option.bind_eq_some_iff.mp hlast
  obtain ⟨second, hsecond, hlast⟩ := Option.bind_eq_some_iff.mp hlast
  have hfirst := mem_of_dropCaseless hfirst (by decide) (mem_of_dropWhile h (by decide))
  have hsecond := mem_of_dropCaseless hsecond (by decide) (mem_of_dropWhile hfirst (by decide))
  have hvalue := quote_mem_of_dropSeparator hlast (mem_of_dropWhile hsecond (by decide))
  have hrest := mem_of_dropWhile (mem_of_dropWhile hvalue (p := isSpace) (by decide)) (digits.isDecimal_ascii '\'' (by decide))
  exact quote_not_mem_of_atEnd (Bool.and_eq_true_iff.mp hends).2 hrest

theorem isTail_tailOf (time : Timestamp) (rest : Text) : isTail digits (tailOf time ++ rest) = timestampEnds digits (time.text ++ rest) := by
  have hskip : skip (time.text ++ rest) = time.text ++ rest := by
    obtain ⟨c, text, htext⟩ := exists_cons_of_length_pos (l := time.text) (by rw [time.ten]; decide)
    have hc := all_eq_true.mp time.decimal c (by rw [htext]; exact mem_cons_self)
    rw [htext, cons_append, skip, dropWhile_cons_of_neg]
    rw [(isIdChar_facts (isIdChar_of_isDigit hc)).2.2.1]
    exact Bool.false_ne_true
  exact congrArg (timestampEnds digits) hskip

theorem timestampEnds_iff (time : Timestamp) (rest : Text) (hline : '\n' ∉ rest) : timestampEnds digits (time.text ++ rest) = true ↔ rest = [] := by
  have hall : ∀ c ∈ time.text, digits.isDecimal c = true := fun c hc => isDecimal_of_isDigit (all_eq_true.mp time.decimal c hc)
  rw [timestampEnds, takeWhile_append_of_pos hall, dropWhile_append_of_pos hall]
  simp only [length_append, time.ten, maxTimestampDigits, atEnd, Bool.and_eq_true, Bool.or_eq_true, decide_eq_true_eq]
  constructor
  · rintro ⟨⟨-, hlength⟩, hend⟩
    have hnone : rest.takeWhile digits.isDecimal = [] := length_eq_zero_iff.mp (by omega)
    have hsame := takeWhile_append_dropWhile (p := digits.isDecimal) (l := rest)
    rw [hnone, nil_append] at hsame
    rw [hsame] at hend
    rcases hend with hnil | hnil
    · exact hnil
    · rw [hnil] at hline
      exact absurd mem_cons_self hline
  · rintro rfl
    exact ⟨⟨Nat.succ_pos _, Nat.le_refl _⟩, .inl rfl⟩

/-! ## Searching -/

theorem searchTail_append (before : Text) (htail : isTail digits rest = true) : searchTail digits (before ++ '\'' :: rest) = some before := by
  induction before with
  | nil => exact if_pos ⟨rfl, htail⟩
  | cons c before ih =>
    have hquote : isTail digits (before ++ '\'' :: rest) = false := isTail_of_quote (by simp)
    rw [cons_append, searchTail, hquote, if_neg (by simp), ih]
    rfl

theorem searchTail_eq_some {before : Text} (h : searchTail digits text = some before) :
    ∃ rest, text = before ++ '\'' :: rest ∧ isTail digits rest = true := by
  induction text generalizing before with
  | nil => cases h
  | cons c text ih =>
    rw [searchTail] at h
    split_ifs at h with hc
    · cases h
      exact ⟨text, by rw [hc.1]; rfl, hc.2⟩
    · obtain ⟨found, hfound, rfl⟩ := Option.map_eq_some_iff.mp h
      obtain ⟨rest, rfl, htail⟩ := ih hfound
      exact ⟨rest, rfl, htail⟩

/-- Behind its head a whole line has a quoted summary and a tail. -/
theorem isWholeCompletionLine_iff {start : Text} (hhead : completionHead (start ++ rest) = some rest) :
    isWholeCompletionLine digits (start ++ rest) = true ↔
      ∃ summary last, '\'' ∉ summary ∧ rest = '\'' :: (summary ++ '\'' :: last) ∧ isTail digits last = true := by
  have hend : (start ++ rest).length - rest.length = start.length := by rw [length_append]; omega
  unfold isWholeCompletionLine
  rw [hhead]
  constructor
  · intro hwhole
    cases hsearch : searchTail digits (start ++ rest) with
    | none =>
      rw [hsearch] at hwhole
      cases hwhole
    | some before =>
      rw [hsearch] at hwhole
      simp only [hend, Bool.and_eq_true, decide_eq_true_eq, Bool.not_eq_true', contains_eq_mem, decide_eq_false_iff_not] at hwhole
      obtain ⟨⟨hlength, hopen⟩, hquotes⟩ := hwhole
      obtain ⟨last, hsplit, htail⟩ := searchTail_eq_some hsearch
      obtain ⟨summary, hsummary⟩ := List.head?_eq_some_iff.mp hopen
      rw [hsummary] at hquotes
      refine ⟨summary, last, hquotes, ?_, htail⟩
      have hdrop := congrArg (List.drop start.length) hsplit
      rw [drop_left, drop_append_of_le_length hlength, hsummary] at hdrop
      exact hdrop
  · rintro ⟨summary, last, hquotes, rfl, htail⟩
    have hsearch : searchTail digits (start ++ '\'' :: (summary ++ '\'' :: last)) = some (start ++ '\'' :: summary) := by
      rw [← cons_append, ← append_assoc]
      exact searchTail_append _ htail
    rw [hsearch]
    simp [hquotes]

/-! ## Heads -/

theorem idAndSummary_id {word : Text} (hne : word ≠ []) (hword : word.all isIdChar = true) {c : Char} (hc : isIdCharCaseless c = false)
    (rest : Text) : completionHead (marker ++ (word ++ c :: rest)) =
      (do
        let text ← dropCaseless [','] (skip (c :: rest))
        let text ← dropCaseless "summary".toList (skip text)
        dropCaseless ['='] (skip text)) := by
  have hchars : ∀ d ∈ word, isSpace d = false ∧ isIdCharCaseless d = true := fun d hd => (isIdChar_facts (all_eq_true.mp hword d hd)).2.2
  have hdrop : dropId isIdCharCaseless (skip (word ++ c :: rest)) = some (c :: rest) := by
    obtain ⟨d, word, rfl⟩ := exists_cons_of_ne_nil hne
    obtain ⟨hspace, hd⟩ := hchars d mem_cons_self
    rw [skip, cons_append, dropWhile_cons_of_neg (by rw [hspace]; exact Bool.false_ne_true), ← cons_append, dropId]
    rw [dropWhile_append_of_pos fun d hd => (hchars d hd).2, dropWhile_cons_of_neg (by rw [hc]; exact Bool.false_ne_true)]
    simp [hd]
  have hhead : completionHead (marker ++ (word ++ c :: rest)) = idAndSummary (skip (word ++ c :: rest)) := rfl
  rw [hhead, idAndSummary, hdrop]
  rfl

theorem completionHead_line (id : SessionId) (rest : Text) :
    completionHead ((marker ++ (id.text ++ summaryField)) ++ rest) = some rest := by
  rw [append_assoc, append_assoc]
  exact idAndSummary_id id.nonempty id.chars (c := ',') (by decide) (" summary=".toList ++ rest)

theorem prefix_append_cases {start front back : Text} (h : start <+: front ++ back) :
    start <+: front ∨ ∃ more, more ≠ [] ∧ more <+: back ∧ start = front ++ more := by
  obtain ⟨rest, hrest⟩ := h
  rcases append_eq_append_iff.mp hrest with ⟨more, hfront, -⟩ | ⟨more, hstart, hback⟩
  · exact .inl ⟨more, hfront.symm⟩
  · by_cases hmore : more = []
    · rw [hstart, hmore, append_nil]
      exact .inl (prefix_refl _)
    · exact .inr ⟨more, hmore, ⟨rest, hback.symm⟩, hstart⟩

theorem take_of_prefix {start text : Text} (h : start <+: text) (hne : start ≠ []) :
    ∃ n, 0 < n ∧ n ≤ text.length ∧ start = text.take n :=
  ⟨start.length, length_pos_iff.mpr hne, h.length_le, prefix_iff_eq_take.mp h⟩

/-- A cut in the marker, in the id or in the name of the summary leaves no head. -/
theorem completionHead_cut {start : Text} (hstart : start <+: marker ++ (id.text ++ summaryField)) (hne : start ≠ [])
    (hcut : start ≠ marker ++ (id.text ++ summaryField)) (rest : Text) : completionHead (start ++ (marker ++ rest)) = none := by
  rcases prefix_append_cases hstart with hmarker | ⟨more, hmore, hfields, rfl⟩
  · obtain ⟨n, hpos, hle, rfl⟩ := take_of_prefix hmarker hne
    have hle : n ≤ 35 := hle
    interval_cases n <;> rfl
  · rcases prefix_append_cases hfields with hid | ⟨field, hfield, hname, rfl⟩
    · -- the id goes on with the first word of the second line, and a blank and another word follow
      have hword : (more ++ "Task".toList).all isIdChar = true := by
        rw [all_append, Bool.and_eq_true, all_eq_true]
        exact ⟨fun c hc => all_eq_true.mp id.chars c (hid.subset hc), by decide⟩
      have hhead := idAndSummary_id (by simp) hword (c := ' ') (by decide) ("declared complete: session_id=".toList ++ rest)
      rw [append_assoc] at hhead ⊢
      exact hhead.trans rfl
    · obtain ⟨n, hpos, hle, rfl⟩ := take_of_prefix hname hfield
      have hlt : n < 10 := by
        refine Nat.lt_of_le_of_ne hle fun heq => hcut ?_
        rw [heq]
        rfl
      have hhead : ∀ text, completionHead (marker ++ (id.text ++ ',' :: text)) = _ :=
        fun text => idAndSummary_id id.nonempty id.chars (by decide) text
      rw [append_assoc, append_assoc]
      interval_cases n <;> exact (hhead _).trans rfl

/-! ## Whole lines and welded ones -/

theorem newline_not_mem_lineOf {summary : Text} (hsummary : '\n' ∉ summary) : '\n' ∉ lineOf id summary time := by
  have hmarker : '\n' ∉ marker := by decide
  have hid : '\n' ∉ id.text := fun h => (isIdChar_facts (all_eq_true.mp id.chars _ h)).1 rfl
  have hfield : '\n' ∉ summaryField := by decide
  have hname : '\n' ∉ timestampField := by decide
  have htime : '\n' ∉ time.text := fun h => (isIdChar_facts (isIdChar_of_isDigit (all_eq_true.mp time.decimal _ h))).1 rfl
  have hquote : '\n' ≠ '\'' := by decide
  simp only [lineOf, tailOf, mem_append, mem_cons, not_or]
  exact ⟨hmarker, hid, hfield, hquote, hsummary, hquote, hname, htime⟩

theorem firstLine_message (id : SessionId) (summary : Option Text) (time : Timestamp) :
    ∃ shown, '\'' ∉ shown ∧ '\n' ∉ shown ∧ firstLine (completionMessage id.text summary time.text) = lineOf id shown time := by
  refine ⟨quotableSummary (summary.getD "No summary provided".toList), fun h => (mem_quotableSummary h).1 rfl,
    newline_not_mem_quotableSummary, ?_⟩
  have hnewline : '\n' ∉ lineOf id (quotableSummary (summary.getD "No summary provided".toList)) time :=
    newline_not_mem_lineOf newline_not_mem_quotableSummary
  have hmessage : completionMessage id.text summary time.text =
      lineOf id (quotableSummary (summary.getD "No summary provided".toList)) time ++
        '\n' :: "[Completion event emitted to pipeline]".toList := by
    show marker ++ (id.text ++ (summaryField ++ '\'' :: (quotableSummary (summary.getD "No summary provided".toList) ++ '\'' ::
      (timestampField ++ (time.text ++ ('\n' :: "[Completion event emitted to pipeline]".toList)))))) = _
    generalize "[Completion event emitted to pipeline]".toList = event
    generalize quotableSummary (summary.getD "No summary provided".toList) = shown
    simp only [lineOf, tailOf, append_assoc, cons_append]
  rw [firstLine, hmessage, takeWhile_append_of_pos, takeWhile_cons_of_neg (by decide), append_nil]
  intro c hc
  exact decide_eq_true fun heq => hnewline (heq ▸ hc)

theorem lineOf_eq (summary : Text) : lineOf id summary time =
    (marker ++ (id.text ++ summaryField)) ++ '\'' :: (summary ++ '\'' :: tailOf time) := by
  simp only [lineOf, append_assoc]

/-- No line that begins as these do is one of a transport. -/
theorem canonical_eq (text : Text) (h : text.head? = some 'T') :
    isWholeCanonicalSessionLine digits text = isWholeCompletionLine digits text := by
  obtain ⟨rest, rfl⟩ := List.head?_eq_some_iff.mp h
  have hnone : transportPatterns.any (matchesTransport ('T' :: rest)) = false := rfl
  rw [isWholeCanonicalSessionLine, hnone, Bool.false_or]

theorem whole_lineOf {summary : Text} (hsummary : '\'' ∉ summary) : isWholeCompletionLine digits (lineOf id summary time) = true := by
  rw [lineOf_eq, isWholeCompletionLine_iff (completionHead_line id _)]
  refine ⟨summary, tailOf time, hsummary, rfl, ?_⟩
  rw [← append_nil (tailOf time), isTail_tailOf, timestampEnds_iff time [] not_mem_nil]

theorem eq_behind_quote {before after other last : Text} (hbefore : '\'' ∉ before) (hother : '\'' ∉ other)
    (h : before ++ '\'' :: after = other ++ '\'' :: last) : after = last := by
  have hdrop := congrArg (List.dropWhile (· ≠ '\'')) h
  rw [dropWhile_append_of_pos, dropWhile_append_of_pos, dropWhile_cons_of_neg (by decide), dropWhile_cons_of_neg (by decide)] at hdrop
  · exact (List.cons.inj hdrop).2
  · exact fun c hc => decide_eq_true fun heq => hother (heq ▸ hc)
  · exact fun c hc => decide_eq_true fun heq => hbefore (heq ▸ hc)

theorem suffix_not_whole {summary suffix : Text} (hsummary : '\'' ∉ summary) (hne : suffix ≠ []) (hline : '\n' ∉ suffix) :
    isWholeCompletionLine digits (lineOf id summary time ++ suffix) = false := by
  rw [← Bool.not_eq_true, lineOf_eq, append_assoc, isWholeCompletionLine_iff (completionHead_line id _)]
  rintro ⟨other, last, hother, heq, htail⟩
  have hsplit : summary ++ '\'' :: (tailOf time ++ suffix) = other ++ '\'' :: last := by simpa using heq
  obtain rfl := eq_behind_quote hsummary hother hsplit
  rw [isTail_tailOf, timestampEnds_iff time suffix hline] at htail
  exact hne htail

theorem prefix_not_whole {id' : SessionId} {time' : Timestamp} {summary summary' start : Text} (hne : start ≠ [])
    (hstart : start <+: lineOf id summary time) : isWholeCompletionLine digits (start ++ lineOf id' summary' time') = false := by
  rw [← Bool.not_eq_true]
  intro hwhole
  rw [lineOf_eq] at hstart
  rcases prefix_append_cases hstart with hhead | ⟨more, hmore, hrest, rfl⟩
  · by_cases hcut : start = marker ++ (id.text ++ summaryField)
    · rw [hcut, isWholeCompletionLine_iff (completionHead_line id _)] at hwhole
      obtain ⟨other, last, -, heq, -⟩ := hwhole
      cases heq
    · rw [isWholeCompletionLine, lineOf, completionHead_cut hhead hne hcut] at hwhole
      cases hwhole
  · rw [append_assoc, isWholeCompletionLine_iff (completionHead_line id _)] at hwhole
    obtain ⟨other, last, hother, heq, htail⟩ := hwhole
    -- the first quote is behind the head, and both quotes of the second line are still to come
    have hcount := congrArg (List.count '\'') heq
    obtain ⟨first, rfl⟩ : ∃ first, more = '\'' :: first := by
      obtain ⟨c, first, rfl⟩ := exists_cons_of_ne_nil hmore
      exact ⟨first, by rw [(cons_prefix_cons.mp hrest).1]⟩
    have hlast : 0 < last.count '\'' := by
      rw [lineOf_eq] at hcount
      simp only [count_append, count_cons, beq_self_eq_true, if_true, count_eq_zero.mpr hother] at hcount
      omega
    rw [isTail_of_quote (count_pos_iff.mp hlast)] at htail
    cases htail

/-- First lines of completion messages are whole, and none is with a piece of another one behind or before it. -/
theorem completion_lines_whole (digits : Digits) (id₁ id₂ : SessionId) (summary₁ summary₂ : Option Text) (time₁ time₂ : Timestamp) :
    let line₁ := firstLine (completionMessage id₁.text summary₁ time₁.text)
    let line₂ := firstLine (completionMessage id₂.text summary₂ time₂.text)
    isWholeCanonicalSessionLine digits line₁ = true ∧
      (∀ suffix, suffix ≠ [] → suffix <:+ line₂ → isWholeCanonicalSessionLine digits (line₁ ++ suffix) = false) ∧
      ∀ start, start ≠ [] → start <+: line₁ → isWholeCanonicalSessionLine digits (start ++ line₂) = false := by
  obtain ⟨shown₁, hquote₁, hline₁, heq₁⟩ := firstLine_message id₁ summary₁ time₁
  obtain ⟨shown₂, hquote₂, hline₂, heq₂⟩ := firstLine_message id₂ summary₂ time₂
  dsimp only
  rw [heq₁, heq₂]
  refine ⟨?_, fun suffix hne hsuffix => ?_, fun start hne hstart => ?_⟩
  · rw [canonical_eq _ rfl]
    exact whole_lineOf hquote₁
  · rw [canonical_eq _ rfl]
    exact suffix_not_whole hquote₁ hne fun h => newline_not_mem_lineOf hline₂ (hsuffix.subset h)
  · have hopen : (start ++ lineOf id₂ shown₂ time₂).head? = some 'T' := by
      obtain ⟨c, text, rfl⟩ := exists_cons_of_ne_nil hne
      rw [(cons_prefix_cons.mp hstart).1]
      rfl
    rw [canonical_eq _ hopen]
    exact prefix_not_whole hne hstart

/-! ## Ids and openings of a line -/

/-- The id that is read from an emitted line is the one it was emitted with. -/
theorem emitted_id_extracted (id : SessionId) (summary : Option Text) (time : Timestamp) :
    extractTransportTextSessionId (firstLine (completionMessage id.text summary time.text)) = some id.text := by
  obtain ⟨shown, -, -, hline⟩ := firstLine_message id summary time
  have hmarked : containsChars "Task declared complete:".toList (lineOf id shown time) = true :=
    Lib.Text.containsChars_iff.mpr ⟨[], _, rfl⟩
  have hchars : ∀ c ∈ id.text, isSpace c = false ∧ isIdCharCaseless c = true := fun c hc => (isIdChar_facts (all_eq_true.mp id.chars c hc)).2.2
  have hid : sessionIdAt "session_id".toList ("session_id=".toList ++ (id.text ++ (summaryField ++ '\'' :: (shown ++ '\'' :: tailOf time)))) =
      some id.text := by
    have hskip : ∀ rest, skip (id.text ++ rest) = id.text ++ rest := by
      obtain ⟨c, text, htext⟩ := exists_cons_of_ne_nil id.nonempty
      intro rest
      rw [htext, skip, cons_append, dropWhile_cons_of_neg (by simp [(hchars c (by simp [htext])).1])]
    generalize hrest : '\'' :: (shown ++ '\'' :: tailOf time) = rest
    have htake : (skip (id.text ++ (summaryField ++ rest))).takeWhile isIdCharCaseless = id.text := by
      rw [hskip, takeWhile_append_of_pos fun c hc => (hchars c hc).2]
      exact append_nil _
    have hvalue : sessionIdAt "session_id".toList ("session_id=".toList ++ (id.text ++ (summaryField ++ rest))) =
        let id := (skip (id.text ++ (summaryField ++ rest))).takeWhile isIdCharCaseless
        if id = [] then none else some id := rfl
    rw [hvalue, htake]
    exact if_neg id.nonempty
  have hsearch : searchSessionId "session_id".toList (lineOf id shown time) = some id.text := by
    have hstart : searchSessionId "session_id".toList (lineOf id shown time) =
        (sessionIdAt "session_id".toList ("session_id=".toList ++ (id.text ++ (summaryField ++ '\'' :: (shown ++ '\'' :: tailOf time))))).or
          (searchSessionId "session_id".toList
            ("ession_id=".toList ++ (id.text ++ (summaryField ++ '\'' :: (shown ++ '\'' :: tailOf time))))) := rfl
    rw [hstart, hid]
    rfl
  rw [hline, extractTransportTextSessionId, hmarked, hsearch]
  rfl

/-- The characters that match a letter without being lowered to it. -/
def folded : Text := ['ſ', 'ı', 'İ']

theorem lower_of_caseless (lower : Lower) {c letter : Char} (h : caseless c letter = true) (hletter : letter.toNat < 128) (hc : c ∉ folded) :
    lower.lower c = [letter] := by
  simp only [caseless, Bool.or_eq_true, Bool.and_eq_true, beq_iff_eq] at h
  simp only [folded, mem_cons, not_mem_nil, or_false, not_or] at hc
  rcases h with ((rfl | ⟨-, h⟩) | ⟨-, h⟩) | ⟨rfl, rfl⟩
  · refine lower.lower_ascii c ?_
    delta Char.toLower at hletter
    split at hletter
    · next hupper => exact Nat.lt_of_le_of_lt (UInt32.le_iff_toNat_le.mp hupper.2) (by decide)
    · exact hletter
  · rcases h with h | h
    · exact absurd h hc.2.2
    · exact absurd h hc.2.1
  · exact absurd h hc.1
  · exact lower.lower_special.1

/-- The lowered text leaves the word before its end, or no letter of it is a folded character. -/
theorem leaves_or_plain (lower : Lower) {word opening text : Text} (hword : ∀ c ∈ word, c.toNat < 128) (hlast : word.getLast? ≠ some 'i')
    (hopening : ∀ c ∈ opening, c.toNat < 128) (hmatch : (dropCaseless word text).isSome) (h : opening <+: text.flatMap lower.lower) :
    (∃ more, more ≠ [] ∧ word = opening ++ more) ∨ ∀ c ∈ text.take word.length, c ∉ folded := by
  induction word generalizing opening text with
  | nil => exact .inr (by simp)
  | cons letter word ih =>
    cases opening with
    | nil => exact .inl ⟨letter :: word, nofun, rfl⟩
    | cons a opening =>
      cases text with
      | nil => exact absurd hmatch (by simp [dropCaseless])
      | cons c text =>
        rw [dropCaseless] at hmatch
        split at hmatch
        · next hc =>
          have hlast' : word.getLast? ≠ some 'i' := by
            cases word with
            | nil => simp
            | cons d word => rwa [getLast?_cons_cons] at hlast
          rw [flatMap_cons] at h
          by_cases hfolded : c ∈ folded
          · have ha := hopening a mem_cons_self
            simp only [folded, mem_cons, not_mem_nil, or_false] at hfolded
            rcases hfolded with rfl | rfl | rfl
            · rw [lower.lower_special.2.1] at h
              exact absurd ((cons_prefix_cons.mp h).1 ▸ ha) (by decide)
            · rw [lower.lower_special.2.2.1] at h
              exact absurd ((cons_prefix_cons.mp h).1 ▸ ha) (by decide)
            · -- the first of the two characters is an `i`, and the second is in no opening
              rw [lower.lower_special.2.2.2] at h
              obtain ⟨rfl, hrest⟩ := cons_prefix_cons.mp h
              cases opening with
              | nil =>
                obtain rfl : letter = 'i' := by
                  simp only [caseless, Bool.or_eq_true, Bool.and_eq_true, beq_iff_eq] at hc
                  rcases hc with ((hc | hc) | hc) | hc
                  · exact absurd (hc ▸ hword letter mem_cons_self) (by decide)
                  · exact hc.1
                  · exact absurd hc.2 (by decide)
                  · exact absurd hc.2 (by decide)
                exact .inl ⟨word, fun hnil => hlast (by rw [hnil]; rfl), rfl⟩
              | cons b opening => exact absurd ((cons_prefix_cons.mp hrest).1 ▸ hopening b (by simp)) (by decide)
          · rw [lower_of_caseless lower hc (hword letter mem_cons_self) hfolded] at h
            obtain ⟨rfl, hrest⟩ := cons_prefix_cons.mp h
            rcases ih (fun c hc => hword c (mem_cons_of_mem _ hc)) hlast' (fun c hc => hopening c (mem_cons_of_mem _ hc)) hmatch hrest with
              ⟨more, hmore, rfl⟩ | hplain
            · exact .inl ⟨more, hmore, rfl⟩
            · refine .inr fun d hd => ?_
              rcases mem_cons.mp hd with rfl | hd
              · exact hfolded
              · exact hplain d hd
        · exact absurd hmatch (by simp)

theorem lowered_of_plain (lower : Lower) {word text : Text} (hword : ∀ c ∈ word, c.toNat < 128) (hmatch : (dropCaseless word text).isSome)
    (hplain : ∀ c ∈ text.take word.length, c ∉ folded) : word <+: text.flatMap lower.lower := by
  induction word generalizing text with
  | nil => exact nil_prefix
  | cons letter word ih =>
    cases text with
    | nil => exact absurd hmatch (by simp [dropCaseless])
    | cons c text =>
      rw [dropCaseless] at hmatch
      split at hmatch
      · next hc =>
        rw [flatMap_cons, lower_of_caseless lower hc (hword letter mem_cons_self) (hplain c mem_cons_self)]
        exact cons_prefix_cons.mpr ⟨rfl, ih (fun c hc => hword c (mem_cons_of_mem _ hc)) hmatch fun d hd => hplain d (mem_cons_of_mem _ hd)⟩
      · exact absurd hmatch (by simp)

theorem dropCaseless_take {word text : Text} (hmatch : (dropCaseless word text).isSome) {n : Nat} (hn : word.length ≤ n) :
    (dropCaseless word (text.take n)).isSome := by
  induction word generalizing text n with
  | nil => rfl
  | cons letter word ih =>
    cases text with
    | nil => exact absurd hmatch (by simp [dropCaseless])
    | cons c text =>
      obtain ⟨n, rfl⟩ := Nat.exists_eq_add_of_lt (Nat.lt_of_lt_of_le (Nat.succ_pos _) hn)
      rw [dropCaseless] at hmatch
      rw [Nat.zero_add, take_succ_cons, dropCaseless]
      split at hmatch
      · next hc =>
        rw [if_pos hc]
        exact ih hmatch (by simpa using hn)
      · exact absurd hmatch (by simp)

theorem opening_of_whole (h : isWholeCanonicalSessionLine digits text = true) :
    ∃ opening ∈ canonicalLineOpenings, (dropCaseless opening text).isSome := by
  have hopened : ∀ {opened : Option Text} {q : Text → Bool}, opened.any q = true → ∃ rest, opened = some rest := fun hany => by
    obtain ⟨rest, hrest, -⟩ := (Option.any_eq_true _ _).mp hany
    exact ⟨rest, hrest⟩
  have hexact : ∀ {start : Text} {q : Text → Bool}, (text.dropPrefix? start).any q = true → ∃ rest, text = start ++ rest := fun hany => by
    obtain ⟨rest, hrest⟩ := hopened hany
    obtain ⟨start', htext, hsame⟩ := dropPrefix?_eq_some_iff.mp hrest
    exact ⟨rest, by rw [htext, beq_iff_eq.mp hsame]⟩
  rcases Bool.or_eq_true_iff.mp h with hany | hwhole
  · obtain ⟨pattern, hpattern, hmatches⟩ := any_eq_true.mp hany
    simp only [transportPatterns, mem_cons, not_mem_nil, or_false] at hpattern
    rcases hpattern with rfl | rfl | rfl | rfl | rfl
    · obtain ⟨rest, rfl⟩ := hexact hmatches
      exact ⟨_, mem_cons_self, rfl⟩
    · obtain ⟨rest, hrest⟩ := hopened hmatches
      exact ⟨_, .tail _ (.head _), Option.isSome_of_eq_some hrest⟩
    · obtain ⟨rest, rfl⟩ := hexact hmatches
      exact ⟨_, .tail _ (.tail _ (.head _)), rfl⟩
    · obtain ⟨rest, rfl⟩ := hexact hmatches
      exact ⟨_, .tail _ (.tail _ (.tail _ (.head _))), rfl⟩
    · obtain ⟨rest, rfl⟩ := hexact hmatches
      exact ⟨_, .tail _ (.tail _ (.tail _ (.tail _ (.head _)))), rfl⟩
  · cases hhead : completionHead text with
    | none => exact absurd hwhole (by simp [isWholeCompletionLine, hhead])
    | some rest =>
      obtain ⟨behind, hbehind, -⟩ := Option.bind_eq_some_iff.mp hhead
      exact ⟨_, .tail _ (.tail _ (.tail _ (.tail _ (.tail _ (.head _))))), Option.isSome_of_eq_some hbehind⟩

/-- A whole canonical line passes the cheap test exactly when no letter of its opening only folds to it. -/
theorem whole_line_opens_iff (lower : Lower) (h : isWholeCanonicalSessionLine digits text = true) :
    startsWithCanonicalSessionMarker lower text = true ↔
      ∃ opening ∈ canonicalLineOpenings, (dropCaseless opening text).isSome ∧ ∀ c ∈ text.take opening.length, c ∉ folded := by
  have hletters : ∀ opening ∈ canonicalLineOpenings, ∀ c ∈ opening, c.toNat < 128 := by
    have hall : ∀ opening ∈ canonicalLineOpenings, opening.all (·.toNat < 128) := by decide +kernel
    simpa using hall
  have hends : ∀ opening ∈ canonicalLineOpenings, opening.getLast? ≠ some 'i' ∧ opening.length ≤ maxCanonicalOpeningChars := by
    decide +kernel
  have hapart : ∀ opening ∈ canonicalLineOpenings, ∀ other ∈ canonicalLineOpenings, opening <+: other → opening = other := by
    decide +kernel
  rw [startsWithCanonicalSessionMarker, any_eq_true]
  constructor
  · rintro ⟨opening, hopening, hprefix⟩
    obtain ⟨word, hword, hmatch⟩ := opening_of_whole h
    obtain ⟨hlast, hlength⟩ := hends word hword
    rcases leaves_or_plain lower (hletters word hword) hlast (hletters opening hopening) (dropCaseless_take hmatch hlength)
      ( isPrefixOf_iff_prefix.mp hprefix) with ⟨more, hmore, heq⟩ | hplain
    · have hsame := hapart opening hopening word hword ⟨more, heq.symm⟩
      exact absurd (by simpa [hsame] using heq) hmore
    · rw [take_take, Nat.min_eq_left hlength] at hplain
      exact ⟨word, hword, hmatch, hplain⟩
  · rintro ⟨word, hword, hmatch, hplain⟩
    obtain ⟨-, hlength⟩ := hends word hword
    refine ⟨word, hword, isPrefixOf_iff_prefix.mpr
      (lowered_of_plain lower (hletters word hword) (dropCaseless_take hmatch hlength) ?_)⟩
    rwa [take_take, Nat.min_eq_left hlength]

def asciiDigits : Digits := ⟨Char.isDigit, fun _ _ => rfl⟩

def plainLower : Lower where
  lower c := if c = '\u212A' then ['k'] else if c = 'İ' then ['i', '\u0307'] else [c.toLower]
  lower_ascii c hc := by
    rw [if_neg (fun heq => absurd (heq ▸ hc) (by decide)), if_neg (fun heq => absurd (heq ▸ hc) (by decide))]
  lower_special := by decide

def longSLine : Text := "ſession id: a".toList

/-- The whole line begins with a long s, and fails the test. -/
theorem long_s_opens_iff : startsWithCanonicalSessionMarker plainLower longSLine = true ↔
    ∃ opening ∈ canonicalLineOpenings, (dropCaseless opening longSLine).isSome ∧ ∀ c ∈ longSLine.take opening.length, c ∉ folded :=
  @whole_line_opens_iff asciiDigits longSLine plainLower (by decide +kernel)

end RalphWorkflow.Agents.CompletionLine
