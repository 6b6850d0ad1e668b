import RalphWorkflow.Proof.Parsers.JsonRedaction

/-! When the summaries of two lines that differ in a secret are the same: a decoded value holds the secret, or the marker before it is recognised
and nothing in it ends what the marker takes. -/
namespace RalphWorkflow.Parsers.Template
open Lib.Json (Text isBlank)
open Lib.JsonValue List
open Lib.Replace (replaceAll)
open Lib.Text (isSpace)

/-! ## Markers -/

def Unbounded (text : Text) : Prop := ∀ c ∈ text, isBoundary c = false

theorem dropWhile_unbounded {front : Text} (h : Unbounded front) (back : Text) :
    (front ++ back).dropWhile (fun c => !isBoundary c) = back.dropWhile fun c => !isBoundary c :=
  dropWhile_append_of_pos fun c hc => by simp [h c hc]

theorem span_quote {word : Text} (h : '"' ∉ word) (rest : Text) :
    (word ++ '"' :: rest).takeWhile (· ≠ '"') = word ∧ (word ++ '"' :: rest).dropWhile (· ≠ '"') = '"' :: rest := by
  have hall : ∀ c ∈ word, decide (c ≠ '"') = true := by
    intro c hc
    simpa using fun heq : c = '"' => h (heq ▸ hc)
  rw [takeWhile_append_of_pos hall, dropWhile_append_of_pos hall]
  simp

theorem findMarker_eq {word gap : Text} (hword : '"' ∉ word) (hgap : '"' ∉ gap) (value : Text) :
    findMarker ('"' :: (word ++ '"' :: (gap ++ '"' :: value))) =
      if isSensitiveWord word && isColon gap then some (redacted, value.dropWhile fun c => !isBoundary c) else none := by
  rw [findMarker, (span_quote hword _).2, (span_quote hword _).1]
  simp only [(span_quote hgap value).2, (span_quote hgap value).1]

variable {c : Char} {text : Text}

theorem findMarker_other (h : c ≠ '"') (text : Text) : findMarker (c :: text) = none := by
  unfold findMarker
  split
  · rename_i heq
    cases heq
    exact absurd rfl h
  · rfl

theorem findMarker_consumes : Lib.Replace.Consumes findMarker := by
  intro text new rest h
  cases text with
  | nil => cases h
  | cons c text =>
    by_cases hc : c = '"'
    · subst hc
      have hsuffix : rest <:+ text := by
        rw [findMarker] at h
        split at h
        · rename_i first hfirst
          split at h
          · rename_i second hsecond
            split_ifs at h
            cases h
            have hvalue : second <:+ first := (suffix_cons '"' second).trans (hsecond ▸ dropWhile_suffix _)
            have hfirst' : first <:+ text := (suffix_cons '"' first).trans (hfirst ▸ dropWhile_suffix _)
            exact ((dropWhile_suffix _).trans hvalue).trans hfirst'
          · cases h
        · cases h
      obtain ⟨used, rfl⟩ := hsuffix
      exact ⟨'"', used, rfl⟩
    · rw [findMarker_other hc] at h
      cases h

theorem first_quote (h : 0 < text.count '"') : ∃ word rest, text = word ++ '"' :: rest ∧ '"' ∉ word ∧ text.count '"' = rest.count '"' + 1 := by
  obtain ⟨word, rest, heq, hnone⟩ := eq_append_cons_of_mem (count_pos_iff.1 h)
  refine ⟨word, rest, heq, hnone, ?_⟩
  rw [heq, count_append, count_eq_zero.2 hnone, count_cons_self, Nat.zero_add]

/-- The marker of a key: what is recognised, and nothing that ends what an earlier marker takes. -/
structure IsMarker (marker : Text) : Prop where
  found : ∀ back, findMarker (marker ++ back) = some (redacted, back.dropWhile fun c => !isBoundary c)
  quotes : marker.count '"' = 3
  unbounded : Unbounded marker

theorem markers_same {marker part part' : Text} (hmarker : IsMarker marker) (hpart : Unbounded part) (hpart' : Unbounded part') (front back : Text) :
    replaceAll findMarker (front ++ (marker ++ (part ++ back))) = replaceAll findMarker (front ++ (marker ++ (part' ++ back))) := by
  have hrun := @Lib.Replace.replaceAll_agree _ _ findMarker_consumes
    (fun text other => text = other ∨ ∃ front, text = front ++ (marker ++ (part ++ back)) ∧ other = front ++ (marker ++ (part' ++ back)))
    (fun text other => text = other) ?_ (front ++ (marker ++ (part ++ back))) (front ++ (marker ++ (part' ++ back))) (.inr ⟨front, rfl, rfl⟩)
  · obtain ⟨new, rest, rest', hdone, -, hfirst, hsecond⟩ := hrun
    rw [hfirst, hsecond, hdone]
  · rintro text other (rfl | ⟨front, rfl, rfl⟩)
    · exact .inl rfl
    · cases front with
      | nil =>
        refine .inr (.inr ⟨redacted, _, _, hmarker.found _, hmarker.found _, .inl ?_⟩)
        rw [dropWhile_unbounded hpart, dropWhile_unbounded hpart']
      | cons c front =>
        by_cases hc : c = '"'
        · subst hc
          obtain ⟨word, rest, hword, hnone, hcount⟩ := @first_quote (front ++ marker) (by rw [count_append, hmarker.quotes]; omega)
          obtain ⟨gap, value, hgap, hnone', -⟩ := @first_quote rest (by rw [count_append, hmarker.quotes] at hcount; omega)
          have hshape : ∀ later, '"' :: front ++ (marker ++ later) = '"' :: (word ++ '"' :: (gap ++ '"' :: (value ++ later))) := by
            intro later
            rw [cons_append, ← append_assoc, hword, hgap]
            simp
          rw [hshape, hshape, findMarker_eq hnone hnone', findMarker_eq hnone hnone', ← hshape, ← hshape]
          by_cases hfound : (isSensitiveWord word && isColon gap) = true
          · rw [if_pos hfound, if_pos hfound]
            refine .inr (.inr ⟨redacted, _, _, rfl, rfl, ?_⟩)
            have hsuffix : value <:+ front ++ marker := ⟨word ++ '"' :: (gap ++ ['"']), by rw [hword, hgap]; simp⟩
            rcases suffix_or_suffix_of_suffix hsuffix (suffix_append front marker) with hinside | ⟨before, hbefore⟩
            · have hfree : Unbounded value := fun d hd => hmarker.unbounded d (hinside.subset hd)
              rw [dropWhile_unbounded hfree, dropWhile_unbounded hpart, dropWhile_unbounded hfree, dropWhile_unbounded hpart']
              exact .inl rfl
            · have hdrop : ∀ later, (before ++ later).dropWhile (fun c => !isBoundary c) =
                  if (before.dropWhile fun c => !isBoundary c).isEmpty then later.dropWhile fun c => !isBoundary c
                  else (before.dropWhile fun c => !isBoundary c) ++ later := fun later => dropWhile_append
              rw [← hbefore, append_assoc, append_assoc, hdrop, hdrop]
              by_cases hfree : (before.dropWhile fun c => !isBoundary c).isEmpty = true
              · rw [if_pos hfree, if_pos hfree, dropWhile_unbounded hmarker.unbounded, dropWhile_unbounded hpart,
                  dropWhile_unbounded hmarker.unbounded, dropWhile_unbounded hpart']
                exact .inl rfl
              · rw [if_neg hfree, if_neg hfree]
                exact .inr ⟨_, rfl, rfl⟩
          · rw [if_neg hfound, if_neg hfound]
            exact .inr (.inl ⟨'"', _, _, rfl, rfl, rfl, rfl, .inr ⟨front, rfl, rfl⟩⟩)
        · exact .inr (.inl ⟨c, _, _, rfl, rfl, findMarker_other hc _, findMarker_other hc _, .inr ⟨front, rfl, rfl⟩⟩)

/-! ## Markers of sensitive keys -/

variable {key gap gap' : Text}

theorem sensitiveWord (hkey : isSensitive key = true) : isSensitiveWord key = true := by
  have hdrop : ∀ word : Text, dropCaseless (word.map Char.toLower) word = some [] := by
    intro word
    induction word with
    | nil => rfl
    | cons c word ih => simp [dropCaseless, caseless, ih]
  refine any_eq_true.2 ⟨key.map Char.toLower, contains_iff_mem.1 hkey, ?_⟩
  simp [hdrop]

theorem sensitive_unbounded (hkey : isSensitive key = true) : Unbounded key := by
  intro c hc
  simp [isBoundary, sensitive_ne hkey hc (x := ',') (by decide), sensitive_ne hkey hc (x := '}') (by decide),
    sensitive_ne hkey hc (x := ']') (by decide), sensitive_ne hkey hc (x := '\n') (by decide)]

theorem key_marker (hkey : isSensitive key = true) (hgap : ∀ c ∈ gap, c = ' ') (hgap' : ∀ c ∈ gap', c = ' ') : IsMarker (keyText key gap gap') := by
  have hquote : '"' ∉ key := fun hc => sensitive_ne hkey hc (x := '"') (by decide) rfl
  have hnone : ∀ {text : Text}, (∀ c ∈ text, c = ' ') → '"' ∉ text := fun htext hc => absurd (htext _ hc) (by decide)
  have hspaces : ∀ {text : Text}, (∀ c ∈ text, c = ' ') → Unbounded text := fun htext c hc => by
    rw [htext c hc]
    rfl
  have hcolon : isColon (gap ++ ':' :: gap') = true := by
    have hdrop : (gap ++ ':' :: gap').dropWhile isSpace = ':' :: gap' := by
      rw [dropWhile_append_of_pos fun c hc => by rw [hgap c hc]; decide]
      exact dropWhile_cons_of_neg (by decide)
    rw [isColon, hdrop]
    exact all_eq_true.2 fun c hc => by rw [hgap' c hc]; decide
  refine ⟨fun back => ?_, ?_, ?_⟩
  · have hshape : keyText key gap gap' ++ back = '"' :: (key ++ '"' :: ((gap ++ ':' :: gap') ++ '"' :: back)) := by simp [keyText]
    have hgaps : '"' ∉ gap ++ ':' :: gap' := by
      rw [mem_append, mem_cons]
      rintro (hc | hc | hc)
      · exact hnone hgap hc
      · exact absurd hc (by decide)
      · exact hnone hgap' hc
    rw [hshape, findMarker_eq hquote hgaps, sensitiveWord hkey, hcolon]
    rfl
  · simp [keyText, count_append, count_eq_zero.2 hquote, count_eq_zero.2 (hnone hgap),
      count_eq_zero.2 (hnone hgap')]
  · intro c hc
    simp only [keyText, mem_cons, mem_append, not_mem_nil, or_false] at hc
    rcases hc with rfl | hc | rfl | hc | rfl | hc | rfl
    · rfl
    · exact sensitive_unbounded hkey c hc
    · rfl
    · exact hspaces hgap c hc
    · rfl
    · exact hspaces hgap' c hc
    · rfl

def Undecoded (text tail : Text) : Prop := ∀ first c second, text = first ++ c :: second → rawDecode (c :: (second ++ tail)) = none

theorem spelled_ne {spelled key : Text} (hspells : Spells spelled key) {x : Char} (hkey : ∀ c ∈ key, c ≠ x) (hslash : x ≠ '\\')
    (hu : x ≠ 'u') (hdigit : Lib.Json.hexValue x = none) : ∀ c ∈ spelled, c ≠ x := by
  have hne : ∀ (c : Char) (n : Nat), Lib.Json.hexValue c = some n → c ≠ x := by
    rintro c n hhex rfl
    rw [hdigit] at hhex
    cases hhex
  induction hspells with
  | nil => exact fun c hc => nomatch hc
  | plain _ _ _ _ ih => exact forall_mem_cons.2 ⟨hkey _ mem_cons_self, ih fun c hc => hkey c (mem_cons_of_mem _ hc)⟩
  | escaped hw hx hy hz _ _ ih =>
    simp only [forall_mem_cons]
    exact ⟨hslash.symm, hu.symm, hne _ _ hw, hne _ _ hx, hne _ _ hy, hne _ _ hz, ih fun c hc => hkey c (mem_cons_of_mem _ hc)⟩

theorem redact_key (floatRepr : Text → Text) {spelled : Text} (hspells : Spells spelled key) (hkey : isSensitive key = true)
    (hgap : ∀ c ∈ gap, c = ' ') (hgap' : ∀ c ∈ gap', c = ' ') (back : Text) :
    redactJsonFragments floatRepr (keyText spelled gap gap' ++ back) = keyText spelled gap gap' ++ redactJsonFragments floatRepr back := by
  have hspelled : ∀ c ∈ spelled, c ≠ '{' ∧ c ≠ '[' := fun c hc =>
    ⟨spelled_ne hspells (fun d hd => sensitive_ne hkey hd (by decide)) (by decide) (by decide) (by decide) c hc,
      spelled_ne hspells (fun d hd => sensitive_ne hkey hd (by decide)) (by decide) (by decide) (by decide) c hc⟩
  have hplain : ∀ c ∈ keyText spelled gap gap', c ≠ '{' ∧ c ≠ '[' := by
    intro c hc
    simp only [keyText, mem_cons, mem_append, not_mem_nil, or_false] at hc
    rcases hc with rfl | hc | rfl | hc | rfl | hc | rfl
    · decide
    · exact hspelled c hc
    · decide
    · rw [hgap c hc]
      decide
    · decide
    · rw [hgap' c hc]
      decide
    · decide
  refine Lib.Replace.replaceAll_copy fun first c second heq => ?_
  obtain ⟨hobject, harray⟩ := hplain c (by rw [heq]; exact mem_append_right _ mem_cons_self)
  rw [findFragment, rawDecode_plain hobject harray, Option.map_none]

theorem redact_undecoded (floatRepr : Text → Text) {part tail : Text} (h : Undecoded part tail) :
    redactJsonFragments floatRepr (part ++ tail) = part ++ redactJsonFragments floatRepr tail := by
  refine Lib.Replace.replaceAll_copy fun first c second heq => ?_
  rw [findFragment, h first c second heq, Option.map_none]

theorem Twins.passes_same (twins : Twins) (floatRepr : Text → Text) {front : Text} (hcalm : Calm front)
    (h : ¬ Lib.Replace.Reaches (findFragment floatRepr) (front ++ twins.first) twins.first ∨
      twins.spelled = twins.key ∧ (∀ c ∈ twins.gap, c = ' ') ∧ (∀ c ∈ twins.gap', c = ' ') ∧ Unbounded twins.part ∧ Unbounded twins.part' ∧
        Undecoded twins.part twins.tail ∧ Undecoded twins.part' twins.tail) :
    replaceAll findMarker (redactJsonFragments floatRepr (front ++ twins.first)) =
      replaceAll findMarker (redactJsonFragments floatRepr (front ++ twins.second)) := by
  rcases twins.redactJsonFragments_front floatRepr hcalm with hsame | ⟨hreaches, new, hfirst, hsecond⟩
  · rw [hsame]
  · obtain hnot | ⟨hspelled, hgap, hgap', hpart, hpart', hundecoded, hundecoded'⟩ := h
    · exact absurd hreaches hnot
    · rw [hfirst, hsecond, Twins.first, Twins.second, redact_key floatRepr twins.spells twins.sensitive hgap hgap',
        redact_key floatRepr twins.spells twins.sensitive hgap hgap', redact_undecoded floatRepr hundecoded, redact_undecoded floatRepr hundecoded',
        hspelled]
      exact markers_same (key_marker twins.sensitive hgap hgap') hpart hpart' new _

/-! ## Two lines -/

/-- Two lines with an object in which a sensitive key has one secret or another. -/
structure Pair where
  type : LineType
  isSpeech : type = .text ∨ type = .thinking
  metadata : Metadata
  before : Text
  opening : Text
  mark : Char
  marks : mark = '{' ∨ mark = ','
  blanks : Text
  spelled : Text
  key : Text
  gap : Text
  gap' : Text
  secret : Text
  secret' : Text
  closing : Text
  after : Text
  isBlanks : blanks.all isBlank = true
  isGap : gap.all isBlank = true
  isGap' : gap'.all isBlank = true
  spells : Spells spelled key
  sensitive : isSensitive key = true
  sameLength : secret.length = secret'.length
  body : Body secret
  plain' : Plain secret'
  isObject : ∃ fields, rawDecode (opening ++ mark :: (blanks ++ keyText spelled gap gap') ++ (secret ++ '"' :: closing)) = some (.obj fields, [])
  isObject' : ∃ fields, rawDecode (opening ++ mark :: (blanks ++ keyText spelled gap gap') ++ (secret' ++ '"' :: closing)) = some (.obj fields, [])

namespace Pair

def line (pair : Pair) (secret : Text) : AgentOutputLine where
  type := pair.type
  content :=
    pair.before ++ (pair.opening ++ pair.mark :: (pair.blanks ++ keyText pair.spelled pair.gap pair.gap') ++ (secret ++ '"' :: pair.closing)) ++
      pair.after
  metadata := pair.metadata

def lead (pair : Pair) : Text :=
  (pair.before ++ pair.opening).dropWhile isSpace ++ pair.mark :: (pair.blanks ++ keyText pair.spelled pair.gap pair.gap')

def kept (pair : Pair) : Nat := maxPrefixLength - pair.lead.length

def part (pair : Pair) (secret : Text) : Text := removeControlChars (secret.take pair.kept)

/-- What is kept behind the secret, without control characters. -/
def tail (pair : Pair) : Text :=
  removeControlChars (('"' :: ((pair.closing ++ pair.after).reverse.dropWhile isSpace).reverse).take (pair.kept - pair.secret.length))

def fromKey (pair : Pair) (secret : Text) : Text :=
  keyText pair.spelled (removeControlChars pair.gap) (removeControlChars pair.gap') ++ (pair.part secret ++ pair.tail)

def scanned (pair : Pair) (secret : Text) : Text :=
  removeControlChars (pair.type.name ++ ':' :: (strip (pair.line secret).content).take maxPrefixLength)

/-- The same is kept of both secrets, or a decoded key passes, or nothing kept ends the value or begins another. -/
def Hidden (pair : Pair) (floatRepr : Text → Text) : Prop :=
  pair.part pair.secret = pair.part pair.secret' ∨
    ¬ Lib.Replace.Reaches (findFragment floatRepr) (pair.scanned pair.secret) (pair.fromKey pair.secret) ∨
      pair.spelled = pair.key ∧ Unbounded (pair.part pair.secret) ∧ Unbounded (pair.part pair.secret') ∧
        Undecoded (pair.part pair.secret) pair.tail ∧ Undecoded (pair.part pair.secret') pair.tail

end Pair

/-! ## What is scanned -/

theorem dropWhile_mark {front : Text} (hc : isSpace c = false) (back : Text) :
    (front ++ c :: back).dropWhile isSpace = front.dropWhile isSpace ++ c :: back := by
  rw [dropWhile_append]
  by_cases hempty : (front.dropWhile isSpace).isEmpty = true
  · rw [if_pos hempty, isEmpty_iff.1 hempty, dropWhile_cons_of_neg (by simp [hc]), nil_append]
  · rw [if_neg hempty]

theorem strip_between {front back : Text} {d : Char} (middle : Text) (hc : isSpace c = false) (hd : isSpace d = false) :
    strip (front ++ c :: (middle ++ d :: back)) = front.dropWhile isSpace ++ c :: (middle ++ d :: (back.reverse.dropWhile isSpace).reverse) := by
  have hreverse : (front.dropWhile isSpace ++ c :: (middle ++ d :: back)).reverse =
      back.reverse ++ d :: (front.dropWhile isSpace ++ c :: middle).reverse := by simp
  rw [strip, dropWhile_mark hc, hreverse, dropWhile_mark hd]
  simp

theorem removeControlChars_append (first second : Text) : removeControlChars (first ++ second) = removeControlChars first ++ removeControlChars second :=
  filter_append ..

theorem removeControlChars_cons (h : isControl c = false) (text : Text) : removeControlChars (c :: text) = c :: removeControlChars text :=
  filter_cons_of_pos (by simp [h])

theorem removeControlChars_plain (h : ∀ c ∈ text, isControl c = false) : removeControlChars text = text :=
  filter_eq_self.2 fun c hc => by simp [h c hc]

theorem removeControlChars_blanks (h : text.all isBlank = true) : ∀ c ∈ removeControlChars text, c = ' ' := by
  intro c hc
  obtain ⟨hmem, hcontrol⟩ := mem_filter.1 hc
  have hblank : isBlank c = true := all_eq_true.1 h c hmem
  simp only [isBlank, Bool.or_eq_true, beq_iff_eq] at hblank
  rcases hblank with ((rfl | rfl) | rfl) | rfl
  · rfl
  · exact absurd hcontrol (by decide)
  · exact absurd hcontrol (by decide)
  · exact absurd hcontrol (by decide)

theorem hexValue_plain {n : Nat} (h : Lib.Json.hexValue c = some n) : isControl c = false := by
  by_contra hcontrol
  simp only [isControl, Bool.not_eq_false, Bool.or_eq_true, decide_eq_true_eq, beq_iff_eq] at hcontrol
  simp only [Lib.Json.hexValue] at h
  split_ifs at h with hfirst hsecond hthird
  all_goals simp_all [Char.le_def, UInt32.le_iff_toNat_le]
  all_goals omega

theorem spelled_plain {spelled key : Text} (h : Spells spelled key) : ∀ c ∈ spelled, isControl c = false := by
  induction h with
  | nil => exact fun c hc => nomatch hc
  | plain _ _ hcontrol _ ih => exact forall_mem_cons.2 ⟨hcontrol, ih⟩
  | escaped hw hx hy hz _ _ ih =>
    simp only [forall_mem_cons]
    exact ⟨by decide, by decide, hexValue_plain hw, hexValue_plain hx, hexValue_plain hy, hexValue_plain hz, ih⟩

theorem Plain.body (h : Plain text) : Body text := by
  induction text with
  | nil => exact .nil
  | cons c text ih =>
    obtain ⟨hquote, hslash, hcontrol⟩ := h c mem_cons_self
    refine .plain hquote hslash (fun hsmall => ?_) (ih fun d hd => h d (mem_cons_of_mem _ hd))
    simp [isControl, hsmall] at hcontrol

theorem Body.clean (h : Body text) : Body (removeControlChars text) := by
  induction h with
  | nil => exact .nil
  | @plain c text hquote hslash hlarge _ ih =>
    by_cases hcontrol : isControl c = true
    · rwa [removeControlChars, filter_cons_of_neg (by simp [hcontrol])]
    · rw [removeControlChars_cons (by simpa using hcontrol)]
      exact .plain hquote hslash hlarge ih
  | @short c own text hown _ ih =>
    have hcontrol : isControl c = false := by
      unfold Lib.Json.escapedChar at hown
      split at hown
      all_goals first | rfl | cases hown
    rw [removeControlChars_cons (by decide), removeControlChars_cons hcontrol]
    exact .short hown ih
  | hex hw hx hy hz _ ih =>
    rw [removeControlChars_cons (by decide), removeControlChars_cons (by decide), removeControlChars_cons (hexValue_plain hw),
      removeControlChars_cons (hexValue_plain hx), removeControlChars_cons (hexValue_plain hy), removeControlChars_cons (hexValue_plain hz)]
    exact .hex hw hx hy hz ih

theorem calm_of_last {front : Text} {back : Text} (h : ∀ d ∈ c :: back, d ≠ '\\') : Calm (front ++ c :: back) := by
  intro before heq
  have hlast := congrArg List.getLast? heq
  rw [List.getLast?_append_of_ne_nil _ (cons_ne_nil c back), List.getLast?_concat] at hlast
  exact h _ (mem_of_getLast? hlast) rfl

namespace Pair

def front (pair : Pair) : Text :=
  removeControlChars (pair.type.name ++ ':' :: (pair.before ++ pair.opening).dropWhile isSpace) ++ pair.mark :: removeControlChars pair.blanks

theorem strip_content (pair : Pair) (secret : Text) :
    strip (pair.line secret).content = pair.lead ++ (secret ++ '"' :: ((pair.closing ++ pair.after).reverse.dropWhile isSpace).reverse) := by
  have hmark : isSpace pair.mark = false := by rcases pair.marks with hmark | hmark <;> rw [hmark] <;> decide
  have hshape : (pair.line secret).content = (pair.before ++ pair.opening) ++
      pair.mark :: (pair.blanks ++ keyText pair.spelled pair.gap pair.gap' ++ secret ++ '"' :: (pair.closing ++ pair.after)) := by
    simp [line]
  rw [hshape, strip_between _ hmark (by decide), lead]
  simp

theorem mark_plain (pair : Pair) : isControl pair.mark = false ∧ pair.mark ≠ '\\' := by
  rcases pair.marks with hmark | hmark <;> rw [hmark] <;> decide

theorem scanned_eq (pair : Pair) {secret : Text} (hlength : secret.length = pair.secret.length) (hkept : pair.lead.length ≤ maxPrefixLength) :
    pair.scanned secret = pair.front ++ pair.fromKey secret := by
  have hkey : removeControlChars (keyText pair.spelled pair.gap pair.gap') =
      keyText pair.spelled (removeControlChars pair.gap) (removeControlChars pair.gap') := by
    rw [keyText, removeControlChars_cons (by decide), removeControlChars_append, removeControlChars_plain (spelled_plain pair.spells),
      removeControlChars_cons (by decide), removeControlChars_append, removeControlChars_cons (by decide), removeControlChars_append]
    rfl
  rw [scanned, strip_content, take_append, take_of_length_le hkept, take_append, hlength, ← kept, lead,
    append_assoc, ← cons_append, ← append_assoc, removeControlChars_append, cons_append,
    removeControlChars_cons pair.mark_plain.1, removeControlChars_append (pair.blanks ++ keyText _ _ _), removeControlChars_append pair.blanks, hkey,
    removeControlChars_append (secret.take pair.kept), front, fromKey, part, tail]
  simp

theorem scanned_short (pair : Pair) (secret : Text) (h : maxPrefixLength < pair.lead.length) :
    pair.scanned secret = removeControlChars (pair.type.name ++ ':' :: pair.lead.take maxPrefixLength) := by
  rw [scanned, strip_content, take_append_of_le_length (by omega)]

theorem spaces_blank {text : Text} (h : ∀ c ∈ text, c = ' ') : text.all isBlank = true :=
  all_eq_true.2 fun c hc => by rw [h c hc]; decide

theorem inside_part (pair : Pair) {secret : Text} (hlength : secret.length = pair.secret.length) (hbody : Body secret) :
    Inside (pair.part secret) pair.tail := by
  rw [tail, part]
  cases hpast : pair.kept - pair.secret.length with
  | zero =>
    refine .inr ⟨rfl, removeControlChars (secret.drop pair.kept), ?_⟩
    rw [← removeControlChars_append, take_append_drop]
    exact hbody.clean
  | succ n =>
    rw [take_of_length_le (by omega)]
    exact .inl ⟨hbody.clean, _, removeControlChars_cons (by decide) _⟩

def place (pair : Pair) (first second : Text) (hfirst : Inside (pair.part first) pair.tail) (hsecond : Inside (pair.part second) pair.tail) : Twins where
  spelled := pair.spelled
  key := pair.key
  gap := removeControlChars pair.gap
  gap' := removeControlChars pair.gap'
  part := pair.part first
  part' := pair.part second
  tail := pair.tail
  spells := pair.spells
  sensitive := pair.sensitive
  blank := spaces_blank (removeControlChars_blanks pair.isGap)
  blank' := spaces_blank (removeControlChars_blanks pair.isGap')
  inside := hfirst
  inside' := hsecond

theorem calm (pair : Pair) : Calm pair.front := by
  refine calm_of_last fun d hd => ?_
  rcases mem_cons.1 hd with rfl | hd
  · exact pair.mark_plain.2
  · rw [removeControlChars_blanks pair.isBlanks d hd]
    decide

theorem passes_same (pair : Pair) (floatRepr : Text → Text) (h : pair.Hidden floatRepr) :
    replaceAll findMarker (redactJsonFragments floatRepr (pair.scanned pair.secret)) =
      replaceAll findMarker (redactJsonFragments floatRepr (pair.scanned pair.secret')) := by
  by_cases hshort : maxPrefixLength < pair.lead.length
  · rw [pair.scanned_short _ hshort, pair.scanned_short _ hshort]
  · have hfirst := pair.scanned_eq rfl (by omega)
    have hsecond := pair.scanned_eq pair.sameLength.symm (by omega)
    have hinside := pair.inside_part rfl pair.body
    have hinside' := pair.inside_part pair.sameLength.symm pair.plain'.body
    rcases h with hsame | hrest
    · rw [hfirst, hsecond, fromKey, fromKey, hsame]
    · rw [hfirst, hsecond]
      refine (pair.place _ _ hinside hinside').passes_same floatRepr pair.calm ?_
      rcases hrest with hpassed | ⟨hspelled, hpart, hpart', hundecoded, hundecoded'⟩
      · exact .inl (hfirst ▸ hpassed)
      · exact .inr ⟨hspelled, removeControlChars_blanks pair.isGap, removeControlChars_blanks pair.isGap', hpart, hpart', hundecoded, hundecoded'⟩

end Pair

theorem summaries_same (floatRepr : Text → Text) (pair : Pair) (h : pair.Hidden floatRepr) :
    emitSubagentActivity floatRepr (pair.line pair.secret) = emitSubagentActivity floatRepr (pair.line pair.secret') := by
  have hsummary : ∀ secret, summaryOf (pair.line secret) = some (pair.type.name ++ ':' :: (strip (pair.line secret).content).take maxPrefixLength) := by
    intro secret
    rcases pair.isSpeech with htype | htype <;> simp [summaryOf, Pair.line, htype]
  have hsanitize : sanitize floatRepr (pair.type.name ++ ':' :: (strip (pair.line pair.secret).content).take maxPrefixLength) =
      sanitize floatRepr (pair.type.name ++ ':' :: (strip (pair.line pair.secret').content).take maxPrefixLength) := by
    have hpasses := pair.passes_same floatRepr h
    rw [Pair.scanned, Pair.scanned] at hpasses
    rw [sanitize, sanitize, hpasses]
  rw [emitSubagentActivity, emitSubagentActivity, hsummary, hsummary, Option.map_some, Option.map_some, hsanitize]

end RalphWorkflow.Parsers.Template
