import Mathlib.Data.List.TakeWhile
import RalphWorkflow.Proof.Parsers.SubagentSummaries

/-! Which places of a secret the two redactions hide whatever the secret is: those that nothing is kept of, and those that are decoded. Everywhere
else a brace and a comma at the beginning of the secret can be told apart. -/
namespace RalphWorkflow.Parsers.Template
open Lib.Json (Text isBlank)
open Lib.JsonValue List
open Lib.Replace (Reaches replaceAll)
open Lib.Text (isSpace)

/-! ## The same place -/

namespace Twins

theorem reaches_front (twins : Twins) (floatRepr : Text → Text) {front : Text} (hcalm : Calm front)
    (h : Reaches (findFragment floatRepr) (front ++ twins.first) twins.first) :
    Reaches (findFragment floatRepr) (front ++ twins.second) twins.second ∧
      ∃ new, redactJsonFragments floatRepr (front ++ twins.first) = new ++ redactJsonFragments floatRepr twins.first ∧
        redactJsonFragments floatRepr (front ++ twins.second) = new ++ redactJsonFragments floatRepr twins.second := by
  have hconsumes := findFragment_consumes floatRepr
  induction hlength : front.length using Nat.strongRecOn generalizing front with
  | _ n ih =>
    cases front with
    | nil => exact ⟨.here _, [], rfl, rfl⟩
    | cons c front =>
      have hrest := hcalm.of_suffix (suffix_cons c front)
      have hfound := twins.findFragment_front floatRepr hcalm
      simp only [cons_append] at h hfound ⊢
      have hmoves := h.cons.resolve_left fun heq => by
        have hsame := congrArg List.length heq
        simp only [length_cons, length_append] at hsame
        omega
      rcases hfound with ⟨hfirst, hsecond⟩ | ⟨new, rest, hshort, hfirst, hsecond⟩ | ⟨new, back, hback, hfirst, hsecond⟩
      · rcases hmoves with ⟨-, hlater⟩ | ⟨new, rest, hfind, -⟩
        · obtain ⟨hreaches, new, hout, hout'⟩ := ih front.length (by rw [← hlength]; exact Nat.lt_succ_self _) hrest hlater rfl
          refine ⟨.pass hsecond hreaches, c :: new, ?_, ?_⟩
          · exact (Lib.Replace.replaceAll_pass hfirst).trans (congrArg _ hout)
          · exact (Lib.Replace.replaceAll_pass hsecond).trans (congrArg _ hout')
        · rw [hfirst] at hfind
          cases hfind
      · rcases hmoves with ⟨hnone, -⟩ | ⟨new', rest', hfind, hlater⟩
        · rw [hfirst] at hnone
          cases hnone
        · rw [hfirst] at hfind
          cases hfind
          have hle := hlater.length_le hconsumes
          simp only [first, length_append] at hle
          omega
      · rcases hmoves with ⟨hnone, -⟩ | ⟨new', rest', hfind, hlater⟩
        · rw [hfirst] at hnone
          cases hnone
        · rw [hfirst] at hfind
          cases hfind
          have hshorter : back.length < n := by
            have hle := hback.length_le
            rw [← hlength, length_cons]
            omega
          obtain ⟨hreaches, later, hout, hout'⟩ := ih back.length hshorter (hrest.of_suffix hback) hlater rfl
          refine ⟨.jump hsecond hreaches, new ++ later, ?_, ?_⟩
          · rw [redactJsonFragments, Lib.Replace.replaceAll_match hconsumes hfirst, append_assoc]
            exact congrArg _ hout
          · rw [redactJsonFragments, Lib.Replace.replaceAll_match hconsumes hsecond, append_assoc]
            exact congrArg _ hout'

end Twins

/-! ## What a marker cannot pass -/

structure Ends (c : Char) : Prop where
  boundary : isBoundary c = true
  notQuote : c ≠ '"'
  notWord : (sensitiveJsonKeys.all fun key => key.all fun letter => !caseless c letter) = true
  notColon : c ≠ ':'
  notSpace : isSpace c = false

theorem ends_brace : Ends '}' := ⟨by decide, by decide, by decide, by decide, by decide⟩

theorem ends_comma : Ends ',' := ⟨by decide, by decide, by decide, by decide, by decide⟩

theorem dropCaseless_mem {key word : Text} (h : dropCaseless key word = some []) : ∀ c ∈ word, ∃ letter ∈ key, caseless c letter = true := by
  induction key generalizing word with
  | nil =>
    cases h
    exact fun c hc => nomatch hc
  | cons letter key ih =>
    cases word with
    | nil => cases h
    | cons c word =>
      rw [dropCaseless] at h
      split_ifs at h with hletter
      refine forall_mem_cons.2 ⟨⟨letter, mem_cons_self, hletter⟩, fun d hd => ?_⟩
      obtain ⟨later, hlater, hmatch⟩ := ih h d hd
      exact ⟨later, mem_cons_of_mem _ hlater, hmatch⟩

theorem Ends.not_word {c : Char} (h : Ends c) {word : Text} (hc : c ∈ word) : isSensitiveWord word = false := by
  rw [isSensitiveWord, any_eq_false]
  intro key hkey hdrop
  obtain ⟨letter, hletter, hmatch⟩ := dropCaseless_mem (by simpa using hdrop) c hc
  have hnot := all_eq_true.1 (all_eq_true.1 h.notWord key hkey) letter hletter
  rw [hmatch] at hnot
  cases hnot

theorem Ends.not_colon {c : Char} (h : Ends c) {gap : Text} (hc : c ∈ gap) : isColon gap = false := by
  rw [isColon]
  cases hdrop : gap.dropWhile isSpace with
  | nil => rfl
  | cons d rest =>
    by_cases hd : d = ':'
    · subst hd
      have hin : c ∈ rest := by
        rw [← takeWhile_append_dropWhile (p := isSpace) (l := gap), hdrop, mem_append, mem_cons] at hc
        rcases hc with hc | hc | hc
        · have hspace := mem_takeWhile_imp hc
          rw [h.notSpace] at hspace
          cases hspace
        · exact absurd hc h.notColon
        · exact hc
      refine Bool.eq_false_iff.2 fun hall => ?_
      have hspace := all_eq_true.1 hall c hin
      rw [h.notSpace] at hspace
      cases hspace
    · split
      · rename_i heq
        cases heq
        exact absurd rfl hd
      · rfl

theorem findMarker_noWord {text : Text} (h : isSensitiveWord (text.takeWhile (· ≠ '"')) = false) : findMarker ('"' :: text) = none := by
  simp only [findMarker, h, Bool.false_and, Bool.false_eq_true, if_false]
  split
  · split <;> rfl
  · rfl

theorem findMarker_noColon {word rest : Text} (hword : '"' ∉ word) (h : isColon (rest.takeWhile (· ≠ '"')) = false) :
    findMarker ('"' :: (word ++ '"' :: rest)) = none := by
  rw [findMarker, (span_quote hword rest).2]
  simp only [h, Bool.and_false, Bool.false_eq_true, if_false]
  split <;> rfl

theorem Ends.mem_takeWhile {c : Char} (h : Ends c) {front : Text} (hfront : '"' ∉ front) (back : Text) :
    c ∈ (front ++ c :: back).takeWhile (· ≠ '"') := by
  have hall : ∀ d ∈ front, decide (d ≠ '"') = true := by
    intro d hd
    simpa using fun heq : d = '"' => hfront (heq ▸ hd)
  rw [takeWhile_append_of_pos hall, takeWhile_cons_of_pos (by simpa using h.notQuote)]
  exact mem_append_right _ mem_cons_self

theorem findMarker_ends (d : Char) (front back : Text) : (∀ c, Ends c → findMarker (d :: (front ++ c :: back)) = none) ∨
      ∃ later, ∀ c, Ends c → findMarker (d :: (front ++ c :: back)) = some (redacted, later ++ c :: back) := by
  by_cases hd : d = '"'
  · subst hd
    by_cases hfirst : '"' ∈ front
    · obtain ⟨word, rest, rfl, hword⟩ := eq_append_cons_of_mem hfirst
      by_cases hsecond : '"' ∈ rest
      · obtain ⟨gap, value, rfl, hgap⟩ := eq_append_cons_of_mem hsecond
        have hshape : ∀ c, word ++ '"' :: (gap ++ '"' :: value) ++ c :: back = word ++ '"' :: (gap ++ '"' :: (value ++ c :: back)) := by simp
        have hstop : ∀ c, Ends c →
            (value ++ c :: back).dropWhile (fun c => !isBoundary c) = value.dropWhile (fun c => !isBoundary c) ++ c :: back := by
          intro c hc
          rw [dropWhile_append]
          split_ifs with hempty
          · rw [isEmpty_iff.1 hempty, dropWhile_cons_of_neg (by simp [hc.boundary]), nil_append]
          · rfl
        by_cases hfound : (isSensitiveWord word && isColon gap) = true
        · exact .inr ⟨value.dropWhile fun c => !isBoundary c, fun c hc => by rw [hshape, findMarker_eq hword hgap, if_pos hfound, hstop c hc]⟩
        · exact .inl fun c _ => by rw [hshape, findMarker_eq hword hgap, if_neg hfound]
      · have hshape : ∀ c, word ++ '"' :: rest ++ c :: back = word ++ '"' :: (rest ++ c :: back) := by simp
        exact .inl fun c hc => by rw [hshape, findMarker_noColon hword (hc.not_colon (hc.mem_takeWhile hsecond back))]
    · exact .inl fun c hc => findMarker_noWord (hc.not_word (hc.mem_takeWhile hfirst back))
  · exact .inl fun c _ => findMarker_other hd _

theorem replaceAll_ends {c d : Char} (hc : Ends c) (hd : Ends d) (front back : Text) :
    ∃ new, replaceAll findMarker (front ++ c :: back) = new ++ c :: replaceAll findMarker back ∧
      replaceAll findMarker (front ++ d :: back) = new ++ d :: replaceAll findMarker back := by
  have hrun := @Lib.Replace.replaceAll_agree _ _ findMarker_consumes
    (fun text other => ∃ front, text = front ++ c :: back ∧ other = front ++ d :: back)
    (fun text other => text = c :: back ∧ other = d :: back) ?_ (front ++ c :: back) (front ++ d :: back) ⟨front, rfl, rfl⟩
  · obtain ⟨new, rest, rest', ⟨rfl, rfl⟩, -, hfirst, hsecond⟩ := hrun
    refine ⟨new, ?_, ?_⟩
    · rw [hfirst, Lib.Replace.replaceAll_pass (findMarker_other hc.notQuote back)]
    · rw [hsecond, Lib.Replace.replaceAll_pass (findMarker_other hd.notQuote back)]
  · rintro text other ⟨front, rfl, rfl⟩
    cases front with
    | nil => exact .inl ⟨rfl, rfl⟩
    | cons e front =>
      simp only [cons_append]
      rcases findMarker_ends e front back with hnone | ⟨later, hfound⟩
      · exact .inr (.inl ⟨e, _, _, rfl, rfl, hnone c hc, hnone d hd, front, rfl, rfl⟩)
      · exact .inr (.inr ⟨redacted, _, _, hfound c hc, hfound d hd, later, rfl, rfl⟩)

/-! ## Places that hide every secret -/


theorem plain_marked {c : Char} (hc : c ≠ '"' ∧ c ≠ '\\' ∧ isControl c = false) (n : Nat) : Plain (c :: List.replicate n 'a') := by
  refine forall_mem_cons.2 ⟨hc, fun d hd => ?_⟩
  rw [eq_of_mem_replicate hd]
  decide

theorem undecoded_of_plain {part tail : Text} (h : ∀ c ∈ part, c ≠ '{' ∧ c ≠ '[') : Undecoded part tail := by
  intro first c second heq
  obtain ⟨hobject, harray⟩ := h c (by rw [heq]; exact mem_append_right _ mem_cons_self)
  exact rawDecode_plain hobject harray _

theorem redaction_iff (floatRepr : Text → Text) (pair : Pair) :
    (∀ first second, first.length = pair.secret.length → second.length = pair.secret.length → Plain first → Plain second →
      replaceAll findMarker (redactJsonFragments floatRepr (pair.scanned first)) =
        replaceAll findMarker (redactJsonFragments floatRepr (pair.scanned second))) ↔
      pair.secret = [] ∨ pair.kept = 0 ∨ ¬ Reaches (findFragment floatRepr) (pair.scanned pair.secret) (pair.fromKey pair.secret) := by
  constructor
  · intro hsame
    by_contra hnot
    simp only [not_or, not_not] at hnot
    obtain ⟨hsecret, hkept, hreaches⟩ := hnot
    have hlead : pair.lead.length ≤ maxPrefixLength := by
      rw [Pair.kept] at hkept
      omega
    obtain ⟨n, hn⟩ : ∃ n, pair.secret.length = n + 1 := Nat.exists_eq_succ_of_ne_zero fun h => hsecret (eq_nil_of_length_eq_zero h)
    obtain ⟨k, hk⟩ : ∃ k, pair.kept = k + 1 := Nat.exists_eq_succ_of_ne_zero hkept
    have hlength : ∀ c, (c :: List.replicate n 'a').length = pair.secret.length := fun c => by rw [length_cons, length_replicate, hn]
    have hbrace : Plain ('}' :: List.replicate n 'a') := plain_marked (by decide) n
    have hcomma : Plain (',' :: List.replicate n 'a') := plain_marked (by decide) n
    have hpart : ∀ c, isControl c = false → pair.part (c :: List.replicate n 'a') = c :: (List.replicate n 'a').take k := by
      intro c hc
      rw [Pair.part, hk, take_succ_cons, removeControlChars_cons hc, removeControlChars_plain fun d hd => ?_]
      rw [eq_of_mem_replicate (mem_of_mem_take hd)]
      rfl
    have hinside := pair.inside_part rfl pair.body
    have hinsideBrace := pair.inside_part (hlength '}') hbrace.body
    have hinsideComma := pair.inside_part (hlength ',') hcomma.body
    rw [pair.scanned_eq rfl hlead] at hreaches
    have hfirst := ((pair.place _ _ hinside hinsideBrace).reaches_front floatRepr pair.calm hreaches).1
    obtain ⟨-, new, hout, hout'⟩ := (pair.place _ _ hinsideBrace hinsideComma).reaches_front floatRepr pair.calm hfirst
    have hundecoded : ∀ c, isControl c = false → c ≠ '{' ∧ c ≠ '[' → Undecoded (pair.part (c :: List.replicate n 'a')) pair.tail := by
      intro c hcontrol hc
      rw [hpart c hcontrol]
      refine undecoded_of_plain (forall_mem_cons.2 ⟨hc, fun d hd => ?_⟩)
      rw [eq_of_mem_replicate (mem_of_mem_take hd)]
      decide
    have hgap := removeControlChars_blanks pair.isGap
    have hgap' := removeControlChars_blanks pair.isGap'
    have hscan : ∀ c, isControl c = false → c ≠ '{' ∧ c ≠ '[' → redactJsonFragments floatRepr (pair.fromKey (c :: List.replicate n 'a')) =
        keyText pair.spelled (removeControlChars pair.gap) (removeControlChars pair.gap') ++
          (c :: ((List.replicate n 'a').take k ++ redactJsonFragments floatRepr pair.tail)) := by
      intro c hcontrol hc
      rw [Pair.fromKey, redact_key floatRepr pair.spells pair.sensitive hgap hgap', redact_undecoded floatRepr (hundecoded c hcontrol hc),
        hpart c hcontrol]
      rfl
    obtain ⟨front, hends, hends'⟩ := replaceAll_ends ends_brace ends_comma
      (new ++ keyText pair.spelled (removeControlChars pair.gap) (removeControlChars pair.gap'))
      ((List.replicate n 'a').take k ++ redactJsonFragments floatRepr pair.tail)
    have hleak := hsame _ _ (hlength '}') (hlength ',') hbrace hcomma
    rw [pair.scanned_eq (hlength '}') hlead, pair.scanned_eq (hlength ',') hlead] at hleak
    have hbraceOut : redactJsonFragments floatRepr (pair.front ++ pair.fromKey ('}' :: List.replicate n 'a')) = new ++ _ :=
      hout.trans (congrArg _ (hscan '}' (by decide) (by decide)))
    have hcommaOut : redactJsonFragments floatRepr (pair.front ++ pair.fromKey (',' :: List.replicate n 'a')) = new ++ _ :=
      hout'.trans (congrArg _ (hscan ',' (by decide) (by decide)))
    rw [hbraceOut, hcommaOut, ← append_assoc, ← append_assoc, hends, hends'] at hleak
    have hchar := append_cancel_left hleak
    simp at hchar
  · intro h first second hfirst hsecond hplain hplain'
    by_cases hshort : maxPrefixLength < pair.lead.length
    · rw [pair.scanned_short _ hshort, pair.scanned_short _ hshort]
    · have hlead : pair.lead.length ≤ maxPrefixLength := by omega
      rcases h with hnone | hkept | hreaches
      · rw [hnone] at hfirst hsecond
        rw [eq_nil_of_length_eq_zero hfirst, eq_nil_of_length_eq_zero hsecond]
      · rw [pair.scanned_eq hfirst hlead, pair.scanned_eq hsecond hlead, Pair.fromKey, Pair.fromKey, Pair.part, Pair.part, hkept, take_zero,
          take_zero]
      · have hinside := pair.inside_part hfirst hplain.body
        have hinside' := pair.inside_part hsecond hplain'.body
        rw [pair.scanned_eq rfl hlead] at hreaches
        rw [pair.scanned_eq hfirst hlead, pair.scanned_eq hsecond hlead]
        rcases (pair.place _ _ hinside hinside').redactJsonFragments_front floatRepr pair.calm with hsame | ⟨hfound, -⟩
        · exact congrArg _ hsame
        · exact absurd ((pair.place _ _ hinside (pair.inside_part rfl pair.body)).reaches_front floatRepr pair.calm hfound).1 hreaches

/-- A pair that hides its secrets has one summary; the redactions hide them only in such pairs. -/
theorem secrets_hidden (floatRepr : Text → Text) (pair : Pair) :
    (pair.Hidden floatRepr → emitSubagentActivity floatRepr (pair.line pair.secret) = emitSubagentActivity floatRepr (pair.line pair.secret')) ∧
      ((∀ first second, first.length = pair.secret.length → second.length = pair.secret.length → Plain first → Plain second →
        replaceAll findMarker (redactJsonFragments floatRepr (pair.scanned first)) =
          replaceAll findMarker (redactJsonFragments floatRepr (pair.scanned second))) ↔
        pair.secret = [] ∨ pair.kept = 0 ∨ ¬ Reaches (findFragment floatRepr) (pair.scanned pair.secret) (pair.fromKey pair.secret)) :=
  ⟨summaries_same floatRepr pair, redaction_iff floatRepr pair⟩

theorem plain_of_all {text : Text} (h : (text.all fun c => c ≠ '"' ∧ c ≠ '\\' ∧ isControl c = false) = true) : Plain text := by
  intro c hc
  simpa using all_eq_true.1 h c hc

def cutPrompt (secret secret' : Text) (hlength : secret.length = secret'.length) (hplain : Plain secret) (hplain' : Plain secret')
    (hobject : ∃ fields, rawDecode ("\x7b\"prompt\": \"".toList ++ (secret ++ "\"\x7d".toList)) = some (.obj fields, []))
    (hobject' : ∃ fields, rawDecode ("\x7b\"prompt\": \"".toList ++ (secret' ++ "\"\x7d".toList)) = some (.obj fields, [])) : Pair where
  type := .text
  isSpeech := .inl rfl
  metadata := {}
  before := "Deploying the release to the staging cluster now: ".toList
  opening := []
  mark := '{'
  marks := .inl rfl
  blanks := []
  spelled := "prompt".toList
  key := "prompt".toList
  gap := []
  gap' := [' ']
  secret := secret
  secret' := secret'
  closing := ['}']
  after := []
  isBlanks := rfl
  isGap := rfl
  isGap' := by decide
  spells := .plain (by decide) (by decide) (by decide) (.plain (by decide) (by decide) (by decide) (.plain (by decide) (by decide) (by decide)
    (.plain (by decide) (by decide) (by decide) (.plain (by decide) (by decide) (by decide) (.plain (by decide) (by decide) (by decide) .nil)))))
  sensitive := by decide
  sameLength := hlength
  body := hplain.body
  plain' := hplain'
  isObject := hobject
  isObject' := hobject'

def leaking : Pair :=
  cutPrompt "alpha, hunter2 opens the vault".toList "alpha, orange7 opens the vault".toList (by decide) (plain_of_all (by decide))
    (plain_of_all (by decide)) ⟨_, rfl⟩ ⟨_, rfl⟩

/-- After a comma the secret is shown. -/
theorem comma_leaks : ¬ ∀ pair : Pair, emitSubagentActivity id (pair.line pair.secret) = emitSubagentActivity id (pair.line pair.secret') :=
  fun h => absurd (h leaking) (by decide +kernel)

def recognised : Pair :=
  cutPrompt "alpha; hunter2 opens the vault".toList "alpha; orange7 opens the vault".toList (by decide) (plain_of_all (by decide))
    (plain_of_all (by decide)) ⟨_, rfl⟩ ⟨_, rfl⟩

theorem secrets_hidden_recognised :
    emitSubagentActivity id (recognised.line recognised.secret) = emitSubagentActivity id (recognised.line recognised.secret') := by
  have hunbounded : ∀ text : Text, (text.all fun c => !isBoundary c) = true → Unbounded text := by
    intro text h c hc
    simpa using all_eq_true.1 h c hc
  have hundecoded : ∀ text : Text, (text.all fun c => c ≠ '{' ∧ c ≠ '[') = true → Undecoded text recognised.tail := by
    intro text h
    refine undecoded_of_plain fun c hc => ?_
    simpa using all_eq_true.1 h c hc
  refine (secrets_hidden id recognised).1 (.inr (.inr ⟨rfl, hunbounded _ ?_, hunbounded _ ?_, hundecoded _ ?_, hundecoded _ ?_⟩))
  all_goals decide +kernel

end RalphWorkflow.Parsers.Template
