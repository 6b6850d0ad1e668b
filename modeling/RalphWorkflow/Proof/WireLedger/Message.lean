import Mathlib.Data.List.Nodup
import RalphWorkflow.Mcp.WireLedger

/-! The lines of the message `_record_hmac` signs, and the records that share it with no other. -/
namespace RalphWorkflow.Mcp.WireLedger
open List
open Lib.Json (Text Value)

/-! ## Lines of a text -/

def lines (text : Text) : List Text := text.splitOn '\n'

theorem lines_append_cons (first second : Text) : lines (first ++ '\n' :: second) = lines first ++ lines second :=
  splitOn_append_cons_self first second

theorem lines_of_not_mem {text : Text} (hline : '\n' ∉ text) : lines text = [text] := splitOn_eq_singleton hline

theorem lines_append_of_not_mem {before : Text} (hbefore : '\n' ∉ before) (text : Text) :
    ∃ first rest, lines text = first :: rest ∧ lines (before ++ text) = (before ++ first) :: rest := by
  induction before with
  | nil =>
    cases hlines : lines text with
    | nil => exact absurd hlines (splitOn_ne_nil '\n' text)
    | cons first rest => exact ⟨first, rest, rfl, hlines⟩
  | cons c before ih =>
    obtain ⟨hc, hbefore⟩ := not_or.mp (fun hmem => hbefore (mem_cons.mpr hmem))
    obtain ⟨first, rest, hfirst, hwhole⟩ := ih hbefore
    refine ⟨first, rest, hfirst, ?_⟩
    unfold lines at hwhole ⊢
    rw [cons_append, splitOn_cons_eq_if_modifyHead, if_neg (fun heq => hc (beq_iff_eq.mp heq).symm), hwhole]
    rfl

theorem lines_injective : Function.Injective lines := by
  intro first second hlines
  have hfirst : ['\n'].intercalate (lines first) = first := intercalate_splitOn '\n'
  have hsecond : ['\n'].intercalate (lines second) = second := intercalate_splitOn '\n'
  rw [← hfirst, ← hsecond, hlines]

theorem lines_ne_nil (text : Text) : lines text ≠ [] := splitOn_ne_nil '\n' text

theorem not_mem_of_mem_lines {text line : Text} (hline : line ∈ lines text) : '\n' ∉ line :=
  fun hmem => (RalphWorkflow.Lib.Text.mem_of_mem_splitOn hline _ hmem).2 rfl

theorem exists_of_lines_eq {text : Text} {first second : List Text} (hlines : lines text = first ++ second)
    (hfirst : first ≠ []) (hsecond : second ≠ []) :
    ∃ before after, text = before ++ '\n' :: after ∧ lines before = first ∧ lines after = second := by
  have hbreaks : ∀ line ∈ first ++ second, '\n' ∉ line := fun line hline => not_mem_of_mem_lines (hlines ▸ hline)
  have hbefore : lines (['\n'].intercalate first) = first :=
    splitOn_intercalate '\n' (fun line hline => hbreaks line (mem_append_left _ hline)) hfirst
  have hafter : lines (['\n'].intercalate second) = second :=
    splitOn_intercalate '\n' (fun line hline => hbreaks line (mem_append_right _ hline)) hsecond
  refine ⟨['\n'].intercalate first, ['\n'].intercalate second, lines_injective ?_, hbefore, hafter⟩
  rw [hlines, lines_append_cons, hbefore, hafter]

theorem Token.not_mem (token : Token) : '\n' ∉ token.text := fun hmem => (token.plain _ hmem).1 rfl

theorem Token.text_injective : Function.Injective Token.text := by
  intro one other htext
  cases one
  cases other
  cases htext
  rfl

theorem Token.lines (token : Token) : lines token.text = [token.text] := lines_of_not_mem token.not_mem

/-! ## The optional fields -/

theorem plain_of_all {text : Text} (hall : (text.all fun c => c != '\n' && c != '=') = true) : ∀ c ∈ text, c ≠ '\n' ∧ c ≠ '=' := by
  simpa using hall

theorem OptionalField.name_plain (field : OptionalField) : ∀ c ∈ field.name, c ≠ '\n' ∧ c ≠ '=' := by
  apply plain_of_all
  cases field <;> rfl

theorem OptionalField.name_injective : Function.Injective OptionalField.name := by
  intro one other
  cases one <;> cases other <;> decide

theorem OptionalField.mem_all (field : OptionalField) : field ∈ all := by
  cases field <;> decide

theorem OptionalField.all_nodup : all.Nodup := by decide

def OptionalField.start (field : OptionalField) : Text := '\n' :: (field.name ++ ['='])

theorem OptionalField.start_append (field : OptionalField) (text : Text) : field.start ++ text = '\n' :: (field.name ++ '=' :: text) := by
  simp [start]

theorem OptionalField.start_append_inj {one other : OptionalField} {first second : Text}
    (hsame : one.start ++ first = other.start ++ second) : one = other ∧ first = second := by
  rw [start_append, start_append, List.cons.injEq] at hsame
  have hone : '=' ∉ one.name := fun hmem => (one.name_plain _ hmem).2 rfl
  have hother : '=' ∉ other.name := fun hmem => (other.name_plain _ hmem).2 rfl
  have hsplit := congrArg (List.splitOn '=') hsame.2
  rw [splitOn_append_cons_self_of_not_mem hone, splitOn_append_cons_self_of_not_mem hother,
    List.cons.injEq] at hsplit
  have hheader : one = other := name_injective hsplit.1
  subst hheader
  exact ⟨rfl, (List.cons.inj (append_cancel_left hsame.2)).2⟩

section

variable {optional forged : OptionalField → Option Text} {fields : List OptionalField}

theorem optionText_cons_none {field : OptionalField} (hnone : optional field = none) :
    optionText optional (field :: fields) = optionText optional fields := by
  simp [optionText, hnone]

theorem optionText_cons_some {field : OptionalField} {value : Text} (hsome : optional field = some value) :
    optionText optional (field :: fields) = field.start ++ (value ++ optionText optional fields) := by
  simp [optionText, hsome, OptionalField.start_append]

theorem optionText_append (first second : List OptionalField) :
    optionText optional (first ++ second) = optionText optional first ++ optionText optional second :=
  flatMap_append

theorem optionText_congr (hsame : ∀ field ∈ fields, optional field = forged field) : optionText optional fields = optionText forged fields := by
  unfold optionText
  exact flatMap_congr fun field hfield => by rw [hsame field hfield]

theorem optionText_of_none (hnone : ∀ field ∈ fields, optional field = none) : optionText optional fields = [] := by
  induction fields with
  | nil => rfl
  | cons field fields ih =>
    rw [optionText_cons_none (hnone field mem_cons_self)]
    exact ih fun later hlater => hnone later (mem_cons_of_mem _ hlater)

theorem optionText_cases (optional : OptionalField → Option Text) (fields : List OptionalField) : (∀ field ∈ fields, optional field = none) ∨
      ∃ field ∈ fields, ∃ text, optionText optional fields = field.start ++ text := by
  induction fields with
  | nil => exact .inl fun field hfield => absurd hfield not_mem_nil
  | cons field fields ih =>
    cases hvalue : optional field with
    | some value => exact .inr ⟨field, mem_cons_self, _, optionText_cons_some hvalue⟩
    | none =>
      rcases ih with hnone | ⟨later, hlater, text, htext⟩
      · refine .inl fun other hother => ?_
        rcases mem_cons.mp hother with rfl | hother
        · exact hvalue
        · exact hnone other hother
      · exact .inr ⟨later, mem_cons_of_mem _ hlater, text, by rw [optionText_cons_none hvalue, htext]⟩

/-- At most one field is set, and no line of it begins like a later one. -/
def SoleOption (optional : OptionalField → Option Text) (fields : List OptionalField) : Prop :=
  fields.Pairwise fun field later =>
    ∀ value, optional field = some value → optional later = none ∧ ¬ later.start <:+: value

theorem SoleOption.cases (hsole : SoleOption optional fields) : (∀ field ∈ fields, optional field = none) ∨
      ∃ field ∈ fields, ∃ value, optional field = some value ∧ optionText optional fields = field.start ++ value := by
  induction fields with
  | nil => exact .inl fun field hfield => absurd hfield not_mem_nil
  | cons field fields ih =>
    obtain ⟨hlater, hrest⟩ := pairwise_cons.mp hsole
    cases hvalue : optional field with
    | some value =>
      refine .inr ⟨field, mem_cons_self, value, hvalue, ?_⟩
      rw [optionText_cons_some hvalue, optionText_of_none fun later hmem => (hlater later hmem value hvalue).1,
        append_nil]
    | none =>
      rcases ih hrest with hnone | ⟨other, hother, value, hset, htext⟩
      · refine .inl fun other hother => ?_
        rcases mem_cons.mp hother with rfl | hother
        · exact hvalue
        · exact hnone other hother
      · exact .inr ⟨other, mem_cons_of_mem _ hother, value, hset, by rw [optionText_cons_none hvalue, htext]⟩

theorem SoleOption.eq_of_optionText_eq (hnodup : fields.Nodup) (hsole : SoleOption optional fields)
    (hsame : optionText forged fields = optionText optional fields) :
    ∀ field ∈ fields, forged field = optional field := by
  induction fields with
  | nil => exact fun field hfield => absurd hfield not_mem_nil
  | cons field fields ih =>
    obtain ⟨hfresh, hnodup⟩ := nodup_cons.mp hnodup
    obtain ⟨hlater, hrest⟩ := pairwise_cons.mp hsole
    -- a text that begins with the line of `field` is not made of the fields after it
    have hstart : ∀ {other : OptionalField → Option Text} {text : Text}, optionText other fields ≠ field.start ++ text := by
      intro other text htext
      rcases optionText_cases other fields with hnone | ⟨later, hmem, rest, hrest⟩
      · rw [optionText_of_none hnone] at htext
        exact absurd htext (by simp [OptionalField.start])
      · obtain ⟨heq, -⟩ := OptionalField.start_append_inj (hrest.symm.trans htext)
        exact hfresh (heq ▸ hmem)
    have htail : forged field = optional field ∧ optionText forged fields = optionText optional fields := by
      cases hvalue : optional field with
      | none =>
        cases hforged : forged field with
        | none =>
          rw [optionText_cons_none hvalue, optionText_cons_none hforged] at hsame
          exact ⟨rfl, hsame⟩
        | some text =>
          rw [optionText_cons_none hvalue, optionText_cons_some hforged] at hsame
          exact absurd hsame.symm hstart
      | some value =>
        have hnone : optionText optional fields = [] :=
          optionText_of_none fun later hmem => (hlater later hmem value hvalue).1
        rw [optionText_cons_some hvalue, hnone, append_nil] at hsame
        cases hforged : forged field with
        | none =>
          rw [optionText_cons_none hforged] at hsame
          exact absurd hsame hstart
        | some text =>
          rw [optionText_cons_some hforged] at hsame
          have hwhole : text ++ optionText forged fields = value := append_cancel_left hsame
          rcases optionText_cases forged fields with hnever | ⟨later, hmem, rest, hrest⟩
          · rw [optionText_of_none hnever, append_nil] at hwhole
            exact ⟨congrArg some hwhole, (optionText_of_none hnever).trans hnone.symm⟩
          · -- the rest of the value would begin like a later field
            rw [hrest] at hwhole
            exact absurd ⟨text, rest, by rw [append_assoc, hwhole]⟩ (hlater later hmem value hvalue).2
    intro other hother
    rcases mem_cons.mp hother with rfl | hother
    · exact htail.1
    · exact ih hnodup hrest htail.2 other hother

def optionLines (optional : OptionalField → Option Text) (fields : List OptionalField) : List Text :=
  (lines (optionText optional fields)).tail

theorem lines_append_optionText (optional : OptionalField → Option Text) (fields : List OptionalField) (text : Text) :
    lines (text ++ optionText optional fields) = lines text ++ optionLines optional fields := by
  rcases optionText_cases optional fields with hnone | ⟨field, -, rest, htext⟩
  · rw [optionLines, optionText_of_none hnone, append_nil]
    exact (append_nil _).symm
  · have hown : lines (optionText optional fields) = [[]] ++ lines (field.name ++ '=' :: rest) := by
      rw [htext, OptionalField.start_append]
      exact lines_append_cons [] _
    rw [optionLines, hown, htext, OptionalField.start_append, lines_append_cons]
    rfl

theorem optionText_eq_of_lines_eq {fields' : List OptionalField} (hlines : optionLines forged fields' = optionLines optional fields) :
    optionText forged fields' = optionText optional fields := by
  apply lines_injective
  have hforged := lines_append_optionText forged fields' []
  have hoptional := lines_append_optionText optional fields []
  exact hforged.trans ((congrArg _ hlines).trans hoptional.symm)

end

/-! ## Messages of one reading -/

variable {Number : Type} [PyNumber Number]

variable (Number) in
/-- The value has a number, a mark, and the end or an optional field's line, one after another. -/
def HoldsRow (marks : List Token) (value : Text) : Prop :=
  ∃ (number : Number) (before after : Text), ∃ mark ∈ marks,
    value = before ++ '\n' :: ((PyNumber.repr number).text ++ '\n' :: (mark.text ++ after)) ∧
      (after = [] ∨ ∃ field : OptionalField, ∃ text, after = field.start ++ text)

/-- The fields leave only one way to read their message. -/
structure Signed.Unequivocal (marks : List Token) (s : Signed Number) : Prop where
  named : s.toolName ≠ none ∧ s.toolName ≠ some []
  oneLine : '\n' ∉ s.method ∧ '\n' ∉ s.toolName.getD [] ∧ '\n' ∉ s.runId
  oneOption : SoleOption s.optional OptionalField.all
  noRow : ∀ field value, s.optional field = some value → ¬ HoldsRow Number marks value

theorem Signed.lines_message (s : Signed Number) (hprior : '\n' ∉ s.priorHmac) :
    lines s.message = lines s.method ++ (lines (s.toolName.getD []) ++ (lines s.paramsDigest ++ (lines s.runId ++
      (PyNumber.repr s.timestamp).text :: s.priorHmac :: optionLines s.optional OptionalField.all))) := by
  unfold message
  rw [lines_append_cons, lines_append_cons, lines_append_cons, lines_append_cons, lines_append_cons, Token.lines,
    lines_append_optionText, lines_of_not_mem hprior]
  rfl

theorem toolName_eq_of_getD_eq {one other : Option Text} (hone : one ≠ none ∧ one ≠ some [])
    (hsame : other.getD [] = one.getD []) : other = one := by
  cases one with
  | none => exact absurd rfl hone.1
  | some text =>
    cases other with
    | none => exact absurd (congrArg some hsame.symm) hone.2
    | some name => exact congrArg some hsame

theorem eq_of_lines_eq_singleton {text line : Text} (hlines : lines text = [line]) : text = line := by
  have hwhole : ['\n'].intercalate (lines text) = text := intercalate_splitOn '\n'
  rw [← hwhole, hlines, intercalate_singleton]

theorem SoleOption.optionLines_cases {optional : OptionalField → Option Text} {fields : List OptionalField} (hsole : SoleOption optional fields) :
    optionLines optional fields = [] ∨
      ∃ field value first rest, optional field = some value ∧ lines value = first :: rest ∧
        optionLines optional fields = (field.name ++ '=' :: first) :: rest := by
  rcases hsole.cases with hnone | ⟨field, -, value, hvalue, htext⟩
  · refine .inl ?_
    rw [optionLines, optionText_of_none hnone]
    rfl
  · have hname : '\n' ∉ field.name ++ ['='] := by
      intro hmem
      rcases mem_append.mp hmem with hmem | hmem
      · exact (field.name_plain _ hmem).1 rfl
      · exact absurd hmem (by decide)
    obtain ⟨first, rest, hfirst, hwhole⟩ := lines_append_of_not_mem hname value
    refine .inr ⟨field, value, first, rest, hvalue, hfirst, ?_⟩
    have hlines : optionLines optional fields = lines (field.name ++ ['='] ++ value) := by
      rw [optionLines, htext, OptionalField.start_append, ← append_cons]
      exact congrArg List.tail (lines_append_cons [] _)
    rw [hlines, hwhole, append_assoc, singleton_append]

theorem lines_cases {first second third fourth rest rest' : List Text} {a b c d : Text}
    (hfirst : first ≠ []) (hsecond : second ≠ []) (hthird : third ≠ []) (hfourth : fourth ≠ [])
    (hsame : first ++ (second ++ (third ++ (fourth ++ rest'))) = [a] ++ ([b] ++ ([c] ++ ([d] ++ rest)))) :
    (first = [a] ∧ second = [b] ∧ third = [c] ∧ fourth = [d] ∧ rest' = rest) ∨ ∃ more ≠ [], rest = more ++ rest' := by
  obtain ⟨a', first, rfl⟩ := exists_cons_of_ne_nil hfirst
  obtain ⟨b', second, rfl⟩ := exists_cons_of_ne_nil hsecond
  obtain ⟨c', third, rfl⟩ := exists_cons_of_ne_nil hthird
  obtain ⟨d', fourth, rfl⟩ := exists_cons_of_ne_nil hfourth
  have hlengths := congrArg List.length hsame
  simp only [length_append, length_cons, length_nil] at hlengths
  have hwhole : (a' :: first ++ (b' :: second ++ (c' :: third ++ d' :: fourth))) ++ rest' = [a, b, c, d] ++ rest := by
    simpa only [append_assoc, cons_append, nil_append] using hsame
  rcases append_eq_append_iff.mp hwhole with ⟨more, hmore, hrest⟩ | ⟨more, hmore, hrest⟩
  · -- the four fields are no longer than four lines, so nothing is left between them and the timestamp
    have hshort := congrArg List.length hmore
    simp only [length_append, length_cons, length_nil] at hshort
    have hnil : more = [] ∧ first = [] ∧ second = [] ∧ third = [] ∧ fourth = [] := by
      simp only [← length_eq_zero_iff]
      omega
    obtain ⟨rfl, rfl, rfl, rfl, rfl⟩ := hnil
    simp only [append_nil, cons_append, nil_append, List.cons.injEq, and_true] at hmore
    obtain ⟨rfl, rfl, rfl, rfl⟩ := hmore
    exact .inl ⟨rfl, rfl, rfl, rfl, hrest⟩
  · cases more with
    | nil =>
      have hshort := congrArg List.length hmore
      simp only [length_append, length_cons, length_nil] at hshort
      have hnil : first = [] ∧ second = [] ∧ third = [] ∧ fourth = [] := by
        simp only [← length_eq_zero_iff]
        omega
      obtain ⟨rfl, rfl, rfl, rfl⟩ := hnil
      simp only [append_nil, cons_append, nil_append, List.cons.injEq, and_true] at hmore
      obtain ⟨rfl, rfl, rfl, rfl⟩ := hmore
      exact .inl ⟨rfl, rfl, rfl, rfl, hrest.symm⟩
    | cons line more => exact .inr ⟨line :: more, cons_ne_nil _ _, hrest⟩

theorem holdsRow_of_lines_eq {marks : List Token} {mark : Token} (hmark : mark ∈ marks) {number : Number}
    {value first : Text} {more : List Text} {optional : OptionalField → Option Text}
    (hlines : lines value = first :: more ++
      ((PyNumber.repr number).text :: mark.text :: optionLines optional OptionalField.all)) :
    HoldsRow Number marks value := by
  obtain ⟨before, after, hvalue, -, hafter⟩ :=
    exists_of_lines_eq hlines (cons_ne_nil _ _) (cons_ne_nil _ _)
  have htext : after = (PyNumber.repr number).text ++ '\n' :: (mark.text ++ optionText optional OptionalField.all) := by
    apply lines_injective
    rw [hafter, lines_append_cons, Token.lines, lines_append_optionText, Token.lines]
    rfl
  refine ⟨number, before, optionText optional OptionalField.all, mark, hmark, by rw [hvalue, htext], ?_⟩
  rcases optionText_cases optional OptionalField.all with hnone | ⟨field, -, text, htext⟩
  · exact .inl (optionText_of_none hnone)
  · exact .inr ⟨field, text, htext⟩

theorem Signed.Unequivocal.eq_of_message_eq {marks : List Token} {s forged : Signed Number} {mark : Token}
    (hs : s.Unequivocal marks) (hdigest : '\n' ∉ s.paramsDigest) {prior : Token} (hprior : s.priorHmac = prior.text)
    (hmark : mark ∈ marks) (hforged : forged.priorHmac = mark.text) (hsame : forged.message = s.message) :
    forged = s := by
  obtain ⟨hmethod, htool, hrun⟩ := hs.oneLine
  have hlines := congrArg lines hsame
  rw [s.lines_message (hprior ▸ prior.not_mem), forged.lines_message (hforged ▸ mark.not_mem),
    lines_of_not_mem hmethod, lines_of_not_mem htool, lines_of_not_mem hdigest, lines_of_not_mem hrun] at hlines
  rcases lines_cases (lines_ne_nil _) (lines_ne_nil _) (lines_ne_nil _) (lines_ne_nil _) hlines with
    ⟨hmethod', htool', hdigest', hrun', hrest⟩ | ⟨more, hmore, hrest⟩
  · obtain ⟨htimestamp, hmarks, hoptions⟩ := (List.cons.inj hrest).imp_right List.cons.inj
    have hoptional : forged.optional = s.optional := funext fun field =>
      hs.oneOption.eq_of_optionText_eq OptionalField.all_nodup (optionText_eq_of_lines_eq hoptions) field field.mem_all
    have hnumber : forged.timestamp = s.timestamp :=
      PyNumber.repr_injective (Token.text_injective htimestamp)
    have hname := toolName_eq_of_getD_eq hs.named (eq_of_lines_eq_singleton htool')
    have hmethod := eq_of_lines_eq_singleton hmethod'
    have hdigest := eq_of_lines_eq_singleton hdigest'
    have hrun := eq_of_lines_eq_singleton hrun'
    cases forged
    cases s
    simp_all
  · refine absurd hrest ?_
    rcases hs.oneOption.optionLines_cases with hnil | ⟨field, value, first, lower, hvalue, hvalueLines, hfield⟩
    · rw [hnil]
      intro hrest
      have hlengths := congrArg List.length hrest
      simp only [length_append, length_cons, length_nil] at hlengths
      exact hmore (length_eq_zero_iff.mp (by omega))
    · rw [hfield]
      have hequals : '=' ∈ field.name ++ '=' :: first := mem_append_right _ mem_cons_self
      intro hrest
      match more, hmore, hrest with
      | [_], _, hrest =>
        obtain ⟨-, -, hmarkLine, -⟩ := (List.cons.inj hrest).imp_right fun h => (List.cons.inj h).imp_right List.cons.inj
        rw [hmarkLine, hforged] at hequals
        exact (mark.plain _ hequals).2 rfl
      | [_, _], _, hrest =>
        obtain ⟨-, -, hnumberLine, -⟩ := (List.cons.inj hrest).imp_right fun h => (List.cons.inj h).imp_right List.cons.inj
        rw [hnumberLine] at hequals
        exact ((PyNumber.repr forged.timestamp).plain _ hequals).2 rfl
      | _ :: _ :: _ :: more, _, hrest =>
        obtain ⟨-, -, -, hlower⟩ := (List.cons.inj hrest).imp_right fun h => (List.cons.inj h).imp_right List.cons.inj
        rw [hforged] at hlower
        exact hs.noRow field value hvalue (holdsRow_of_lines_eq hmark (hvalueLines.trans (congrArg _ hlower)))

end RalphWorkflow.Mcp.WireLedger
