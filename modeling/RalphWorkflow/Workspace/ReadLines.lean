import Mathlib.Data.List.Induction
import RalphWorkflow.Lib.Deque
import RalphWorkflow.Lib.Text

/-! `read_lines` of `ralph/workspace/fs.py` and `ralph/workspace/memory.py`. The one goes through the lines of a file in text mode; the other splits
a string with `splitlines`, which knows more line ends and keeps each as it is. -/
namespace RalphWorkflow.ReadLines
open Lib List
open Lib.Text (isLineBreak pyRepr)

abbrev Text := List Char

def grow (c : Char) : List Text → List Text
  | [] => [[c]]
  | line :: lines => (c :: line) :: lines

/-- The parts of a text that end with each break; a carriage return and the line feed after it are one. -/
def cut (isBreak : Char → Bool) : Text → List Text
  | [] => []
  | '\r' :: '\n' :: rest => ['\r', '\n'] :: cut isBreak rest
  | c :: rest =>
    if isBreak c then [c] :: cut isBreak rest
    else grow c (cut isBreak rest)

def translate : Text → Text
  | [] => []
  | '\r' :: '\n' :: rest => '\n' :: translate rest
  | c :: rest => (if c = '\r' then '\n' else c) :: translate rest

structure Selector where
  start : Option Nat := none
  end_ : Option Nat := none
  head : Option Nat := none
  tail : Option Nat := none
  maxBytes : Option Nat := none

def Selector.hasRange (selector : Selector) : Bool := selector.start.isSome || selector.end_.isSome

def Selector.modeCount (selector : Selector) : Nat :=
  [selector.hasRange, selector.head.isSome, selector.tail.isSome].countP id

structure Reading where
  text : Text
  totalLines : Nat
  returnedLines : Nat
  truncated : Bool
  deriving DecidableEq

inductive ReadError
  | unicodeDecode
  | value (message : String)
  deriving DecidableEq

def tooManyModes : ReadError := .value "Only one of (start/end range), head, or tail may be specified"

def tooLarge (size limit : Nat) (path : String) : ReadError :=
  .value ("File too large for read_lines: " ++ toString size ++ " bytes exceeds limit of " ++ toString limit ++
    " bytes (path=" ++ pyRepr path ++ "). Use a partial read (head/tail/range) or raise max_bytes.")

/-! ## The file system workspace -/

def maxReadLinesBytes : Nat := 5000000

/-- What is selected so far, and how many lines there were. -/
def pick (selector : Selector) (taken : List Text × Nat) (line : Text) : List Text × Nat :=
  let (selected, lineIndex) := taken
  let selected :=
    match selector.head, selector.tail with
    | some head, _ => if lineIndex < head then selected ++ [line] else selected
    | none, some tail => Deque.push tail selected line
    | none, none =>
      if selector.hasRange then
        let startIndex := selector.start.getD 1 - 1
        if startIndex ≤ lineIndex && selector.end_.all fun last => lineIndex < last then selected ++ [line] else selected
      else selected ++ [line]
  (selected, lineIndex + 1)

def readLinesOnce (selector : Selector) (text : Text) : List Text × Nat :=
  (cut (· == '\n') (translate text)).foldl (pick selector) ([], 0)

def fsReadLines (path : String) (bytes : ByteArray) (selector : Selector) : Except ReadError Reading :=
  if 1 < selector.modeCount then .error tooManyModes
  else
    let ceiling := selector.maxBytes.getD maxReadLinesBytes
    if selector.modeCount = 0 && decide (ceiling < bytes.size) then .error (tooLarge bytes.size ceiling path)
    else
      match String.fromUTF8? bytes with
      | none => .error .unicodeDecode
      | some content =>
        let (returned, total) := readLinesOnce selector content.toList
        .ok
          { text := returned.flatten
            totalLines := total
            returnedLines := returned.length
            truncated := selector.head.any (· < total) || selector.tail.any (· < total) || selector.end_.any (· < total) }

/-! ## The workspace in memory -/

def memoryReadLines (path : String) (content : String) (selector : Selector) : Except ReadError Reading :=
  if 1 < selector.modeCount then .error tooManyModes
  else
    let size := content.utf8ByteSize
    match selector.maxBytes.filter fun limit => selector.modeCount = 0 && decide (limit < size) with
    | some limit => .error (tooLarge size limit path)
    | none =>
      let lines := cut isLineBreak content.toList
      let total := lines.length
      let (returned, truncated) :=
        match selector.head, selector.tail with
        | some head, _ => (lines.take head, decide (head < total))
        | none, some tail => (if tail = 0 then [] else lines.drop (total - tail), decide (tail < total))
        | none, none =>
          if selector.hasRange then
            let endIndex := min total (selector.end_.getD total)
            ((lines.take endIndex).drop (selector.start.getD 1 - 1), decide (endIndex < total))
          else (lines, false)
      .ok { text := returned.flatten, totalLines := total, returnedLines := returned.length, truncated }

/-! ## Lines -/

def isUniversal (c : Char) : Bool := c == '\n' || c == '\r'

/-- Every line end but those of the text mode is the last character. -/
def Tame (text : Text) : Prop := ∀ c ∈ text.dropLast, isLineBreak c = true → isUniversal c = true

variable {isBreak : Char → Bool} {c : Char} {text rest : Text} {lines : List Text}

/-- The character does not begin a line end of two characters. -/
def Single (c : Char) (rest : Text) : Prop := ∀ later, c = '\r' → rest = '\n' :: later → False

theorem cut_cons (h : Single c rest) :
    cut isBreak (c :: rest) = if isBreak c then [c] :: cut isBreak rest else grow c (cut isBreak rest) := cut.eq_3 _ _ _ h

theorem translate_cons (h : Single c rest) : translate (c :: rest) = (if c = '\r' then '\n' else c) :: translate rest :=
  translate.eq_3 _ _ h

theorem length_grow (c : Char) (lines : List Text) : (grow c lines).length = max 1 lines.length := by
  cases lines with
  | nil => rfl
  | cons line lines => simp [grow]

theorem cut_eq_nil_iff (isBreak : Char → Bool) (text : Text) : cut isBreak text = [] ↔ text = [] := by
  induction text using translate.induct with
  | case1 => simp [cut]
  | case2 rest ih => simp [cut]
  | case3 c rest hsingle ih =>
    rw [cut_cons hsingle]
    split_ifs
    · simp
    · cases cut isBreak rest <;> simp [grow]

theorem return_not_mem_translate (text : Text) : '\r' ∉ translate text := by
  induction text using translate.induct with
  | case1 => simp [translate]
  | case2 rest ih => simpa [translate] using ih
  | case3 c rest hsingle ih =>
    rw [translate_cons hsingle, mem_cons, not_or]
    refine ⟨?_, ih⟩
    split_ifs with hreturn
    · decide
    · exact Ne.symm hreturn

theorem translate_eq_self (h : '\r' ∉ text) : translate text = text := by
  induction text using translate.induct with
  | case1 => rfl
  | case2 rest ih => simp at h
  | case3 c rest hsingle ih =>
    rw [mem_cons, not_or] at h
    rw [translate_cons hsingle, if_neg (Ne.symm h.1), ih h.2]

theorem map_translate_grow (hc : c ≠ '\r') (lines : List Text) : (grow c lines).map translate = grow c (lines.map translate) := by
  have hfront (line : Text) : translate (c :: line) = c :: translate line := by
    rw [translate_cons fun _ hreturn => absurd hreturn hc, if_neg hc]
  cases lines with
  | nil => simp [grow, hfront, translate]
  | cons line lines => simp [grow, hfront]

theorem cut_translate (text : Text) : cut (· == '\n') (translate text) = (cut isUniversal text).map translate := by
  induction text using translate.induct with
  | case1 => rfl
  | case2 rest ih =>
    have hfeed : Single '\n' (translate rest) := fun _ h => absurd h (by decide)
    rw [translate, cut, cut_cons hfeed, ih]
    simp [translate]
  | case3 c rest hsingle ih =>
    have hfirst : Single (if c = '\r' then '\n' else c) (translate rest) := by
      intro later hreturn
      by_cases h : c = '\r'
      · rw [if_pos h] at hreturn
        exact absurd hreturn (by decide)
      · rw [if_neg h] at hreturn
        exact absurd hreturn h
    rw [translate_cons hsingle, cut_cons hsingle, cut_cons hfirst, ih]
    by_cases hreturn : c = '\r'
    · simp [hreturn, isUniversal, translate]
    · rw [if_neg hreturn]
      by_cases hfeed : c = '\n'
      · simp [hfeed, isUniversal, translate]
      · simp [hreturn, hfeed, isUniversal, map_translate_grow hreturn]

theorem tame_cons (c : Char) (hrest : rest ≠ []) : Tame (c :: rest) ↔ (isLineBreak c = true → isUniversal c = true) ∧ Tame rest := by
  unfold Tame
  rw [dropLast_cons_of_ne_nil hrest, forall_mem_cons]

theorem cut_universal (text : Text) : (cut isUniversal text).length ≤ (cut isLineBreak text).length ∧
    ((cut isUniversal text).length = (cut isLineBreak text).length → Tame text) ∧
    (Tame text → cut isUniversal text = cut isLineBreak text) := by
  induction text using translate.induct with
  | case1 => exact ⟨le_rfl, fun _ => by simp [Tame], fun _ => rfl⟩
  | case2 rest ih =>
    have htame : Tame ('\r' :: '\n' :: rest) ↔ Tame rest := by
      cases rest with
      | nil => simp [Tame, isUniversal]
      | cons c rest => simp [tame_cons, isUniversal]
    rw [htame]
    simpa [cut] using ih
  | case3 c rest hsingle ih =>
    obtain ⟨hle, hequal, hsame⟩ := ih
    rw [cut_cons hsingle, cut_cons hsingle]
    by_cases hrest : rest = []
    · subst hrest
      cases isUniversal c <;> cases isLineBreak c <;> simp [cut, grow, Tame]
    · have hlines := mt (cut_eq_nil_iff isUniversal rest).mp hrest
      have hpos := length_pos_iff.mpr hlines
      rw [tame_cons c hrest]
      cases huniversal : isUniversal c with
      | true =>
        have hbreak : isLineBreak c = true := by
          rcases Bool.or_eq_true_iff.mp huniversal with h | h <;> rw [beq_iff_eq.mp h] <;> decide
        rw [hbreak]
        simpa using ⟨hle, hequal, hsame⟩
      | false =>
        cases hbreak : isLineBreak c with
        | true =>
          simp only [Bool.false_eq_true, if_false, if_true, length_grow, length_cons]
          exact ⟨by omega, fun hlength => by omega, fun h => absurd (h.1 trivial) (by simp)⟩
        | false =>
          simp only [Bool.false_eq_true, if_false, length_grow]
          refine ⟨by omega, fun hlength => ⟨fun h => absurd h (by simp), hequal (by omega)⟩, fun h => ?_⟩
          rw [hsame h.2]

/-! ## Selections -/

def Selector.window (selector : Selector) (lines : List Text) : List Text :=
  match selector.head, selector.tail with
  | some head, _ => lines.take head
  | none, some tail => Deque.newest tail lines
  | none, none =>
    if selector.hasRange then (lines.take (selector.end_.getD lines.length)).drop (selector.start.getD 1 - 1) else lines

variable {selector : Selector}

theorem window_map (f : Text → Text) (lines : List Text) : selector.window (lines.map f) = (selector.window lines).map f := by
  unfold Selector.window
  cases selector.head with
  | some head => exact map_take.symm
  | none =>
    cases selector.tail with
    | some tail => simp [Deque.newest]
    | none => split_ifs <;> simp

theorem take_concat (n : Nat) (line : Text) (lines : List Text) :
    (lines ++ [line]).take n = if lines.length < n then lines.take n ++ [line] else lines.take n := by
  rw [take_append]
  split_ifs with hroom
  · rw [take_of_length_le (by simp; omega : [line].length ≤ n - lines.length)]
  · rw [Nat.sub_eq_zero_of_le (not_lt.mp hroom), take_zero, append_nil]

theorem drop_concat (n : Nat) (line : Text) (lines : List Text) :
    (lines ++ [line]).drop n = if n ≤ lines.length then lines.drop n ++ [line] else lines.drop n := by
  split_ifs with hroom
  · exact drop_append_of_le_length hroom
  · have hshort : lines.length ≤ n := by omega
    have hall : (lines ++ [line]).length ≤ n := by
      rw [length_append, length_singleton]
      omega
    rw [drop_of_length_le hshort, drop_of_length_le hall]

theorem pick_all (selector : Selector) (lines : List Text) : lines.foldl (pick selector) ([], 0) = (selector.window lines, lines.length) := by
  induction lines using List.reverseRecOn with
  | nil =>
    unfold Selector.window
    cases selector.head with
    | some head => simp
    | none => cases selector.tail <;> simp [Deque.newest]
  | append_singleton lines line ih =>
    rw [foldl_concat, ih, length_append, length_singleton]
    refine Prod.ext ?_ rfl
    unfold pick Selector.window
    cases selector.head with
    | some head => exact (take_concat head line lines).symm
    | none =>
      cases selector.tail with
      | some tail => exact Deque.push_newest tail lines line
      | none =>
        cases selector.hasRange with
        | false => rfl
        | true =>
          rw [length_append, length_singleton]
          cases selector.end_ with
          | none =>
            simp only [if_true, Option.all_none, Bool.and_true, Option.getD_none, take_length, decide_eq_true_eq]
            rw [take_of_length_le (by simp), drop_concat]
          | some last =>
            simp only [if_true, Option.all_some, Option.getD_some, Bool.and_eq_true, decide_eq_true_eq, take_concat]
            by_cases hroom : lines.length < last
            · have hall : lines.take last = lines := take_of_length_le hroom.le
              simp only [hroom, and_true, if_true, hall, drop_concat]
            · simp only [hroom, and_false, if_false]

/-! ## Both workspaces -/

def Selector.reading (selector : Selector) (lines : List Text) : Reading where
  text := (selector.window lines).flatten
  totalLines := lines.length
  returnedLines := (selector.window lines).length
  truncated := selector.head.any (· < lines.length) || selector.tail.any (· < lines.length) ||
    selector.end_.any (· < lines.length)

theorem fsReadLines_eq {path content : String} (hmode : selector.modeCount ≤ 1)
    (hsize : content.utf8ByteSize ≤ selector.maxBytes.getD maxReadLinesBytes) :
    fsReadLines path content.toUTF8 selector = .ok (selector.reading ((cut isUniversal content.toList).map translate)) := by
  have hbytes : content.toUTF8.size = content.utf8ByteSize := rfl
  have hdecode : String.fromUTF8? content.toUTF8 = some content := dif_pos content.isValidUTF8
  unfold fsReadLines
  rw [if_neg (not_lt.mpr hmode), hbytes, hdecode]
  simp only [not_lt.mpr hsize, decide_false, Bool.and_false, Bool.false_eq_true, if_false]
  unfold readLinesOnce
  rw [pick_all, cut_translate]
  rfl

theorem memoryReadLines_eq {path content : String} (hmode : selector.modeCount ≤ 1)
    (hsize : content.utf8ByteSize ≤ selector.maxBytes.getD maxReadLinesBytes) :
    memoryReadLines path content selector = .ok (selector.reading (cut isLineBreak content.toList)) := by
  have hceiling : (selector.maxBytes.filter fun limit =>
      selector.modeCount = 0 && decide (limit < content.utf8ByteSize)) = none := by
    cases hlimit : selector.maxBytes with
    | none => rfl
    | some limit =>
      rw [hlimit, Option.getD_some] at hsize
      simp [Option.filter, hsize]
  unfold memoryReadLines
  rw [if_neg (not_lt.mpr hmode)]
  dsimp only
  rw [hceiling]
  generalize cut isLineBreak content.toList = lines
  unfold Selector.reading Selector.window
  obtain ⟨start, last, head, tail, limit⟩ := selector
  unfold Selector.modeCount Selector.hasRange at hmode
  -- At most one of the three kinds of selection is there.
  cases head with
  | some head => cases tail <;> cases start <;> cases last <;> simp at hmode ⊢
  | none =>
    cases tail with
    | some tail =>
      have hlast : (if tail = 0 then [] else lines.drop (lines.length - tail)) = Deque.newest tail lines := by
        unfold Deque.newest
        split_ifs with hzero
        · simp [hzero]
        · rfl
      dsimp only
      rw [hlast]
      cases start <;> cases last <;> simp at hmode ⊢
    | none =>
      have hclip (n : Nat) : lines.take (min n lines.length) = lines.take n := take_eq_take_iff.mpr (by omega)
      cases start <;> cases last <;> simp [Selector.hasRange, hclip, Nat.min_comm lines.length]

theorem readings_agree_iff (text : Text) : selector.reading ((cut isUniversal text).map translate) = selector.reading (cut isLineBreak text) ↔
      Tame text ∧ ∀ line ∈ selector.window (cut isLineBreak text), '\r' ∉ line := by
  obtain ⟨-, hequal, hsame⟩ := cut_universal text
  constructor
  · intro h
    have htame : Tame text := hequal (by simpa [Selector.reading] using congrArg Reading.totalLines h)
    have htext : (selector.window ((cut isUniversal text).map translate)).flatten =
        (selector.window (cut isLineBreak text)).flatten := congrArg Reading.text h
    rw [window_map, hsame htame] at htext
    refine ⟨htame, fun line hline hreturn => ?_⟩
    have hmem : '\r' ∈ ((selector.window (cut isLineBreak text)).map translate).flatten := by
      rw [htext]
      exact mem_flatten_of_mem hline hreturn
    obtain ⟨other, hother, hin⟩ := mem_flatten.mp hmem
    obtain ⟨origin, -, rfl⟩ := mem_map.mp hother
    exact return_not_mem_translate origin hin
  · rintro ⟨htame, hlines⟩
    have hself : (selector.window (cut isLineBreak text)).map translate = selector.window (cut isLineBreak text) :=
      (map_congr_left fun line hline => translate_eq_self (hlines line hline)).trans (map_id' _)
    unfold Selector.reading
    rw [window_map, hsame htame, hself, length_map]

/-- Both raise, or both read the same, with line ends of the text mode only, when no line has a carriage return. -/
theorem readLines_agree_iff (path content : String) (selector : Selector)
    (hsize : content.utf8ByteSize ≤ selector.maxBytes.getD maxReadLinesBytes) :
    fsReadLines path content.toUTF8 selector = memoryReadLines path content selector ↔
      1 < selector.modeCount ∨
        Tame content.toList ∧ ∀ line ∈ selector.window (cut isLineBreak content.toList), '\r' ∉ line := by
  by_cases hmode : 1 < selector.modeCount
  · unfold fsReadLines memoryReadLines
    simp [hmode]
  · have hone := not_lt.mp hmode
    rw [fsReadLines_eq hone hsize, memoryReadLines_eq hone hsize, Except.ok.injEq, readings_agree_iff]
    simp [hmode]

/-- The last two lines of a text with a blank one among them. -/
theorem blank_line_agrees : fsReadLines "a.md" "a\n\nb".toUTF8 { tail := some 2 } = memoryReadLines "a.md" "a\n\nb" { tail := some 2 } ↔
      1 < Selector.modeCount { tail := some 2 } ∨ Tame "a\n\nb".toList ∧
        ∀ line ∈ Selector.window { tail := some 2 } (cut isLineBreak "a\n\nb".toList), '\r' ∉ line :=
  readLines_agree_iff "a.md" "a\n\nb" { tail := some 2 } (by decide +kernel)

/-- A form feed is the end of a line in memory alone. -/
theorem form_feed_disagrees : ¬ ∀ (path content : String) (selector : Selector), content.utf8ByteSize ≤ selector.maxBytes.getD maxReadLinesBytes →
      selector.modeCount ≤ 1 → fsReadLines path content.toUTF8 selector = memoryReadLines path content selector := by
  intro h
  have hsame := h "a.md" "a\x0cb" {} (by decide +kernel) (by decide)
  rw [fsReadLines_eq (by decide) (by decide +kernel), memoryReadLines_eq (by decide) (by decide +kernel)] at hsame
  have hlines := congrArg (fun reading => reading.toOption.map Reading.totalLines) hsame
  revert hlines
  decide +kernel

end RalphWorkflow.ReadLines
