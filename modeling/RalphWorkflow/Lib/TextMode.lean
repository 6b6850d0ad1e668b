import RalphWorkflow.Lib.Text

/-! What a text file opened with `errors="replace"` makes of its bytes: UTF-8, with a replacement character for what is none, and a line feed
for every line end. -/
namespace RalphWorkflow.Lib.TextMode
open List
open Lib.Text (isLineBreak splitLinesFrom)

abbrev Bytes := List UInt8

abbrev Text := List Char

/-! ## UTF-8 -/

/-- Between characters or inside one: the bits so far, the bytes missing, and the range of the next byte. -/
inductive Pending
  | none
  | inside (value owed above below : Nat)
  deriving DecidableEq

def replacement : Char := '\uFFFD'

def firstByte (b : Nat) : Text × Pending :=
  if b < 0x80 then ([Char.ofNat b], .none)
  else if 0xC2 ≤ b ∧ b ≤ 0xDF then ([], .inside (b - 0xC0) 1 0 0)
  else if b = 0xE0 then ([], .inside 0 2 0x20 0)
  else if b = 0xED then ([], .inside 0xD 2 0 0x20)
  else if 0xE1 ≤ b ∧ b ≤ 0xEF then ([], .inside (b - 0xE0) 2 0 0)
  else if b = 0xF0 then ([], .inside 0 3 0x10 0)
  else if b = 0xF4 then ([], .inside 4 3 0 0x30)
  else if 0xF1 ≤ b ∧ b ≤ 0xF3 then ([], .inside (b - 0xF0) 3 0 0)
  else ([replacement], .none)

def stepByte : Pending → Nat → Text × Pending
  | .none, b => firstByte b
  | .inside value owed above below, b =>
    if 0x80 + above ≤ b ∧ b + below ≤ 0xBF then
      if owed ≤ 1 then ([Char.ofNat (64 * value + (b - 0x80))], .none) else ([], .inside (64 * value + (b - 0x80)) (owed - 1) 0 0)
    else (replacement :: (firstByte b).1, (firstByte b).2)

def decodeFrom : Pending → Bytes → Text
  | .none, [] => []
  | .inside _ _ _ _, [] => [replacement]
  | pending, b :: bytes => (stepByte pending b.toNat).1 ++ decodeFrom (stepByte pending b.toNat).2 bytes

def decode (bytes : Bytes) : Text := decodeFrom .none bytes

/-! ## Line ends -/

/-- A carriage return is a line end, with the line feed that follows it. -/
def translateFrom : Bool → Text → Text
  | _, [] => []
  | afterReturn, c :: text =>
    if c = '\r' then '\n' :: translateFrom true text
    else if c = '\n' ∧ afterReturn = true then translateFrom false text
    else c :: translateFrom false text

def readText (bytes : Bytes) : Text := translateFrom false (decode bytes)

/-- The lines that have their line feed, after the characters of the line so far, last first. -/
def completeLinesFrom (line : Text) : Text → List Text
  | [] => []
  | c :: text => if c = '\n' then line.reverse :: completeLinesFrom [] text else completeLinesFrom (c :: line) text

def completeLines (text : Text) : List Text := completeLinesFrom [] text

/-! ## Whole lines -/

def EndsLine {α : Type} (feed : α) (text : List α) : Prop := text = [] ∨ ∃ front, text = front ++ [feed]

theorem stepByte_feed (pending : Pending) : ∃ cut, stepByte pending 10 = (cut ++ ['\n'], .none) := by
  cases pending with
  | none => exact ⟨[], rfl⟩
  | inside value owed above below =>
    refine ⟨[replacement], ?_⟩
    have hlow : ¬ (0x80 + above ≤ 10 ∧ 10 + below ≤ 0xBF) := by omega
    rw [stepByte, if_neg hlow]
    rfl

theorem decodeFrom_feed (pending : Pending) (front : Bytes) :
    ∃ text, ∀ rest, decodeFrom pending (front ++ 10 :: rest) = text ++ '\n' :: decodeFrom .none rest := by
  induction front generalizing pending with
  | nil =>
    obtain ⟨cut, hcut⟩ := stepByte_feed pending
    have hten : (10 : UInt8).toNat = 10 := rfl
    refine ⟨cut, fun rest => ?_⟩
    rw [nil_append, decodeFrom, hten, hcut]
    simp
  | cons b front ih =>
    obtain ⟨text, htext⟩ := ih (stepByte pending b.toNat).2
    refine ⟨(stepByte pending b.toNat).1 ++ text, fun rest => ?_⟩
    rw [cons_append, decodeFrom, htext, append_assoc]

theorem translateFrom_feed (afterReturn : Bool) (front : Text) : ∃ text, (∃ line, (if afterReturn then ['\n'] else []) ++ text = line ++ ['\n']) ∧
      ∀ rest, translateFrom afterReturn (front ++ '\n' :: rest) = text ++ translateFrom false rest := by
  induction front generalizing afterReturn with
  | nil =>
    cases afterReturn with
    | true => exact ⟨[], ⟨[], rfl⟩, fun rest => by simp [translateFrom]⟩
    | false => exact ⟨['\n'], ⟨[], rfl⟩, fun rest => by simp [translateFrom]⟩
  | cons c front ih =>
    by_cases hreturn : c = '\r'
    · obtain ⟨text, ⟨line, hline⟩, htext⟩ := ih true
      refine ⟨'\n' :: text, ⟨(if afterReturn then ['\n'] else []) ++ line, ?_⟩, fun rest => ?_⟩
      · rw [append_assoc, ← hline]
        rfl
      · rw [cons_append, translateFrom, if_pos hreturn, htext, cons_append]
    · obtain ⟨text, ⟨line, hline⟩, htext⟩ := ih false
      have htextLine : text = line ++ ['\n'] := hline
      by_cases hfeed : c = '\n' ∧ afterReturn = true
      · refine ⟨text, ⟨(if afterReturn then ['\n'] else []) ++ line, by rw [htextLine, append_assoc]⟩, fun rest => ?_⟩
        rw [cons_append, translateFrom, if_neg hreturn, if_pos hfeed, htext]
      · refine ⟨c :: text, ⟨(if afterReturn then ['\n'] else []) ++ c :: line, by rw [htextLine, append_assoc]; rfl⟩, fun rest => ?_⟩
        rw [cons_append, translateFrom, if_neg hreturn, if_neg hfeed, htext, cons_append]

variable {bytes : Bytes} {text : Text}

theorem readText_append (hbytes : EndsLine 10 bytes) (rest : Bytes) : readText (bytes ++ rest) = readText bytes ++ readText rest := by
  rcases hbytes with rfl | ⟨front, rfl⟩
  · rfl
  · obtain ⟨text, htext⟩ := decodeFrom_feed .none front
    obtain ⟨read, -, hread⟩ := translateFrom_feed false text
    have hwhole : ∀ rest, readText (front ++ 10 :: rest) = read ++ readText rest := by
      intro rest
      rw [readText, decode, htext, hread, readText, decode]
    rw [append_assoc, singleton_append, hwhole, hwhole []]
    simp [readText, decode, decodeFrom, translateFrom]

theorem readText_endsLine (hbytes : EndsLine 10 bytes) : EndsLine '\n' (readText bytes) := by
  rcases hbytes with rfl | ⟨front, rfl⟩
  · exact .inl rfl
  · obtain ⟨text, htext⟩ := decodeFrom_feed .none front
    obtain ⟨read, ⟨line, hline⟩, hread⟩ := translateFrom_feed false text
    refine .inr ⟨line, ?_⟩
    rw [readText, decode, htext, hread]
    simpa [decodeFrom, translateFrom] using hline

theorem completeLinesFrom_feed (line front rest : Text) :
    completeLinesFrom line (front ++ '\n' :: rest) = completeLinesFrom line (front ++ ['\n']) ++ completeLines rest := by
  induction front generalizing line with
  | nil => simp [completeLinesFrom, completeLines]
  | cons c front ih =>
    by_cases hfeed : c = '\n'
    · simp [completeLinesFrom, hfeed, ih]
    · simp [completeLinesFrom, hfeed, ih]

theorem completeLines_append (htext : EndsLine '\n' text) (rest : Text) : completeLines (text ++ rest) = completeLines text ++ completeLines rest := by
  rcases htext with rfl | ⟨front, rfl⟩
  · rfl
  · rw [append_assoc, singleton_append]
    exact completeLinesFrom_feed [] front rest

theorem splitLinesFrom_eq (line front : Text) (hbreaks : ∀ c ∈ front, isLineBreak c = true → c = '\n') :
    splitLinesFrom line (front ++ ['\n']) = completeLinesFrom line (front ++ ['\n']) := by
  have hfeed : isLineBreak '\n' = true := by decide
  induction front generalizing line with
  | nil => simp [splitLinesFrom, completeLinesFrom, hfeed]
  | cons c front ih =>
    rw [forall_mem_cons] at hbreaks
    have hreturn : ∀ tail, c = '\r' → front ++ ['\n'] = '\n' :: tail → False := by
      rintro tail rfl -
      exact absurd (hbreaks.1 (by decide)) (by decide)
    rw [cons_append, splitLinesFrom.eq_3 _ _ _ hreturn, completeLinesFrom]
    by_cases hc : c = '\n'
    · rw [if_pos hc, hc, if_pos hfeed, ih [] hbreaks.2]
    · have hbreak : ¬ isLineBreak c = true := fun hbreak => hc (hbreaks.1 hbreak)
      rw [if_neg hc, if_neg hbreak, ih (c :: line) hbreaks.2]

theorem splitLinesFrom_whole (htext : EndsLine '\n' text) (hbreaks : ∀ c ∈ text, isLineBreak c = true → c = '\n') :
    splitLinesFrom [] text = completeLines text := by
  rcases htext with rfl | ⟨front, rfl⟩
  · rfl
  · exact splitLinesFrom_eq [] front fun c hc => hbreaks c (mem_append_left _ hc)

/-! ## Lengths -/

def Pending.count : Pending → Nat
  | .none => 0
  | .inside _ _ _ _ => 1

theorem length_firstByte (b : Nat) : (firstByte b).1.length + (firstByte b).2.count = 1 := by
  unfold firstByte
  split_ifs <;> rfl

theorem length_stepByte (pending : Pending) (b : Nat) : (stepByte pending b).1.length + (stepByte pending b).2.count ≤ 1 + pending.count := by
  have hfirst := length_firstByte b
  cases pending with
  | none =>
    rw [stepByte, hfirst]
    exact Nat.le_add_right _ _
  | inside value owed above below =>
    rw [stepByte]
    split_ifs
    · simp [Pending.count]
    · simp [Pending.count]
    · simp only [length_cons, Pending.count] at hfirst ⊢
      omega

theorem length_decodeFrom (pending : Pending) (bytes : Bytes) : (decodeFrom pending bytes).length ≤ bytes.length + pending.count := by
  induction bytes generalizing pending with
  | nil => cases pending <;> simp [decodeFrom, Pending.count]
  | cons b bytes ih =>
    have hrest := ih (stepByte pending b.toNat).2
    have hstep := length_stepByte pending b.toNat
    rw [decodeFrom, length_append, length_cons]
    omega

theorem length_translateFrom (afterReturn : Bool) (text : Text) : (translateFrom afterReturn text).length ≤ text.length := by
  induction text generalizing afterReturn with
  | nil => simp [translateFrom]
  | cons c text ih =>
    have hreturn := ih true
    have hother := ih false
    rw [translateFrom]
    split_ifs <;> simp only [length_cons] <;> omega

theorem length_readText (bytes : Bytes) : (readText bytes).length ≤ bytes.length := by
  have htranslated := length_translateFrom false (decode bytes)
  have hdecoded := length_decodeFrom .none bytes
  have hnone : Pending.none.count = 0 := rfl
  unfold readText decode at *
  omega

theorem ofNat_ne_return : ∀ n < 0x80, n ≠ 13 → Char.ofNat n ≠ '\r' := by decide

theorem readText_ascii (hplain : ∀ b ∈ bytes, b.toNat < 0x80 ∧ b.toNat ≠ 13) (rest : Bytes) :
    readText (bytes ++ rest) = bytes.map (fun b => Char.ofNat b.toNat) ++ readText rest := by
  induction bytes with
  | nil => rfl
  | cons b bytes ih =>
    rw [forall_mem_cons] at hplain
    have hread := ih hplain.2
    have hstep : stepByte .none b.toNat = ([Char.ofNat b.toNat], .none) := by rw [stepByte, firstByte, if_pos hplain.1.1]
    have hreturn : Char.ofNat b.toNat ≠ '\r' := ofNat_ne_return b.toNat hplain.1.1 hplain.1.2
    unfold readText decode at hread ⊢
    rw [cons_append, decodeFrom, hstep, singleton_append, translateFrom, if_neg hreturn]
    simp [hread]

end RalphWorkflow.Lib.TextMode
