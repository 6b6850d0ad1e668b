import Mathlib.Algebra.Order.Floor.Defs
import Mathlib.Algebra.Order.Ring.Unbundled.Rat
import Mathlib.Data.List.Lex
import Mathlib.Data.List.Sort
import Mathlib.Data.Rat.Floor

/-! The few string operations that messages are built with: `repr` of strings and of lists of strings, the `.0f`
format, `sorted`, a slice from the front, the substring test and the blank test behind `strip() == ""`. -/
namespace RalphWorkflow.Lib.Text
open List

/-- The characters `str.isspace` accepts. -/
def isSpace (c : Char) : Bool :=
  let n := c.toNat
  (9 ≤ n && n ≤ 13) || (28 ≤ n && n ≤ 32) || n == 0x85 || n == 0xa0 || n == 0x1680 ||
    (0x2000 ≤ n && n ≤ 0x200a) || n == 0x2028 || n == 0x2029 || n == 0x202f || n == 0x205f || n == 0x3000

def strip (text : String) : String :=
  String.ofList (((text.toList.dropWhile isSpace).reverse.dropWhile isSpace).reverse)

def isBlank (text : String) : Bool := text.toList.all isSpace

def containsChars (needle : List Char) : List Char → Bool
  | [] => needle.isEmpty
  | c :: rest => needle.isPrefixOf (c :: rest) || containsChars needle rest

def containsText (needle text : String) : Bool := containsChars needle.toList text.toList

def takeText (n : Nat) (text : String) : String := String.ofList (text.toList.take n)

def sortedText (xs : List String) : List String := xs.insertionSort (· ≤ ·)

theorem lt_append_of_lt {α : Type} [LinearOrder α] {xs ys : List α} (h : xs < ys) (hlen : xs.length = ys.length) (us vs : List α) :
    xs ++ us < ys ++ vs := by
  induction xs generalizing ys with
  | nil =>
    cases ys with
    | nil => exact absurd h (lt_irrefl _)
    | cons y ys => simp at hlen
  | cons x xs ih =>
    cases ys with
    | nil => simp at hlen
    | cons y ys =>
      rw [cons_append, cons_append, cons_lt_cons_iff]
      rcases cons_lt_cons_iff.mp h with hxy | ⟨rfl, htail⟩
      · exact .inl hxy
      · exact .inr ⟨rfl, ih htail (Nat.succ.inj hlen)⟩

theorem mem_sortedText (x : String) (xs : List String) : x ∈ sortedText xs ↔ x ∈ xs := mem_insertionSort _

theorem mem_of_mem_splitOn {separator : Char} {text part : List Char} (hpart : part ∈ text.splitOn separator) :
    ∀ c ∈ part, c ∈ text ∧ c ≠ separator := by
  induction text generalizing part with
  | nil =>
    cases mem_singleton.mp hpart
    simp
  | cons first text ih =>
    have hlater : ∀ {part}, part ∈ text.splitOn separator → ∀ c ∈ part, c ∈ first :: text ∧ c ≠ separator :=
      fun hpart c hc => ⟨mem_cons_of_mem _ (ih hpart c hc).1, (ih hpart c hc).2⟩
    rw [splitOn_cons_eq_if_modifyHead] at hpart
    by_cases hseparator : (first == separator) = true
    · rw [if_pos hseparator] at hpart
      rcases mem_cons.mp hpart with rfl | hrest
      · simp
      · exact hlater hrest
    · rw [if_neg hseparator] at hpart
      have hfirst : first ≠ separator := fun heq => hseparator (beq_iff_eq.mpr heq)
      cases hsplit : text.splitOn separator with
      | nil => exact absurd hsplit (splitOn_ne_nil _ _)
      | cons head rest =>
        rw [hsplit] at hpart hlater
        rcases mem_cons.mp hpart with rfl | hrest
        · intro c hc
          rcases mem_cons.mp hc with rfl | hhead
          · exact ⟨mem_cons_self, hfirst⟩
          · exact hlater mem_cons_self c hhead
        · exact hlater (mem_cons_of_mem _ hrest)

/-! ## Words in a text -/

theorem containsChars_iff {needle text : List Char} : containsChars needle text = true ↔ needle <:+: text := by
  induction text with
  | nil => simp [containsChars]
  | cons c text ih => rw [containsChars, Bool.or_eq_true, isPrefixOf_iff_prefix, ih, infix_cons_iff]

section Pieces

variable {separator c : Char} {word text : List Char}

theorem splitOn_cons_self : (separator :: text).splitOn separator = [] :: text.splitOn separator := by
  rw [splitOn_cons_eq_if_modifyHead, if_pos (beq_self_eq_true separator)]

theorem splitOn_cons_ne (hc : c ≠ separator) :
    ∃ piece pieces, text.splitOn separator = piece :: pieces ∧ (c :: text).splitOn separator = (c :: piece) :: pieces := by
  cases hsplit : text.splitOn separator with
  | nil => exact absurd hsplit (splitOn_ne_nil _ _)
  | cons piece pieces =>
    refine ⟨piece, pieces, rfl, ?_⟩
    rw [splitOn_cons_eq_if_modifyHead, if_neg (fun heq => hc (beq_iff_eq.mp heq)), hsplit]
    rfl

theorem snoc_prefix_iff (hword : separator ∉ word) : word ++ [separator] <+: text ↔ (text.splitOn separator).dropLast.head? = some word := by
  induction text generalizing word with
  | nil => simp
  | cons c text ih =>
    by_cases hc : c = separator
    · subst hc
      rw [splitOn_cons_self, dropLast_cons_of_ne_nil (splitOn_ne_nil _ _), List.head?_cons]
      cases word with
      | nil => simp
      | cons a word =>
        have hne : a ≠ c := fun heq => hword (heq ▸ mem_cons_self)
        simp [hne]
    · obtain ⟨piece, pieces, hsplit, hcons⟩ := @splitOn_cons_ne _ _ text hc
      rw [hcons]
      cases word with
      | nil =>
        have hhead : ((c :: piece) :: pieces).dropLast.head? ≠ some [] := by cases pieces <;> simp
        simp [hhead, Ne.symm hc]
      | cons a word =>
        have hrest := ih (fun hmem => hword (mem_cons_of_mem _ hmem))
        rw [hsplit] at hrest
        rw [cons_append, cons_prefix_cons, hrest]
        cases pieces with
        | nil => simp
        | cons next pieces => simp [eq_comm]

theorem snoc_infix_iff (hne : word ≠ []) (hword : separator ∉ word) :
    word ++ [separator] <:+: text ↔ ∃ piece ∈ (text.splitOn separator).dropLast, word <:+ piece := by
  induction text with
  | nil => simp
  | cons c text ih =>
    rw [infix_cons_iff, snoc_prefix_iff hword, ih]
    by_cases hc : c = separator
    · subst hc
      rw [splitOn_cons_self, dropLast_cons_of_ne_nil (splitOn_ne_nil _ _), List.head?_cons]
      simp [hne, Ne.symm hne]
    · obtain ⟨piece, pieces, hsplit, hcons⟩ := @splitOn_cons_ne _ _ text hc
      rw [hcons, hsplit]
      cases pieces with
      | nil => simp
      | cons next pieces =>
        simp only [dropLast_cons_cons, List.head?_cons, Option.some.injEq, mem_cons, exists_eq_or_imp,
          suffix_cons_iff]
        rw [eq_comm, or_assoc]

theorem between_infix_iff (hword : separator ∉ word) :
    separator :: (word ++ [separator]) <:+: text ↔ word ∈ (text.splitOn separator).dropLast.tail := by
  induction text with
  | nil => simp
  | cons c text ih =>
    rw [infix_cons_iff, ih]
    by_cases hc : c = separator
    · subst hc
      rw [splitOn_cons_self, dropLast_cons_of_ne_nil (splitOn_ne_nil _ _), tail_cons,
        cons_prefix_cons, snoc_prefix_iff hword]
      cases (text.splitOn c).dropLast with
      | nil => simp
      | cons piece pieces => simp [eq_comm]
    · obtain ⟨piece, pieces, hsplit, hcons⟩ := @splitOn_cons_ne _ _ text hc
      have hno : ¬ separator :: (word ++ [separator]) <+: c :: text :=
        fun hprefix => hc (cons_prefix_cons.mp hprefix).1.symm
      rw [hcons, hsplit]
      cases pieces <;> simp [hno]

end Pieces

/-! ## Lines, `repr` and numbers -/

/-- The characters `str.splitlines` ends a line at. -/
def isLineBreak (c : Char) : Bool :=
  [0x0A, 0x0B, 0x0C, 0x0D, 0x1C, 0x1D, 0x1E, 0x85, 0x2028, 0x2029].contains c.toNat

/-- `str.splitlines`, after the characters of the line so far, last first. -/
def splitLinesFrom (line : List Char) : List Char → List (List Char)
  | [] => if line.isEmpty then [] else [line.reverse]
  | '\r' :: '\n' :: rest => line.reverse :: splitLinesFrom [] rest
  | c :: rest => if isLineBreak c then line.reverse :: splitLinesFrom [] rest else splitLinesFrom (c :: line) rest

def splitLines (text : String) : List String := (splitLinesFrom [] text.toList).map String.ofList

def escapeChar (quote c : Char) : List Char :=
  if c = quote || c = '\\' then ['\\', c]
  else if c = '\n' then ['\\', 'n']
  else if c = '\r' then ['\\', 'r']
  else if c = '\t' then ['\\', 't']
  else [c]

/-- `repr` of a string: double quotes only when the text has a single quote and no double one. -/
def pyRepr (text : String) : String :=
  let quote : Char := if text.toList.contains '\'' && !text.toList.contains '"' then '"' else '\''
  String.ofList (quote :: text.toList.flatMap (escapeChar quote) ++ [quote])

def pyReprList (xs : List String) : String := "[" ++ String.intercalate ", " (xs.map pyRepr) ++ "]"

def roundHalfEven (q : ℚ) : ℤ :=
  let low := ⌊q⌋
  let rest := q - low
  if rest < 1 / 2 then low
  else if 1 / 2 < rest then low + 1
  else if low % 2 = 0 then low else low + 1

def fixed0 (q : ℚ) : String := toString (roundHalfEven q)

end RalphWorkflow.Lib.Text
