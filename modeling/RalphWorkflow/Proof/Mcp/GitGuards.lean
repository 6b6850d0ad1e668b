import RalphWorkflow.Mcp.ToolGuards

/-! `git_diff` refuses arguments one by one, `exec` scans the text of the command: where a version-control word occurs, what stands behind it, and
for `diff` the flags, where it refuses whatever `git_diff` refuses, an embedded NUL apart. -/
namespace RalphWorkflow.Mcp.GitGuards
open Lib Lib.Text List

/-! ## Tokens -/

section Tokens

variable {word front back text : List Char}

theorem tokens_append_space (front back : List Char) : tokens (front ++ ' ' :: back) = tokens front ++ tokens back := by
  unfold tokens
  rw [splitOnP_append_cons front back (by decide), filter_append, map_append]

end Tokens

/-! ## Flags -/

section Flags

variable {arg : String}

def Flagged (arg : String) : Prop := (offendingFlag arg).isSome

instance (arg : String) : Decidable (Flagged arg) := inferInstanceAs (Decidable ((offendingFlag arg).isSome = true))

theorem flagged_iff (arg : String) :
    Flagged arg ↔ (containsText "--output=" arg || arg == "--output" || "--output ".toList.isPrefixOf arg.toList || arg == "-o" ||
      "-o=".toList.isPrefixOf arg.toList || "-o ".toList.isPrefixOf arg.toList) = true ∨
      (externalHelperFlags.any fun bad => containsText bad arg) = true := by
  unfold Flagged offendingFlag
  split
  next h =>
    refine iff_of_true rfl (.inl ?_)
    simp only [Bool.or_eq_true] at h ⊢
    tauto
  next h =>
    split
    next h' =>
      refine iff_of_true rfl (.inl ?_)
      simp only [Bool.or_eq_true] at h' ⊢
      tauto
    next h' =>
      simp only [Bool.or_eq_true] at h h' ⊢
      rw [List.find?_isSome, any_eq_true]
      tauto

theorem validateDiffArgs_error_iff (args : List String) :
    (∃ refusal, validateDiffArgs args = .error refusal) ↔ ∃ arg ∈ args, '\x00' ∈ arg.toList ∨ Flagged arg := by
  induction args with
  | nil => simp [validateDiffArgs]
  | cons arg args ih =>
    rw [validateDiffArgs, exists_mem_cons_iff, ← ih, flagged_iff]
    split
    next h => simp_all
    next h =>
      split
      next h' => simp_all
      next h' =>
        split
        next h'' => simp_all
        next h'' => simp_all

theorem scanDiffFlags_isSome_iff (args : List String) : (scanDiffFlags args).isSome ↔ ∃ token ∈ args, Flagged token :=
  List.findSome?_isSome_iff

end Flags

/-! ## Version-control words -/

section Words

variable {alphabet : Alphabet} {prev : Option Char} {c d : Char} {text : List Char} {word : String}

def vcsLetters : List Char := ['g', 'i', 't', 'h', 's', 'v', 'n']

theorem isWord_of_matchesLetter {letter : Char} (hletter : letter ∈ vcsLetters) (hmatch : matchesLetter letter c = true) :
    alphabet.isWord c = true := by
  have hascii : vcsLetters.all (fun letter => decide (letter.toNat < 128) && decide (letter.toUpper.toNat < 128) &&
      letter.isAlphanum && letter.toUpper.isAlphanum) = true := by decide
  have hfacts := all_eq_true.mp hascii letter hletter
  simp only [Bool.and_eq_true, decide_eq_true_eq] at hfacts
  simp only [matchesLetter, Bool.or_eq_true, Bool.and_eq_true, beq_iff_eq] at hmatch
  obtain ((rfl | rfl) | ⟨-, rfl | rfl⟩) | ⟨-, rfl⟩ := hmatch
  · simp [alphabet.isWord_ascii _ hfacts.1.1.1, hfacts.1.2]
  · simp [alphabet.isWord_ascii _ hfacts.1.1.2, hfacts.2]
  · exact alphabet.isWord_folding _ (by simp)
  · exact alphabet.isWord_folding _ (by simp)
  · exact alphabet.isWord_folding _ (by simp)

theorem isWord_of_zip {pattern : List Char} (hletters : ∀ letter ∈ pattern, letter ∈ vcsLetters)
    (h : (pattern.zip text).all (fun pair => matchesLetter pair.1 pair.2) = true) :
    ∀ c ∈ text.take pattern.length, alphabet.isWord c = true := by
  induction pattern generalizing text with
  | nil => simp
  | cons letter pattern ih =>
    cases text with
    | nil => simp
    | cons d text =>
      rw [zip_cons_cons, all_cons, Bool.and_eq_true] at h
      intro c hc
      rw [length_cons, take_succ_cons] at hc
      rcases mem_cons.mp hc with rfl | hrest
      · exact isWord_of_matchesLetter (hletters letter mem_cons_self) h.1
      · exact ih (fun letter hletter => hletters letter (mem_cons_of_mem _ hletter)) h.2 c hrest

theorem vcsWordAt_eq_some (h : vcsWordAt alphabet prev text = some word) :
    isBoundary alphabet prev text.head? = true ∧ word.toList = text.take word.length ∧ 0 < word.length ∧
      word.length ≤ text.length ∧ ∀ c ∈ word.toList, alphabet.isWord c = true := by
  obtain ⟨pattern, hfind, rfl⟩ := Option.map_eq_some_iff.mp h
  have hmatch := List.find?_some hfind
  have hpattern := mem_of_find?_eq_some hfind
  have hshape : ["git", "hg", "svn"].all (fun pattern =>
      decide (0 < pattern.length) && pattern.toList.all fun letter => vcsLetters.contains letter) = true := by decide
  have hfacts := all_eq_true.mp hshape pattern hpattern
  simp only [Bool.and_eq_true, decide_eq_true_eq, all_eq_true, contains_iff_mem] at hfacts
  simp only [wordAt, Bool.and_eq_true, decide_eq_true_eq, String.length_toList] at hmatch
  obtain ⟨⟨⟨hboundary, hle⟩, hletters⟩, -⟩ := hmatch
  have hlength : (String.ofList (text.take pattern.length)).length = pattern.length := by
    rw [← String.length_toList, String.toList_ofList, length_take, Nat.min_eq_left hle]
  have hchars : ∀ c ∈ text.take pattern.toList.length, alphabet.isWord c = true := isWord_of_zip hfacts.2 hletters
  rw [hlength, String.toList_ofList]
  rw [String.length_toList] at hchars
  exact ⟨hboundary, rfl, hfacts.1, hle, hchars⟩

theorem vcsWordAt_inside (h : vcsWordAt alphabet prev text = some word) {front back : List Char} (last : Option Char)
    (htext : text = front ++ back) (hfront : front ≠ []) (hinside : front.length < word.length) :
    vcsWordAt alphabet (front.getLast?.or last) back = none := by
  obtain ⟨-, hword, -, hle, hchars⟩ := vcsWordAt_eq_some h
  cases hcase : vcsWordAt alphabet (front.getLast?.or last) back with
  | none => rfl
  | some inner =>
    have hboundary := (vcsWordAt_eq_some hcase).1
    have hsplit : word.toList = front ++ back.take (word.length - front.length) := by
      rw [hword, htext, take_append, take_of_length_le hinside.le]
    cases back with
    | nil =>
      rw [htext, append_nil] at hle
      omega
    | cons d back =>
      obtain ⟨n, hn⟩ : ∃ n, word.length - front.length = n + 1 := ⟨word.length - front.length - 1, by omega⟩
      rw [hn, take_succ_cons] at hsplit
      have hd : alphabet.isWord d = true := hchars d (by rw [hsplit]; simp)
      have hlast : alphabet.isWord (front.getLast hfront) = true :=
        hchars _ (by rw [hsplit]; exact mem_append_left _ (getLast_mem hfront))
      rw [List.getLast?_eq_some_getLast hfront] at hboundary
      simp [isBoundary, hd, hlast] at hboundary

/-- A version-control word stands in the text, and what is behind it makes the check deny it. -/
def HasBanned (alphabet : Alphabet) (skip : Nat) (prev : Option Char) (text : List Char) : Prop :=
  ∃ front word after, skip ≤ front.length ∧ text = front ++ (String.toList word ++ after) ∧
    vcsWordAt alphabet (front.getLast?.or prev) (word.toList ++ after) = some word ∧ (denialOf alphabet word after).isSome

theorem hasBanned_nil {skip : Nat} : ¬ HasBanned alphabet skip prev [] := by
  rintro ⟨front, word, after, -, htext, hword, -⟩
  obtain ⟨-, -, hpos, -⟩ := vcsWordAt_eq_some hword
  have hlength := congrArg List.length htext
  simp only [length_nil, length_append, String.length_toList] at hlength
  omega

theorem getLast_or_cons (c : Char) (front : List Char) (prev : Option Char) : (c :: front).getLast?.or prev = front.getLast?.or (some c) := by
  cases front with
  | nil => rfl
  | cons d front => rw [List.getLast?_cons_cons, List.getLast?_eq_some_getLast (cons_ne_nil d front)]; rfl

theorem hasBanned_succ {skip : Nat} : HasBanned alphabet (skip + 1) prev (c :: text) ↔ HasBanned alphabet skip (some c) text := by
  constructor
  · rintro ⟨front, word, after, hskip, htext, hword, hdenied⟩
    cases front with
    | nil => simp at hskip
    | cons d front =>
      obtain ⟨rfl, hrest⟩ := List.cons.inj htext
      rw [getLast_or_cons] at hword
      exact ⟨front, word, after, Nat.le_of_succ_le_succ hskip, hrest, hword, hdenied⟩
  · rintro ⟨front, word, after, hskip, rfl, hword, hdenied⟩
    rw [← getLast_or_cons c front prev] at hword
    exact ⟨c :: front, word, after, Nat.succ_le_succ hskip, rfl, hword, hdenied⟩

theorem hasBanned_pass (hnone : vcsWordAt alphabet prev (c :: text) = none) :
    HasBanned alphabet 0 prev (c :: text) ↔ HasBanned alphabet 0 (some c) text := by
  rw [← @hasBanned_succ _ prev]
  constructor
  · rintro ⟨front, word, after, -, htext, hword, hdenied⟩
    refine ⟨front, word, after, ?_, htext, hword, hdenied⟩
    cases front with
    | nil =>
      rw [nil_append] at htext
      rw [← htext] at hword
      simp [hnone] at hword
    | cons d front => simp
  · rintro ⟨front, word, after, -, hrest⟩
    exact ⟨front, word, after, Nat.zero_le _, hrest⟩

theorem hasBanned_match (hmatch : vcsWordAt alphabet prev (c :: text) = some word)
    (hallowed : denialOf alphabet word ((c :: text).drop word.length) = none) :
    HasBanned alphabet 0 prev (c :: text) ↔ HasBanned alphabet (word.length - 1) (some c) text := by
  obtain ⟨-, htake, hpos, -⟩ := vcsWordAt_eq_some hmatch
  rw [← @hasBanned_succ _ prev, Nat.sub_add_cancel hpos]
  constructor
  · rintro ⟨front, other, after, -, htext, hword, hdenied⟩
    refine ⟨front, other, after, ?_, htext, hword, hdenied⟩
    by_contra hinside
    rw [Nat.not_le] at hinside
    cases front with
    | nil =>
      rw [nil_append] at htext
      rw [← htext] at hword
      obtain rfl := Option.some.inj (hmatch.symm.trans hword)
      rw [htext, ← String.length_toList, drop_left] at hallowed
      simp [hallowed] at hdenied
    | cons d front =>
      have hnone := vcsWordAt_inside hmatch prev htext (cons_ne_nil d front) hinside
      exact absurd (hnone.symm.trans hword) (by simp)
  · rintro ⟨front, word, after, -, hrest⟩
    exact ⟨front, word, after, Nat.zero_le _, hrest⟩

theorem scanFrom_isSome_iff (skip : Nat) (prev : Option Char) (text : List Char) :
    (scanFrom alphabet skip prev text).isSome ↔ HasBanned alphabet skip prev text := by
  induction text generalizing skip prev with
  | nil => simp [scanFrom, hasBanned_nil]
  | cons c text ih =>
    cases skip with
    | succ skip => rw [scanFrom, ih, hasBanned_succ]
    | zero =>
      rw [scanFrom]
      cases hmatch : vcsWordAt alphabet prev (c :: text) with
      | none => rw [hasBanned_pass hmatch, ← ih]
      | some word =>
        dsimp only
        cases hdenial : denialOf alphabet word ((c :: text).drop word.length) with
        | none => rw [hasBanned_match hmatch hdenial, ← ih]
        | some denial =>
          obtain ⟨-, htake, -⟩ := vcsWordAt_eq_some hmatch
          have htext : c :: text = word.toList ++ (c :: text).drop word.length := by
            rw [htake, take_append_drop]
          refine iff_of_true rfl ⟨[], word, _, Nat.zero_le _, htext, ?_, ?_⟩
          · rw [← htext]
            exact hmatch
          · rw [hdenial]
            rfl

theorem vcsWordAt_none (h : ∀ pair ∈ [('g', 'i'), ('h', 'g'), ('s', 'v')], (matchesLetter pair.1 c && matchesLetter pair.2 d) = false) :
    vcsWordAt alphabet prev (c :: d :: text) = none := by
  have hgit := h ('g', 'i') (by simp)
  have hhg := h ('h', 'g') (by simp)
  have hsvn := h ('s', 'v') (by simp)
  simp only at hgit hhg hsvn
  rw [vcsWordAt, Option.map_eq_none_iff, List.find?_eq_none]
  intro word hword
  simp only [mem_cons, not_mem_nil, or_false] at hword
  rcases hword with rfl | rfl | rfl
  · simp [wordAt, ← Bool.and_assoc, hgit]
  · simp [wordAt, hhg]
  · simp [wordAt, ← Bool.and_assoc, hsvn]

theorem vcsWordAt_space : vcsWordAt alphabet prev (' ' :: text) = none := by
  rw [vcsWordAt, Option.map_eq_none_iff, List.find?_eq_none]
  intro word hword
  simp only [mem_cons, not_mem_nil, or_false] at hword
  rcases hword with rfl | rfl | rfl <;> simp [wordAt, matchesLetter]

/-- Between no two of the characters, nor behind the last, can a version-control word begin. -/
def quiet : List Char → Bool
  | [] => true
  | c :: text =>
    [('g', 'i'), ('h', 'g'), ('s', 'v')].all (fun pair =>
      !(matchesLetter pair.1 c && matchesLetter pair.2 (text.headD ' '))) && quiet text

theorem scanFrom_quiet {front : List Char} (hquiet : quiet front = true) :
    scanFrom alphabet 0 prev (front ++ ' ' :: text) = scanFrom alphabet 0 (some ' ') text := by
  induction front generalizing prev with
  | nil => rw [nil_append, scanFrom, vcsWordAt_space]
  | cons c front ih =>
    rw [quiet, Bool.and_eq_true, all_eq_true] at hquiet
    have hnone : vcsWordAt alphabet prev (c :: (front ++ ' ' :: text)) = none := by
      cases front with
      | nil => exact vcsWordAt_none fun pair hpair => (Bool.not_eq_true' _).mp (hquiet.1 pair hpair)
      | cons d front => exact vcsWordAt_none fun pair hpair => (Bool.not_eq_true' _).mp (hquiet.1 pair hpair)
    rw [cons_append, scanFrom, hnone]
    exact ih hquiet.2

end Words

/-! ## The two guards -/

section Guards

variable {alphabet : Alphabet} {subcommand : String} {args : List String}

inductive DiffSubcommand where
  | diff | log | showObject | whatchanged
  deriving DecidableEq

def DiffSubcommand.value : DiffSubcommand → String
  | .diff => "diff"
  | .log => "log"
  | .showObject => "show"
  | .whatchanged => "whatchanged"

def joined (args : List String) : List Char := [' '].intercalate (args.map String.toList)

/-- A word is denied that is no git, or git with no read-only subcommand or with a flag. -/
def Banned (alphabet : Alphabet) (word : String) (after : List Char) : Prop :=
  alphabet.lower word ∈ ["hg", "svn"] ∨
    ∀ subcommand rest, extractSubcommand alphabet (tokens after) = some (subcommand, rest) →
      subcommand ∉ readOnlySubcommands ∨ subcommand = "diff" ∧ ∃ token ∈ rest, Flagged token

/-- The text of the arguments holds a use of version control of its own that is banned. -/
def MentionsBanned (alphabet : Alphabet) (args : List String) : Prop :=
  ∃ front word after, joined args = front ++ (String.toList word ++ after) ∧
    vcsWordAt alphabet front.getLast? (word.toList ++ after) = some word ∧ Banned alphabet word after

theorem denialOf_isSome_iff (word : String) (after : List Char) : (denialOf alphabet word after).isSome ↔ Banned alphabet word after := by
  unfold denialOf Banned
  dsimp only
  by_cases hother : ["hg", "svn"].contains (alphabet.lower word) = true
  · rw [if_pos hother]
    exact iff_of_true rfl (.inl (contains_iff_mem.mp hother))
  · rw [if_neg hother, or_iff_right (fun hmem => hother (contains_iff_mem.mpr hmem))]
    cases hextract : extractSubcommand alphabet (tokens after) with
    | none => simp
    | some found =>
      obtain ⟨subcommand, rest⟩ := found
      simp only [Option.some.injEq, Prod.mk.injEq, and_imp, forall_apply_eq_imp_iff, forall_eq']
      by_cases hread : readOnlySubcommands.contains subcommand = true
      · have hmem := contains_iff_mem.mp hread
        by_cases hdiff : subcommand = "diff"
        · subst hdiff
          simp [hmem, ← scanDiffFlags_isSome_iff]
        · simp [hmem, hdiff]
      · have hmem : subcommand ∉ readOnlySubcommands := fun hmem => hread (contains_iff_mem.mpr hmem)
        simp [hmem]

theorem hasBanned_joined_iff : HasBanned alphabet 0 (some ' ') (joined args) ↔ MentionsBanned alphabet args := by
  have hspace : alphabet.isWord ' ' = false := by rw [alphabet.isWord_ascii ' ' (by decide)]; decide
  have hprev : ∀ (front text : List Char), vcsWordAt alphabet (front.getLast?.or (some ' ')) text = vcsWordAt alphabet front.getLast? text := by
    intro front text
    cases hfront : front.getLast? with
    | none => simp [vcsWordAt, wordAt, isBoundary, hspace]
    | some c => rfl
  unfold HasBanned MentionsBanned
  simp only [hprev, denialOf_isSome_iff, Nat.zero_le, true_and]

theorem joined_cons (arg : String) (hargs : args ≠ []) : joined (arg :: args) = arg.toList ++ ' ' :: joined args := by
  cases args with
  | nil => exact absurd rfl hargs
  | cons next args =>
    unfold joined
    rw [map_cons, map_cons, intercalate_cons_cons, append_assoc]
    rfl

theorem tokens_joined (args : List String) : tokens (joined args) = args.flatMap fun arg => tokens arg.toList := by
  induction args with
  | nil => rfl
  | cons arg args ih =>
    by_cases hargs : args = []
    · simp [hargs, joined]
    · rw [joined_cons arg hargs, tokens_append_space, ih, flatMap_cons]

theorem lower_of_ascii {text : String} (hascii : (text.toList.all fun c => decide (c.toNat < 128)) = true)
    (hlower : text.toList.map Char.toLower = text.toList) : alphabet.lower text = text := by
  rw [alphabet.lower_ascii text (by simpa using all_eq_true.mp hascii), hlower, String.ofList_toList]

theorem vcsWordAt_git {text : List Char} : vcsWordAt alphabet none ('g' :: 'i' :: 't' :: ' ' :: text) = some "git" := by
  have hg : alphabet.isWord 'g' = true := by rw [alphabet.isWord_ascii 'g' (by decide)]; decide
  have ht : alphabet.isWord 't' = true := by rw [alphabet.isWord_ascii 't' (by decide)]; decide
  have hspace : alphabet.isWord ' ' = false := by rw [alphabet.isWord_ascii ' ' (by decide)]; decide
  have hmatch : wordAt alphabet "git".toList none ('g' :: 'i' :: 't' :: ' ' :: text) = true := by
    simp [wordAt, isBoundary, matchesLetter, hg, ht, hspace]
  rw [vcsWordAt, List.find?_cons, hmatch]
  rfl

theorem denialOf_git (subcommand : DiffSubcommand) (rest : List Char) : denialOf alphabet "git" (' ' :: (subcommand.value.toList ++ ' ' :: rest)) =
      if subcommand = .diff then (scanDiffFlags (tokens rest)).map .diffFlag else none := by
  have hgit : alphabet.lower "git" = "git" := lower_of_ascii (by decide) (by decide)
  have hlower : alphabet.lower subcommand.value = subcommand.value := by
    cases subcommand <;> exact lower_of_ascii (by decide) (by decide)
  have htokens : tokens (' ' :: (subcommand.value.toList ++ ' ' :: rest)) = subcommand.value :: tokens rest := by
    have hvalue : tokens subcommand.value.toList = [subcommand.value] := by cases subcommand <;> decide
    have hfront := tokens_append_space [] (subcommand.value.toList ++ ' ' :: rest)
    rw [nil_append] at hfront
    rw [hfront, tokens_append_space, hvalue]
    rfl
  have hextract : extractSubcommand alphabet (subcommand.value :: tokens rest) = some (subcommand.value, tokens rest) := by
    have hvalue : valueFlagNames.contains subcommand.value = false := by cases subcommand <;> decide
    have hskipped : isSkippedFlag subcommand.value = false := by cases subcommand <;> decide
    cases tokens rest <;> simp only [extractSubcommand, hvalue, hskipped, hlower, Bool.or_self, Bool.false_eq_true, if_false]
  have hread : readOnlySubcommands.contains subcommand.value = true := by cases subcommand <;> decide
  have hdiff : subcommand.value = "diff" ↔ subcommand = .diff := by cases subcommand <;> decide
  unfold denialOf
  rw [hgit, htokens, hextract]
  simp only [hread, hdiff]
  rfl

theorem exec_denies_iff (subcommand : DiffSubcommand) (hargs : args ≠ []) :
    (∃ denial, checkVersionControl alphabet "git" (subcommand.value :: args) = some denial) ↔
      (subcommand = .diff ∧ ∃ arg ∈ args, ∃ token ∈ tokens arg.toList, Flagged token) ∨ MentionsBanned alphabet args := by
  have htext : (" ".intercalate ("git" :: subcommand.value :: args)).toList =
      'g' :: 'i' :: 't' :: (' ' :: subcommand.value.toList ++ ' ' :: joined args) := by
    rw [String.toList_intercalate]
    change joined ("git" :: subcommand.value :: args) = _
    rw [joined_cons _ (by simp), joined_cons _ hargs]
    rfl
  have hquiet : quiet (' ' :: subcommand.value.toList) = true := by cases subcommand <;> decide
  have hflags : (scanDiffFlags (tokens (joined args))).isSome ↔ ∃ arg ∈ args, ∃ token ∈ tokens arg.toList, Flagged token := by
    rw [scanDiffFlags_isSome_iff, tokens_joined]
    simp only [mem_flatMap]
    tauto
  have hlater : (scanFrom alphabet 2 (some 'g') ('i' :: 't' :: (' ' :: subcommand.value.toList ++ ' ' :: joined args))).isSome ↔
      MentionsBanned alphabet args := by
    rw [scanFrom, scanFrom, scanFrom_quiet hquiet, scanFrom_isSome_iff, hasBanned_joined_iff]
  rw [← Option.isSome_iff_exists, checkVersionControl, scanText, htext, scanFrom, cons_append, vcsWordAt_git]
  dsimp only
  have hdrop : drop "git".length ('g' :: 'i' :: 't' :: ' ' :: (subcommand.value.toList ++ ' ' :: joined args)) =
      ' ' :: (subcommand.value.toList ++ ' ' :: joined args) := rfl
  rw [hdrop, show "git".length - 1 = 2 from rfl, denialOf_git]
  by_cases hdiff : subcommand = .diff
  · rw [if_pos hdiff, ← hflags]
    cases hscan : scanDiffFlags (tokens (joined args)) with
    | none => simpa using hlater
    | some flag => simp [hdiff]
  · rw [if_neg hdiff]
    simpa [hdiff] using hlater

/-- What `git_diff` refuses, `exec` denies behind the subcommand. -/
def Agree (alphabet : Alphabet) (subcommand : DiffSubcommand) (args : List String) : Prop :=
  (∃ refusal, validateDiffArgs args = .error refusal) →
    ∃ denial, checkVersionControl alphabet "git" (subcommand.value :: args) = some denial

/-- The guards agree where `git_diff` refuses nothing, on flags of `diff`, and where a banned use is mentioned. -/
theorem guards_agree_iff (alphabet : Alphabet) (subcommand : DiffSubcommand) (args : List String) : Agree alphabet subcommand args ↔
      (∀ arg ∈ args, '\x00' ∉ arg.toList ∧ ¬ Flagged arg) ∨
      (subcommand = .diff ∧ ∃ arg ∈ args, ∃ token ∈ tokens arg.toList, Flagged token) ∨ MentionsBanned alphabet args := by
  unfold Agree
  rw [validateDiffArgs_error_iff]
  by_cases hrefused : ∃ arg ∈ args, '\x00' ∈ arg.toList ∨ Flagged arg
  · obtain ⟨arg, harg, hwhy⟩ := hrefused
    have hnone : ¬ ∀ arg ∈ args, '\x00' ∉ arg.toList ∧ ¬ Flagged arg := by
      intro hall
      rcases hwhy with hnul | hflag
      · exact (hall arg harg).1 hnul
      · exact (hall arg harg).2 hflag
    rw [or_iff_right hnone, ← exec_denies_iff subcommand (ne_nil_of_mem harg)]
    exact ⟨fun h => h ⟨arg, harg, hwhy⟩, fun h _ => h⟩
  · refine iff_of_true (fun h => absurd h hrefused) (.inl fun arg harg => ?_)
    exact not_or.mp fun hwhy => hrefused ⟨arg, harg, hwhy⟩

end Guards

/-! ## A file written behind `log` -/

def asciiAlphabet : Alphabet where
  isWord c := c.isAlphanum || c == '_' || ['İ', 'ı', 'ſ'].contains c
  lower text := String.ofList (text.toList.map Char.toLower)
  isWord_ascii c hc := by
    have hfolding : ['İ', 'ı', 'ſ'].contains c = false := by
      rw [← Bool.not_eq_true, contains_iff_mem]
      intro hmem
      have hlarge : ['İ', 'ı', 'ſ'].all (fun c => decide (128 ≤ c.toNat)) = true := by decide
      exact absurd (decide_eq_true_eq.mp (all_eq_true.mp hlarge c hmem)) (by omega)
    rw [hfolding, Bool.or_false]
  isWord_folding c hc := by rw [contains_iff_mem.mpr hc, Bool.or_true]
  lower_ascii _ _ := rfl

theorem output_behind_log : ¬ Agree asciiAlphabet .log ["--output=notes.txt"] := by
  intro hagree
  obtain ⟨denial, hdenial⟩ := hagree ⟨.outputWriting "--output=notes.txt", by decide +kernel⟩
  have hnone : checkVersionControl asciiAlphabet "git" ["log", "--output=notes.txt"] = none := by decide +kernel
  exact absurd (hnone.symm.trans hdenial) (by simp)

end RalphWorkflow.Mcp.GitGuards
