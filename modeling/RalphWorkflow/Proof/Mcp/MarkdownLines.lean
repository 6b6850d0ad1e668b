import RalphWorkflow.Mcp.MarkdownDocument

/-! Every line of the content that is not blank is in the parsed document or in a diagnostic, once, under its number. A ledger keeps what each
section has of its lines; a line that is parsed adds one entry to it. -/
namespace RalphWorkflow.Markdown
open List Option SectionBuilder
open Lib.Text (isSpace splitLinesFrom)

/-! ## Entries -/

inductive Entry
  | heading (level : Nat) (name : Text)
  | block (identifier title : Text)
  | item (identifier text : Text) (checked : Option Bool)
  | content (text : Text)

def checkboxes : Option Bool → List Text
  | none => [[]]
  | some false => ["[ ] ".toList]
  | some true => ["[x] ".toList, "[X] ".toList]

def Entry.Shows : Entry → Text → Prop
  | .heading level name, line => line = List.replicate level '#' ++ ' ' :: name
  | .block identifier title, line => ∃ marks, line = List.replicate marks '#' ++ ' ' :: '[' :: (identifier ++ ']' :: ' ' :: title)
  | .item identifier text checked, line => ∃ box ∈ checkboxes checked, line = '-' :: ' ' :: (box ++ '[' :: (identifier ++ ']' :: ' ' :: text))
  | .content text, line => text = strip line

theorem matchMarks_shows {line text : Text} {marks : Nat} (h : matchMarks line = some (marks, text)) :
    line = List.replicate marks '#' ++ ' ' :: text := by
  have hsplit : line.takeWhile (· == '#') ++ line.dropWhile (· == '#') = line := takeWhile_append_dropWhile
  have hmarks : line.takeWhile (· == '#') = List.replicate (line.takeWhile (· == '#')).length '#' := by
    refine eq_replicate_iff.2 ⟨rfl, fun c hc => ?_⟩
    simpa using all_eq_true.1 all_takeWhile c hc
  unfold matchMarks at h
  split at h
  · next rest hrest =>
      cases h
      rw [← hmarks, ← hrest, hsplit]
  · cases h

theorem matchIdentified_shows {text identifier title : Text} (h : matchIdentified text = some (identifier, title)) :
    text = '[' :: (identifier ++ ']' :: ' ' :: title) := by
  unfold matchIdentified at h
  split at h
  · next text =>
      have hsplit : text.takeWhile isIdentifierChar ++ text.dropWhile isIdentifierChar = text := takeWhile_append_dropWhile
      simp only at h
      split at h
      · next rest hrest =>
          rw [ite_none_right_eq_some] at h
          obtain ⟨-, h⟩ := h
          cases h
          rw [← hrest, hsplit]
      · cases h
  · cases h

theorem matchBlockHeading_shows {line identifier title : Text} {level : Nat} (h : matchBlockHeading line = some (level, identifier, title)) :
    (Entry.block identifier title).Shows line := by
  obtain ⟨⟨marks, text⟩, hmarks, h⟩ := bind_eq_some_iff.1 h
  rw [ite_none_right_eq_some] at h
  obtain ⟨⟨identifier, title⟩, hfound, heq⟩ := map_eq_some_iff.1 h.2
  cases heq
  have htext : text = '[' :: (identifier ++ ']' :: ' ' :: title) := matchIdentified_shows hfound
  exact ⟨marks, by rw [matchMarks_shows hmarks, htext]⟩

theorem matchHeading_shows {line name : Text} {level : Nat} (h : matchHeading line = some (level, name)) : (Entry.heading level name).Shows line :=
  matchMarks_shows (filter_eq_some_iff.1 h).1

theorem matchCheckbox_shows {text rest : Text} {checked : Bool} (h : matchCheckbox text = some (checked, rest)) :
    ∃ box ∈ checkboxes (some checked), text = box ++ rest := by
  unfold matchCheckbox at h
  split at h
  · next mark text =>
      by_cases hblank : mark = ' '
      · rw [if_pos hblank] at h
        cases h
        exact ⟨_, mem_singleton_self _, by rw [hblank]; rfl⟩
      · rw [if_neg hblank, ite_none_right_eq_some] at h
        obtain ⟨hmark, h⟩ := h
        cases h
        rcases hmark with rfl | rfl
        · exact ⟨"[x] ".toList, by simp [checkboxes], rfl⟩
        · exact ⟨"[X] ".toList, by simp [checkboxes], rfl⟩
  · cases h

theorem matchItem_shows {line identifier text : Text} {checked : Option Bool} (h : matchItem line = some (checked, identifier, text)) :
    (Entry.item identifier text checked).Shows line := by
  unfold matchItem at h
  split at h
  · next rest =>
      simp only [orElse_eq_or, or_eq_some_iff] at h
      rcases h with h | ⟨-, h⟩
      · obtain ⟨⟨mark, after⟩, hbox, h⟩ := bind_eq_some_iff.1 h
        obtain ⟨⟨identifier, text⟩, hfound, heq⟩ := map_eq_some_iff.1 h
        cases heq
        have hafter : after = '[' :: (identifier ++ ']' :: ' ' :: text) := matchIdentified_shows hfound
        obtain ⟨box, hbox, hrest⟩ := matchCheckbox_shows hbox
        exact ⟨box, hbox, by rw [hrest, hafter]⟩
      · obtain ⟨⟨identifier, text⟩, hfound, heq⟩ := map_eq_some_iff.1 h
        cases heq
        exact ⟨[], mem_singleton_self _, by rw [matchIdentified_shows hfound]; rfl⟩
  · cases h

theorem matchMarks_notBlank {line text : Text} {marks : Nat} (h : matchMarks line = some (marks, text)) (hmarks : 1 ≤ marks) :
    line.all isSpace = false := by
  obtain ⟨marks, rfl⟩ := Nat.exists_eq_add_of_le' hmarks
  rw [matchMarks_shows h, replicate_succ]
  rfl

/-! ## The ledger -/

structure Outline where
  heading : Nat × Entry
  items : List (Nat × Entry)
  blocks : List (Nat × Entry)
  body : List (Nat × Entry)

def Outline.entries (outline : Outline) : List (Nat × Entry) := outline.heading :: (outline.items ++ outline.blocks ++ outline.body)

structure Ledger where
  outlines : List Outline
  diagnosed : List Nat

def Ledger.entries (ledger : Ledger) : List (Nat × Entry) := ledger.outlines.flatMap Outline.entries

def Ledger.numbers (ledger : Ledger) : List Nat := ledger.entries.map Prod.fst ++ ledger.diagnosed

inductive Records (number : Nat) (line : Text) : Ledger → Ledger → Prop
  | diagnosed (outlines : List Outline) (diagnosed : List Nat) : Records number line ⟨outlines, diagnosed⟩ ⟨outlines, diagnosed ++ [number]⟩
  | heading (outlines : List Outline) (diagnosed : List Nat) (entry : Entry) (shows : entry.Shows line) :
      Records number line ⟨outlines, diagnosed⟩ ⟨outlines ++ [{ heading := (number, entry), items := [], blocks := [], body := [] }], diagnosed⟩
  | item (outlines : List Outline) (diagnosed : List Nat) (outline : Outline) (entry : Entry) (shows : entry.Shows line) :
      Records number line ⟨outlines ++ [outline], diagnosed⟩ ⟨outlines ++ [{ outline with items := outline.items ++ [(number, entry)] }], diagnosed⟩
  | block (outlines : List Outline) (diagnosed : List Nat) (outline : Outline) (entry : Entry) (shows : entry.Shows line) :
      Records number line ⟨outlines ++ [outline], diagnosed⟩ ⟨outlines ++ [{ outline with blocks := outline.blocks ++ [(number, entry)] }], diagnosed⟩
  | body (outlines : List Outline) (diagnosed : List Nat) (outline : Outline) (entry : Entry) (shows : entry.Shows line) :
      Records number line ⟨outlines ++ [outline], diagnosed⟩ ⟨outlines ++ [{ outline with body := outline.body ++ [(number, entry)] }], diagnosed⟩

/-- Its heading comes first, and each list has the order of the lines. -/
structure Outline.Ordered (outline : Outline) : Prop where
  heading : ∀ entry ∈ outline.items ++ outline.blocks ++ outline.body, outline.heading.1 < entry.1
  items : (outline.items.map Prod.fst).Pairwise (· < ·)
  blocks : (outline.blocks.map Prod.fst).Pairwise (· < ·)
  body : (outline.body.map Prod.fst).Pairwise (· < ·)

structure Ledger.Ordered (ledger : Ledger) : Prop where
  sections : ledger.outlines.Pairwise fun first second => ∀ entry ∈ first.entries, ∀ later ∈ second.entries, entry.1 < later.1
  outlines : ∀ outline ∈ ledger.outlines, outline.Ordered
  diagnosed : ledger.diagnosed.Pairwise (· < ·)

section Ledgers

variable {number : Nat} {line : Text} {ledger next : Ledger}

theorem Records.perm (h : Records number line ledger next) : next.numbers.Perm (number :: ledger.numbers) := by
  rw [perm_iff_count]
  intro m
  cases h with
  | diagnosed outlines diagnosed =>
    simp only [Ledger.numbers, Ledger.entries, count_append, count_cons, count_nil]
    omega
  | heading outlines diagnosed entry =>
    simp only [Ledger.numbers, Ledger.entries, Outline.entries, flatMap_append, flatMap_singleton, map_append, map_cons,
      append_nil, map_nil, count_append, count_cons, count_nil]
    omega
  | item outlines diagnosed outline entry =>
    simp only [Ledger.numbers, Ledger.entries, Outline.entries, flatMap_append, flatMap_singleton, map_append, map_cons,
      map_nil, count_append, count_cons, count_nil]
    omega
  | block outlines diagnosed outline entry =>
    simp only [Ledger.numbers, Ledger.entries, Outline.entries, flatMap_append, flatMap_singleton, map_append, map_cons,
      map_nil, count_append, count_cons, count_nil]
    omega
  | body outlines diagnosed outline entry =>
    simp only [Ledger.numbers, Ledger.entries, Outline.entries, flatMap_append, flatMap_singleton, map_append, map_cons,
      map_nil, count_append, count_cons, count_nil]
    omega

theorem Records.entries (h : Records number line ledger next) :
    ∀ entry ∈ next.entries, entry ∈ ledger.entries ∨ entry.1 = number ∧ entry.2.Shows line := by
  intro entry hentry
  cases h with
  | diagnosed outlines diagnosed => exact .inl hentry
  | heading outlines diagnosed new shows =>
    simp only [Ledger.entries, Outline.entries, flatMap_append, flatMap_singleton, mem_append, mem_singleton,
      append_nil] at hentry ⊢
    rcases hentry with hentry | rfl
    · exact .inl hentry
    · exact .inr ⟨rfl, shows⟩
  | item outlines diagnosed outline new shows =>
    by_cases hnew : entry = (number, new)
    · exact .inr ⟨by rw [hnew], by rw [hnew]; exact shows⟩
    · refine .inl ?_
      simpa [Ledger.entries, Outline.entries, hnew] using hentry
  | block outlines diagnosed outline new shows =>
    by_cases hnew : entry = (number, new)
    · exact .inr ⟨by rw [hnew], by rw [hnew]; exact shows⟩
    · refine .inl ?_
      simpa [Ledger.entries, Outline.entries, hnew] using hentry
  | body outlines diagnosed outline new shows =>
    by_cases hnew : entry = (number, new)
    · exact .inr ⟨by rw [hnew], by rw [hnew]; exact shows⟩
    · refine .inl ?_
      simpa [Ledger.entries, Outline.entries, hnew] using hentry

theorem pairwise_lt_concat {numbers : List Nat} (h : numbers.Pairwise (· < ·)) (hbelow : ∀ m ∈ numbers, m < number) :
    (numbers ++ [number]).Pairwise (· < ·) := by
  refine pairwise_append.2 ⟨h, pairwise_singleton _ _, fun m hm other hother => ?_⟩
  rw [mem_singleton.1 hother]
  exact hbelow m hm

theorem sections_grow {outlines : List Outline} {outline grown : Outline} {diagnosed : List Nat}
    (h : Ledger.Ordered ⟨outlines ++ [outline], diagnosed⟩) (hbelow : ∀ entry ∈ Ledger.entries ⟨outlines ++ [outline], diagnosed⟩, entry.1 < number)
    (hgrown : ∀ entry ∈ grown.entries, entry ∈ outline.entries ∨ entry.1 = number) (hordered : grown.Ordered) :
    Ledger.Ordered ⟨outlines ++ [grown], diagnosed⟩ := by
  obtain ⟨hbefore, -, hlast⟩ := pairwise_append.1 h.sections
  refine ⟨pairwise_append.2 ⟨hbefore, pairwise_singleton _ _, ?_⟩, ?_, h.diagnosed⟩
  · intro first hfirst second hsecond entry hentry later hlater
    rw [mem_singleton.1 hsecond] at hlater
    rcases hgrown later hlater with hold | hnew
    · exact hlast first hfirst outline (mem_singleton_self _) entry hentry later hold
    · rw [hnew]
      exact hbelow entry (mem_flatMap.2 ⟨first, mem_append_left _ hfirst, hentry⟩)
  · intro other hother
    rcases mem_append.1 hother with hother | hother
    · exact h.outlines other (mem_append_left _ hother)
    · rw [mem_singleton.1 hother]
      exact hordered

theorem Records.ordered (h : Records number line ledger next) (hledger : ledger.Ordered) (hbelow : ∀ m ∈ ledger.numbers, m < number) :
    next.Ordered := by
  have hentries : ∀ entry ∈ ledger.entries, entry.1 < number := fun entry hentry =>
    hbelow _ (mem_append_left _ (mem_map_of_mem hentry))
  cases h with
  | diagnosed outlines diagnosed =>
    exact ⟨hledger.sections, hledger.outlines, pairwise_lt_concat hledger.diagnosed fun m hm => hbelow m (mem_append_right _ hm)⟩
  | heading outlines diagnosed new shows =>
    refine ⟨pairwise_append.2 ⟨hledger.sections, pairwise_singleton _ _, ?_⟩, ?_, hledger.diagnosed⟩
    · intro first hfirst second hsecond entry hentry later hlater
      rw [mem_singleton.1 hsecond] at hlater
      rw [mem_singleton.1 hlater]
      exact hentries entry (mem_flatMap.2 ⟨first, hfirst, hentry⟩)
    · intro other hother
      rcases mem_append.1 hother with hother | hother
      · exact hledger.outlines other hother
      · rw [mem_singleton.1 hother]
        exact ⟨by simp, List.Pairwise.nil, List.Pairwise.nil, List.Pairwise.nil⟩
  | item outlines diagnosed outline new shows =>
    have hlast : ∀ entry ∈ outline.entries, entry.1 < number := fun entry hentry => hentries entry (mem_flatMap.2 ⟨outline, by simp, hentry⟩)
    have hold := hledger.outlines outline (by simp)
    refine sections_grow hledger hentries (fun entry hentry => ?_) ⟨fun entry hentry => ?_, ?_, hold.blocks, hold.body⟩
    · by_cases hnew : entry = (number, new)
      · exact .inr (by rw [hnew])
      · exact .inl (by simpa [Outline.entries, hnew] using hentry)
    · by_cases hnew : entry = (number, new)
      · rw [hnew]
        exact hlast _ mem_cons_self
      · exact hold.heading entry (by simpa [hnew] using hentry)
    · rw [map_append]
      exact pairwise_lt_concat hold.items (forall_mem_map.2 fun entry hentry => hlast entry (by simp [Outline.entries, hentry]))
  | block outlines diagnosed outline new shows =>
    have hlast : ∀ entry ∈ outline.entries, entry.1 < number := fun entry hentry => hentries entry (mem_flatMap.2 ⟨outline, by simp, hentry⟩)
    have hold := hledger.outlines outline (by simp)
    refine sections_grow hledger hentries (fun entry hentry => ?_) ⟨fun entry hentry => ?_, hold.items, ?_, hold.body⟩
    · by_cases hnew : entry = (number, new)
      · exact .inr (by rw [hnew])
      · exact .inl (by simpa [Outline.entries, hnew] using hentry)
    · by_cases hnew : entry = (number, new)
      · rw [hnew]
        exact hlast _ mem_cons_self
      · exact hold.heading entry (by simpa [hnew] using hentry)
    · rw [map_append]
      exact pairwise_lt_concat hold.blocks (forall_mem_map.2 fun entry hentry => hlast entry (by simp [Outline.entries, hentry]))
  | body outlines diagnosed outline new shows =>
    have hlast : ∀ entry ∈ outline.entries, entry.1 < number := fun entry hentry => hentries entry (mem_flatMap.2 ⟨outline, by simp, hentry⟩)
    have hold := hledger.outlines outline (by simp)
    refine sections_grow hledger hentries (fun entry hentry => ?_) ⟨fun entry hentry => ?_, hold.items, hold.blocks, ?_⟩
    · by_cases hnew : entry = (number, new)
      · exact .inr (by rw [hnew])
      · exact .inl (by simpa [Outline.entries, hnew] using hentry)
    · by_cases hnew : entry = (number, new)
      · rw [hnew]
        exact hlast _ mem_cons_self
      · exact hold.heading entry (by simpa [hnew] using hentry)
    · rw [map_append]
      exact pairwise_lt_concat hold.body (forall_mem_map.2 fun entry hentry => hlast entry (by simp [Outline.entries, hentry]))

end Ledgers

/-! ## The ledger of the parser -/

def ParsedLine.entry (parsed : ParsedLine) : Nat × Entry := (parsed.line, .content parsed.text)

def ParsedItem.entries (item : ParsedItem) : List (Nat × Entry) :=
  (item.line, .item item.identifier item.text item.checked) :: item.fields.map ParsedLine.entry

def ParsedBlock.entries (block : ParsedBlock) : List (Nat × Entry) :=
  (block.line, .block block.identifier block.title) :: block.lines.map ParsedLine.entry

def ParsedSection.outline (parsed : ParsedSection) : Outline where
  heading := (parsed.line, .heading parsed.level parsed.name)
  items := parsed.items.flatMap ParsedItem.entries
  blocks := parsed.blocks.flatMap ParsedBlock.entries
  body := parsed.lines.map ParsedLine.entry

def diagnosedLines (start : Nat) (diagnostics : List Diagnostic) : List Nat :=
  (diagnostics.filter fun diagnostic => start < diagnostic.line).map Diagnostic.line

/-- What the parser would have of the lines so far, if they were all. -/
def State.ledger (start : Nat) (state : State) : Ledger where
  outlines := state.finishItem.finishSection.map ParsedSection.outline
  diagnosed := diagnosedLines start state.diagnostics

/-- The entries of an item whose fields may go on. -/
def State.pending (state : State) : List (Nat × Entry) :=
  (state.lastItem.map fun item => ParsedItem.entries { item with fields := state.itemFields }).getD []

def SectionBuilder.pending (builder : SectionBuilder) : List (Nat × Entry) :=
  (builder.block.map fun block => ParsedBlock.entries { block with lines := builder.blockLines }).getD []

def SectionBuilder.outline (builder : SectionBuilder) (pending : List (Nat × Entry)) : Outline where
  heading := (builder.line, .heading builder.level builder.name)
  items := builder.items.flatMap ParsedItem.entries ++ pending
  blocks := builder.blocks.flatMap ParsedBlock.entries ++ builder.pending
  body := builder.lines.map ParsedLine.entry

structure Placed (state : State) : Prop where
  item : state.current = none → state.lastItem = none
  fields : state.lastItem = none → state.itemFields = []

variable {start : Nat} {state : State} {builder : SectionBuilder}

theorem ledger_none (h : state.current = none) :
    state.ledger start = ⟨state.sections.map ParsedSection.outline, diagnosedLines start state.diagnostics⟩ := by
  simp [State.ledger, State.finishItem, State.finishSection, h]

theorem ledger_some (h : state.current = some builder) : state.ledger start =
      ⟨state.sections.map ParsedSection.outline ++ [builder.outline state.pending], diagnosedLines start state.diagnostics⟩ := by
  cases hitem : state.lastItem <;> cases hblock : builder.block <;>
    simp [State.ledger, State.finishItem, State.finishSection, finish, finishBlock, ParsedSection.outline,
      SectionBuilder.outline, SectionBuilder.pending, State.pending, h, hitem, hblock]

theorem diagnosedLines_concat (diagnostics : List Diagnostic) {diagnostic : Diagnostic} (h : start < diagnostic.line) :
    diagnosedLines start (diagnostics ++ [diagnostic]) = diagnosedLines start diagnostics ++ [diagnostic.line] := by
  simp [diagnosedLines, filter_append, h]

def SectionBuilder.withItem (builder : SectionBuilder) (state : State) : SectionBuilder :=
  { builder with items := builder.items ++ (state.lastItem.map fun item => { item with fields := state.itemFields }).toList }

theorem finishItem_current (h : state.current = some builder) : state.finishItem.current = some (builder.withItem state) := by
  rw [State.finishItem, h]
  rfl

theorem outline_withItem (builder : SectionBuilder) (state : State) (pending : List (Nat × Entry)) : (builder.withItem state).outline pending =
      { builder.outline state.pending with items := (builder.outline state.pending).items ++ pending } := by
  cases hitem : state.lastItem <;>
    simp [SectionBuilder.outline, withItem, SectionBuilder.pending, State.pending, hitem]

theorem outline_finishBlock (builder : SectionBuilder) (pending : List (Nat × Entry)) :
    builder.finishBlock.outline pending = builder.outline pending := by
  cases hblock : builder.block <;> simp [SectionBuilder.outline, finishBlock, SectionBuilder.pending, hblock]

theorem outline_startBlock (builder : SectionBuilder) (identifier title : Text) (line : Nat) (pending : List (Nat × Entry)) :
    (builder.startBlock identifier title line).outline pending =
      { builder.outline pending with blocks := (builder.outline pending).blocks ++ [(line, .block identifier title)] } := by
  cases hblock : builder.block <;>
    simp [SectionBuilder.outline, startBlock, finishBlock, SectionBuilder.pending, ParsedBlock.entries, hblock]

theorem finishItem_placed (state : State) : Placed state.finishItem := ⟨fun _ => rfl, fun _ => rfl⟩

def RecordsLine (start number : Nat) (line : Text) (state after : State) : Prop :=
  Placed after ∧ Records number line (state.ledger start) (after.ledger start)

theorem diagnose_records (hplaced : Placed state) (line : Text) (diagnostic : Diagnostic) (hstart : start < diagnostic.line) :
    RecordsLine start diagnostic.line line state (state.diagnose diagnostic) := by
  refine ⟨⟨hplaced.item, hplaced.fields⟩, ?_⟩
  have hledger : (state.diagnose diagnostic).ledger start =
      ⟨(state.ledger start).outlines, (state.ledger start).diagnosed ++ [diagnostic.line]⟩ := by
    simp only [State.ledger, State.diagnose, diagnosedLines_concat _ hstart]
    rfl
  rw [hledger]
  exact .diagnosed _ _

section

variable {number : Nat} {line : Text}

theorem item_records (hcurrent : state.current = some builder) {checked : Option Bool} {identifier text : Text}
    (hitem : matchItem line = some (checked, identifier, text)) :
    RecordsLine start number line state
      { state.finishItem with
        current := state.finishItem.current.map finishBlock
        lastItem := some { identifier := identifier, text := text, line := number, checked := checked, fields := [] } } := by
  have hafter : ({ state.finishItem with
      current := state.finishItem.current.map finishBlock
      lastItem := some { identifier := identifier, text := text, line := number, checked := checked, fields := [] } } : State).current =
      some (builder.withItem state).finishBlock := by
    rw [finishItem_current hcurrent]
    rfl
  refine ⟨⟨fun hnone => ?_, fun hnone => nomatch hnone⟩, ?_⟩
  · rw [hafter] at hnone
    cases hnone
  · rw [ledger_some hcurrent, ledger_some hafter, outline_finishBlock, outline_withItem]
    exact .item _ _ _ (.item identifier text checked) (matchItem_shows hitem)

theorem blockLine_records (hplaced : Placed state) (hcurrent : state.current = some builder) (hblock : builder.block.isSome = true) :
    RecordsLine start number line state
      { state with current := some { builder with blockLines := builder.blockLines ++ [{ line := number, text := strip line }] } } := by
  obtain ⟨block, hblock⟩ := isSome_iff_exists.1 hblock
  refine ⟨⟨fun hnone => (nomatch hnone), hplaced.fields⟩, ?_⟩
  have houtline : SectionBuilder.outline { builder with blockLines := builder.blockLines ++ [{ line := number, text := strip line }] } state.pending =
      { builder.outline state.pending with
        blocks := (builder.outline state.pending).blocks ++ [(number, .content (strip line))] } := by
    simp [SectionBuilder.outline, SectionBuilder.pending, hblock, ParsedBlock.entries, ParsedLine.entry]
  rw [ledger_some hcurrent, ledger_some rfl]
  have hpending : ({ state with current := some { builder with blockLines := builder.blockLines ++ [{ line := number, text := strip line }] } } :
      State).pending = state.pending := rfl
  rw [hpending, houtline]
  exact .block _ _ _ (.content (strip line)) rfl

theorem field_records (hplaced : Placed state) (hcurrent : state.current = some builder) (hitem : state.lastItem.isSome = true) :
    RecordsLine start number line state { state with itemFields := state.itemFields ++ [{ line := number, text := strip line }] } := by
  obtain ⟨item, hitem⟩ := isSome_iff_exists.1 hitem
  refine ⟨⟨hplaced.item, fun hnone => ?_⟩, ?_⟩
  · rw [hitem] at hnone
    cases hnone
  · have hpending : ({ state with itemFields := state.itemFields ++ [{ line := number, text := strip line }] } : State).pending =
        state.pending ++ [(number, .content (strip line))] := by
      simp [State.pending, hitem, ParsedItem.entries, ParsedLine.entry]
    have hafter : ({ state with itemFields := state.itemFields ++ [{ line := number, text := strip line }] } : State).current = some builder := hcurrent
    rw [ledger_some hcurrent, ledger_some hafter, hpending]
    have houtline : builder.outline (state.pending ++ [(number, .content (strip line))]) =
        { builder.outline state.pending with items := (builder.outline state.pending).items ++ [(number, .content (strip line))] } := by
      simp [SectionBuilder.outline]
    rw [houtline]
    exact .item _ _ _ (.content (strip line)) rfl

theorem bodyLine_records (hcurrent : state.current = some builder) : RecordsLine start number line state { state.finishItem with
        current := state.finishItem.current.map fun builder => { builder with lines := builder.lines ++ [{ line := number, text := strip line }] } } := by
  have hafter : ({ state.finishItem with
      current := state.finishItem.current.map fun builder => { builder with lines := builder.lines ++ [{ line := number, text := strip line }] } } :
      State).current = some { builder.withItem state with lines := builder.lines ++ [{ line := number, text := strip line }] } := by
    rw [finishItem_current hcurrent]
    rfl
  have houtline : SectionBuilder.outline { builder.withItem state with lines := builder.lines ++ [{ line := number, text := strip line }] } [] =
      { builder.outline state.pending with body := (builder.outline state.pending).body ++ [(number, .content (strip line))] } := by
    have hwith := outline_withItem builder state []
    rw [append_nil] at hwith
    have hbody : ∀ other : SectionBuilder, SectionBuilder.outline { other with lines := other.lines ++ [{ line := number, text := strip line }] } [] =
        { other.outline [] with body := (other.outline []).body ++ [(number, .content (strip line))] } := by
      intro other
      simp [SectionBuilder.outline, SectionBuilder.pending, ParsedLine.entry]
    exact (hbody (builder.withItem state)).trans (by rw [hwith])
  refine ⟨⟨fun _ => rfl, fun _ => rfl⟩, ?_⟩
  rw [ledger_some hcurrent, ledger_some hafter]
  refine houtline ▸ ?_
  exact .body _ _ _ (.content (strip line)) rfl

theorem stepContent_records (hplaced : Placed state) (hnumber : start < number) :
    RecordsLine start number line state (stepContent state number line) := by
  unfold stepContent
  cases hcurrent : state.current with
  | none => exact diagnose_records hplaced line (misplacedContent number) hnumber
  | some builder =>
    by_cases hmark : line.head? = some '#'
    · simp only [hmark, if_true]
      exact diagnose_records hplaced line (malformedHeading number builder.name) hnumber
    · simp only [hmark, if_false]
      cases hitem : matchItem line with
      | some found => exact item_records hcurrent hitem
      | none =>
        by_cases hblock : builder.block.isSome = true
        · simp only [hblock, if_true]
          exact blockLine_records hplaced hcurrent hblock
        · by_cases hfield : (line.head?.any isSpace && state.lastItem.isSome) = true
          · have hrecords : RecordsLine start number line state
                { state with itemFields := state.itemFields ++ [{ line := number, text := strip line }] } :=
              field_records hplaced hcurrent (Bool.and_eq_true_iff.1 hfield).2
            rw [hcurrent] at hrecords
            simp only [hblock, hfield, if_true, Bool.false_eq_true, if_false]
            exact hrecords
          · simp only [hblock, hfield, Bool.false_eq_true, if_false]
            exact bodyLine_records hcurrent

theorem blockHeading_records {found : Nat × Text × Text} (hfound : matchBlockHeading line = some found) (hnumber : start < number) :
    RecordsLine start number line state
      (match state.finishItem.current with
      | none => state.finishItem.diagnose (misplacedBlock number)
      | some builder => { state.finishItem with current := some (builder.startBlock found.2.1 found.2.2 number) }) := by
  cases hcurrent : state.current with
  | none =>
    have hnone : state.finishItem.current = none := by rw [State.finishItem, hcurrent]; rfl
    have hledger : state.finishItem.ledger start = state.ledger start := by
      rw [ledger_none hnone, ledger_none hcurrent]
      rfl
    rw [hnone]
    have hrecords := diagnose_records (finishItem_placed state) line (misplacedBlock number) hnumber
    unfold RecordsLine at hrecords ⊢
    rwa [hledger] at hrecords
  | some builder =>
    rw [finishItem_current hcurrent]
    refine ⟨⟨fun hnone => (nomatch hnone), fun _ => rfl⟩, ?_⟩
    have houtline : ((builder.withItem state).startBlock found.2.1 found.2.2 number).outline [] =
        { builder.outline state.pending with blocks := (builder.outline state.pending).blocks ++ [(number, .block found.2.1 found.2.2)] } := by
      rw [outline_startBlock, outline_withItem, append_nil]
    rw [ledger_some hcurrent, ledger_some rfl]
    refine houtline ▸ ?_
    exact .block _ _ _ (.block found.2.1 found.2.2) (matchBlockHeading_shows hfound)

theorem heading_records {found : Nat × Text} (hfound : matchHeading line = some found) : RecordsLine start number line state { state.finishItem with
        sections := state.finishItem.finishSection
        current := some { name := found.2, line := number, level := found.1, lines := [], items := [], blocks := [], block := none, blockLines := [] } } := by
  refine ⟨⟨fun hnone => (nomatch hnone), fun _ => rfl⟩, ?_⟩
  have hledger : State.ledger start { state.finishItem with
        sections := state.finishItem.finishSection
        current := some { name := found.2, line := number, level := found.1, lines := [], items := [], blocks := [], block := none, blockLines := [] } } =
      ⟨(state.ledger start).outlines ++ [{ heading := (number, .heading found.1 found.2), items := [], blocks := [], body := [] }],
        (state.ledger start).diagnosed⟩ := by
    rw [ledger_some rfl]
    rfl
  rw [hledger]
  exact .heading _ _ (.heading found.1 found.2) (matchHeading_shows hfound)

theorem step_records (allowNestedHeadings : Bool) (hplaced : Placed state) (hnumber : start < number) (line : Text) :
    (line.all isSpace = true ∧ step allowNestedHeadings state number line = state) ∨
      (line.all isSpace = false ∧ RecordsLine start number line state (step allowNestedHeadings state number line)) := by
  unfold step
  cases hblock : (matchBlockHeading line).filter fun found => allowNestedHeadings || found.1 == 3 with
  | some found =>
    have hfound := (filter_eq_some_iff.1 hblock).1
    obtain ⟨marked, hmarks, hlevel⟩ := bind_eq_some_iff.1 hfound
    rw [ite_none_right_eq_some] at hlevel
    exact .inr ⟨matchMarks_notBlank hmarks (by omega), blockHeading_records hfound hnumber⟩
  | none =>
    cases hheading : (matchHeading line).filter fun found => allowNestedHeadings || found.1 == 2 with
    | some found =>
      have hfound := (filter_eq_some_iff.1 hheading).1
      obtain ⟨hmarks, hlevel⟩ := filter_eq_some_iff.1 hfound
      simp only [Bool.and_eq_true, decide_eq_true_eq] at hlevel
      exact .inr ⟨matchMarks_notBlank hmarks hlevel.1.1, heading_records hfound⟩
    | none =>
      by_cases hblank : line.all isSpace = true
      · exact .inl ⟨hblank, by simp only [hblank, if_true]⟩
      · refine .inr ⟨by simpa using hblank, ?_⟩
        simp only [hblank, Bool.false_eq_true, if_false]
        exact stepContent_records hplaced hnumber

end

/-! ## Runs -/

def contentNumbers (number : Nat) (lines : List Text) : List Nat :=
  ((lines.zipIdx number).filter fun numbered => !numbered.1.all isSpace).map Prod.snd

theorem parseFrom_once (allowNestedHeadings : Bool) {number : Nat} (hplaced : Placed state) (hnumber : start < number) (lines : List Text) :
    ((parseFrom allowNestedHeadings state number lines).ledger start).numbers.Perm
      ((state.ledger start).numbers ++ contentNumbers number lines) := by
  induction lines generalizing state number with
  | nil => simp [parseFrom, contentNumbers]
  | cons line lines ih =>
    rw [parseFrom]
    rcases step_records allowNestedHeadings hplaced hnumber line with ⟨hblank, hstep⟩ | ⟨hline, hplaced', hrecords⟩
    · rw [hstep]
      have hnumbers : contentNumbers number (line :: lines) = contentNumbers (number + 1) lines := by simp [contentNumbers, zipIdx_cons, hblank]
      rw [hnumbers]
      exact ih hplaced (by omega)
    · have hnumbers : contentNumbers number (line :: lines) = number :: contentNumbers (number + 1) lines := by
        simp [contentNumbers, zipIdx_cons, hline]
      rw [hnumbers]
      refine (ih hplaced' (by omega)).trans ?_
      exact (List.Perm.append_right _ hrecords.perm).trans perm_middle.symm

theorem parseFrom_shown (allowNestedHeadings : Bool) {number : Nat} (hplaced : Placed state) (hnumber : start < number) (lines : List Text) :
    ∀ entry ∈ ((parseFrom allowNestedHeadings state number lines).ledger start).entries, entry ∈ (state.ledger start).entries ∨
      ∃ index line, lines[index]? = some line ∧ entry.1 = number + index ∧ entry.2.Shows line := by
  induction lines generalizing state number with
  | nil => exact fun entry hentry => .inl hentry
  | cons line lines ih =>
    intro entry hentry
    rw [parseFrom] at hentry
    have hlater : (∃ index later, lines[index]? = some later ∧ entry.1 = number + 1 + index ∧ entry.2.Shows later) →
        ∃ index later, (line :: lines)[index]? = some later ∧ entry.1 = number + index ∧ entry.2.Shows later := by
      rintro ⟨index, later, hindex, hnumber, hshows⟩
      exact ⟨index + 1, later, hindex, by omega, hshows⟩
    rcases step_records allowNestedHeadings hplaced hnumber line with ⟨-, hstep⟩ | ⟨-, hplaced', hrecords⟩
    · rw [hstep] at hentry
      exact (ih hplaced (by omega) entry hentry).imp_right hlater
    · rcases ih hplaced' (by omega) entry hentry with hold | hnew
      · rcases hrecords.entries entry hold with hold | ⟨hentry, hshows⟩
        · exact .inl hold
        · exact .inr ⟨0, line, rfl, hentry, hshows⟩
      · exact .inr (hlater hnew)

theorem parseFrom_ordered (allowNestedHeadings : Bool) {number : Nat} (hplaced : Placed state) (hnumber : start < number)
    (hordered : (state.ledger start).Ordered) (hbelow : ∀ m ∈ (state.ledger start).numbers, m < number) (lines : List Text) :
    ((parseFrom allowNestedHeadings state number lines).ledger start).Ordered := by
  induction lines generalizing state number with
  | nil => exact hordered
  | cons line lines ih =>
    rw [parseFrom]
    rcases step_records allowNestedHeadings hplaced hnumber line with ⟨-, hstep⟩ | ⟨-, hplaced', hrecords⟩
    · rw [hstep]
      exact ih hplaced (by omega) hordered fun m hm => Nat.lt_succ_of_lt (hbelow m hm)
    · refine ih hplaced' (by omega) (hrecords.ordered hordered hbelow) fun m hm => ?_
      rcases mem_cons.1 (hrecords.perm.mem_iff.1 hm) with rfl | hold
      · exact Nat.lt_succ_self _
      · exact Nat.lt_succ_of_lt (hbelow m hold)

theorem parseFrontmatterFrom_diagnostics {front : Frontmatter} {index : Nat} (hindex : 1 ≤ index)
    (hfront : ∀ diagnostic ∈ front.diagnostics, diagnostic.line ≤ index) (lines : List Text) :
    ∀ diagnostic ∈ (parseFrontmatterFrom front index lines).1.diagnostics, diagnostic.line ≤ (parseFrontmatterFrom front index lines).2 := by
  induction lines generalizing front index with
  | nil =>
    intro diagnostic hmem
    rcases mem_append.1 hmem with hold | hnew
    · exact hfront diagnostic hold
    · rw [mem_singleton.1 hnew]
      exact hindex
  | cons line lines ih =>
    have hlater : ∀ diagnostic ∈ front.diagnostics, diagnostic.line ≤ index + 1 := fun diagnostic hmem => Nat.le_succ_of_le (hfront diagnostic hmem)
    have hmore : ∀ new : Diagnostic, new.line = index + 1 → ∀ diagnostic ∈ front.diagnostics ++ [new], diagnostic.line ≤ index + 1 := by
      intro new hline diagnostic hmem
      rcases mem_append.1 hmem with hold | hnew
      · exact hlater diagnostic hold
      · rw [mem_singleton.1 hnew, hline]
    rw [parseFrontmatterFrom]
    by_cases hclosing : line = "---".toList
    · rw [if_pos hclosing]
      exact hlater
    · rw [if_neg hclosing]
      cases hfield : matchFrontmatterField line with
      | none => exact ih (by omega) (hmore (malformedField (index + 1)) rfl)
      | some field =>
        by_cases hduplicate : (front.fields.any fun other => other.1 = field.1) = true
        · simp only [hduplicate, if_true]
          exact ih (by omega) (hmore (duplicateField (index + 1) field.1) rfl)
        · simp only [hduplicate, Bool.false_eq_true, if_false]
          exact ih (by omega) hlater

theorem parseFrontmatter_diagnostics (lines : List Text) :
    diagnosedLines (parseFrontmatter lines).2 (parseFrontmatter lines).1.diagnostics = [] := by
  have hbounded : ∀ diagnostic ∈ (parseFrontmatter lines).1.diagnostics, diagnostic.line ≤ (parseFrontmatter lines).2 := by
    unfold parseFrontmatter
    cases lines with
    | nil => simp
    | cons line rest =>
      by_cases hopening : line = "---".toList
      · simp only [hopening, if_true]
        exact parseFrontmatterFrom_diagnostics (Nat.le_refl 1) (by simp) rest
      · simp only [hopening, if_false]
        simp
  rw [diagnosedLines, map_eq_nil_iff, filter_eq_nil_iff]
  intro diagnostic hmem
  have hline := hbounded diagnostic hmem
  simpa using hline

structure Accounted (lines : List Text) (start : Nat) (sections : List ParsedSection) (diagnostics : List Diagnostic) : Prop where
  /-- Every line that is not blank is there once, by its number. -/
  once : (Ledger.numbers ⟨sections.map ParsedSection.outline, diagnosedLines start diagnostics⟩).Perm (contentNumbers (start + 1) (lines.drop start))
  /-- What is there under a number is what that line says. -/
  shown : ∀ entry ∈ Ledger.entries ⟨sections.map ParsedSection.outline, diagnosedLines start diagnostics⟩,
    ∃ line, lines[entry.1 - 1]? = some line ∧ entry.2.Shows line
  ordered : Ledger.Ordered ⟨sections.map ParsedSection.outline, diagnosedLines start diagnostics⟩

end RalphWorkflow.Markdown
