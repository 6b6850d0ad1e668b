import RalphWorkflow.Proof.WireLedger.Lines
import RalphWorkflow.Proof.WireLedger.Tamper

/-! The ledger file verifies after every step of every run. The records that appends have returned stay in it as long as no
append starts on a line that a killed one has left open. -/
namespace RalphWorkflow.Mcp.WireLedger
open Lib List Ledger
open Lib.Json

variable {Number : Type} [PyNumber Number] [Spelling Number] {mac : Mac} {segments : List (Segment Number)}
  {tail : Segment Number} {record : WireLedgerRecord Number} {written rest : Text}

/-! ## The file and what a writer has put down -/

structure Stands (mac : Mac) (segments : List (Segment Number)) (tail : Segment Number) : Prop where
  soundLines : ∀ segment ∈ segments, segment.Sound
  soundTail : tail.Sound
  chained : Chained genesisHmac.text (recordsOf segments ++ tail.record.toList)
  sealed : ∀ record ∈ recordsOf segments ++ tail.record.toList, record.Sealed mac

theorem Stands.rows (hstands : Stands mac segments tail) :
    iterLedgerRows (render segments tail) = (recordsOf segments ++ tail.record.toList).map (·.row) :=
  iterLedgerRows_render hstands.soundLines hstands.soundTail

theorem Stands.verifies (hstands : Stands mac segments tail) :
    verifyChain mac (iterLedgerRows (render segments tail) : List (Row Number)) = true := by
  rw [hstands.rows]
  exact verifyChain_row _ hstands.chained hstands.sealed

structure Continues (mac : Mac) (segments : List (Segment Number)) (tail : Segment Number)
    (record : WireLedgerRecord Number) : Prop where
  prior : record.priorHmac = lastMark (·.recordHmac) genesisHmac.text (recordsOf segments ++ tail.record.toList)
  sealed : record.Sealed mac

omit [PyNumber Number] [Spelling Number] in
theorem recordsOf_append (first second : List (Segment Number)) :
    recordsOf (first ++ second) = recordsOf first ++ recordsOf second := filterMap_append

omit [PyNumber Number] in
theorem Segment.Sound.record_of_nil (hsound : tail.Sound) (hempty : tail.pieces = []) : tail.record = none := by
  cases hrecord : tail.record with
  | none => rfl
  | some record =>
    have hwhole := hsound.whole record hrecord
    rw [hempty] at hwhole
    cases hwhole

omit [PyNumber Number] in
theorem Segment.Sound.empty : (⟨[], none⟩ : Segment Number).Sound where
  pieces := fun piece hpiece => absurd hpiece not_mem_nil
  whole := fun record hrecord => by cases hrecord
  torn := fun _ => .inl rfl

def extended (tail : Segment Number) (record : WireLedgerRecord Number) (written : Text) : Segment Number where
  pieces := tail.pieces ++ [written]
  record := if tail.pieces = [] ∧ written = record.toJsonLine then some record else none

omit [PyNumber Number] in
theorem extended_sound (htail : tail.Sound) (hne : written ≠ []) (hfront : written <+: record.toJsonLine) :
    (extended tail record written).Sound where
  pieces := by
    intro piece hpiece
    rcases mem_append.mp hpiece with hold | hnew
    · exact htail.pieces piece hold
    · cases mem_singleton.mp hnew
      exact ⟨hne, record.toJsonLine, record.written, hfront⟩
  whole := by
    intro own hown
    by_cases hwhole : tail.pieces = [] ∧ written = record.toJsonLine
    · rw [extended, if_pos hwhole] at hown
      cases hown
      rw [extended, hwhole.1, hwhole.2, nil_append]
    · rw [extended, if_neg hwhole] at hown
      cases hown
  torn := by
    intro hnone
    have hnot : ¬ (tail.pieces = [] ∧ written = record.toJsonLine) := by
      intro hwhole
      rw [extended, if_pos hwhole] at hnone
      cases hnone
    unfold extended
    cases hpieces : tail.pieces with
    | nil =>
      refine .inr ⟨written, [], rfl, .inr fun hwritten => hnot ⟨hpieces, ?_⟩⟩
      exact hwritten.eq_of_prefix record.written hfront
    | cons first others => exact .inr ⟨first, others ++ [written], rfl, .inl (by simp)⟩

theorem extended_stands (hstands : Stands mac segments tail) (hcontinues : Continues mac segments tail record)
    (hne : written ≠ []) (hfront : written <+: record.toJsonLine) :
    Stands mac segments (extended tail record written) := by
  have hsound : (extended tail record written).Sound := extended_sound hstands.soundTail hne hfront
  by_cases hwhole : tail.pieces = [] ∧ written = record.toJsonLine
  · have hrecord : (extended tail record written).record.toList = [record] := by
      rw [extended, if_pos hwhole, Option.toList_some]
    have hknown : recordsOf segments ++ tail.record.toList = recordsOf segments := by
      rw [hstands.soundTail.record_of_nil hwhole.1, Option.toList_none, append_nil]
    have hchained := hstands.chained
    have hsealed := hstands.sealed
    have hprior := hcontinues.prior
    rw [hknown] at hchained hsealed hprior
    refine ⟨hstands.soundLines, hsound, ?_, ?_⟩
    · rw [hrecord]
      exact linked_append.mpr ⟨hchained, hprior, trivial⟩
    · rw [hrecord]
      intro own hown
      rcases mem_append.mp hown with hold | hnew
      · exact hsealed own hold
      · exact mem_singleton.mp hnew ▸ hcontinues.sealed
  · have hrecord : (extended tail record written).record.toList = [] := by
      rw [extended, if_neg hwhole, Option.toList_none]
    refine ⟨hstands.soundLines, hsound, ?_, ?_⟩
    · rw [hrecord, append_nil]
      exact (linked_append.mp hstands.chained).1
    · rw [hrecord, append_nil]
      exact fun own hown => hstands.sealed own (mem_append_left _ hown)

theorem Stands.absorb (hstands : Stands mac segments tail) (hcontinues : Continues mac segments tail record)
    (hline : written ++ rest = record.toJsonLine ++ ['\n']) :
    ∃ segments' tail', Stands mac segments' tail' ∧ render segments tail ++ written = render segments' tail' ∧
      (∀ own ∈ recordsOf segments, own ∈ recordsOf segments') ∧
      (rest = [] → tail.pieces = [] → record ∈ recordsOf segments') := by
  have hextend : ∀ text, render segments tail ++ text = render segments (extended tail record text) := by
    intro text
    simp [render, extended, Segment.text]
  have hwhole : record.toJsonLine ≠ [] := by
    obtain ⟨c, text, -, hstart⟩ := record.written.start
    exact hstart ▸ cons_ne_nil _ _
  rcases eq_nil_or_concat rest with rfl | ⟨left, last, rfl⟩
  · -- the line is ended
    rw [append_nil] at hline
    have hended := extended_stands hstands hcontinues hwhole (prefix_refl _)
    refine ⟨segments ++ [extended tail record record.toJsonLine], ⟨[], none⟩, ⟨?_, Segment.Sound.empty, ?_, ?_⟩, ?_, ?_, ?_⟩
    · intro segment hsegment
      rcases mem_append.mp hsegment with hold | hnew
      · exact hstands.soundLines segment hold
      · exact mem_singleton.mp hnew ▸ hended.soundTail
    all_goals
      have hrecords : recordsOf (segments ++ [extended tail record record.toJsonLine]) =
          recordsOf segments ++ (extended tail record record.toJsonLine).record.toList := by
        rw [recordsOf_append]
        cases hlast : (extended tail record record.toJsonLine).record <;> simp [recordsOf, hlast]
    · rw [hrecords, Option.toList_none, append_nil]
      exact hended.chained
    · rw [hrecords, Option.toList_none, append_nil]
      exact hended.sealed
    · rw [hline, ← append_assoc, hextend]
      simp [render, Segment.text]
    · exact fun own hown => hrecords ▸ mem_append_left _ hown
    · intro _ hempty
      rw [hrecords, extended, if_pos ⟨hempty, rfl⟩]
      exact mem_append_right _ (mem_singleton_self record)
  · have hfront : written <+: record.toJsonLine := by
      rw [concat_eq_append, ← append_assoc] at hline
      exact ⟨left, (append_inj' hline rfl).1⟩
    have hnot : left.concat last ≠ [] := by simp
    by_cases hne : written = []
    · exact ⟨segments, tail, hstands, by rw [hne, append_nil], fun _ hown => hown, fun hnil => absurd hnil hnot⟩
    · exact ⟨segments, extended tail record written, extended_stands hstands hcontinues hne hfront, hextend written,
        fun _ hown => hown, fun hnil => absurd hnil hnot⟩

theorem Stands.tail_nil (hstands : Stands mac segments tail)
    (hline : render segments tail = [] ∨ (render segments tail).getLast? = some '\n') : tail.pieces = [] := by
  by_contra hpieces
  obtain ⟨piece, others, hsplit⟩ := exists_cons_of_ne_nil hpieces
  have hpiece := (hstands.soundTail.pieces piece (hsplit ▸ mem_cons_self)).1
  have htext : tail.text ≠ [] := by
    rw [Segment.text, hsplit, flatten_cons]
    exact fun hnil => hpiece (append_eq_nil_iff.mp hnil).1
  rcases hline with hnil | hlast
  · exact htext (append_eq_nil_iff.mp hnil).2
  · rw [render, List.getLast?_append_of_ne_nil _ htext] at hlast
    have hmem : '\n' ∈ tail.text := mem_of_getLast? hlast
    have hprintable := all_eq_true.mp hstands.soundTail.printable '\n' hmem
    exact absurd hprintable (by decide)

/-! ## Steps -/

section

variable {Appender : Type} {s t : Ledger Appender Number} {clean : Prop}

/-- Only the lock's holder is at work, its record follows segments that stand, and returned records are ended ones. -/
structure Consistent (mac : Mac) (clean : Prop) (s : Ledger Appender Number) (segments : List (Segment Number))
    (tail : Segment Number) (written : Text) : Prop where
  holder : ∀ appender, s.phase appender = .idle ∨ s.lock = some appender
  stands : Stands mac segments tail
  file : s.file = render segments tail ++ written
  writer : ∀ appender record rest, s.phase appender = .writing record rest →
    Continues mac segments tail record ∧ written ++ rest = record.toJsonLine ++ ['\n'] ∧ (clean → tail.pieces = [])
  resting : (∀ appender record rest, s.phase appender ≠ .writing record rest) → written = []
  returned : clean → ∀ record ∈ s.returned, record ∈ recordsOf segments

section

variable (h : Consistent mac clean s segments tail written)
include h

theorem Consistent.stands_file : ∃ segments' tail', Stands mac segments' tail' ∧ s.file = render segments' tail' ∧
      (∀ own ∈ recordsOf segments, own ∈ recordsOf segments') := by
  by_cases hwriting : ∃ appender record rest, s.phase appender = .writing record rest
  · obtain ⟨appender, record, rest, hphase⟩ := hwriting
    obtain ⟨hcontinues, hline, -⟩ := h.writer appender record rest hphase
    obtain ⟨segments', tail', hstands, hrender, hkept, -⟩ := h.stands.absorb hcontinues hline
    exact ⟨segments', tail', hstands, h.file.trans hrender, hkept⟩
  · have hnone : written = [] :=
      h.resting fun appender record rest hphase => hwriting ⟨appender, record, rest, hphase⟩
    exact ⟨segments, tail, h.stands, by rw [h.file, hnone, append_nil], fun _ hown => hown⟩

theorem Consistent.verifies : verifyChain mac (iterLedgerRows s.file : List (Row Number)) = true := by
  obtain ⟨segments', tail', hstands, hfile, -⟩ := h.stands_file
  rw [hfile]
  exact hstands.verifies

theorem Consistent.finds [DecidableEq Number] (hclean : clean) (hrecord : record ∈ s.returned) {lower : Text → Text} {query : Query}
    (hquery : query.matchesRow lower record.runId record.row = true) : wireEvidenceFor Number mac lower s.file record.runId query = true := by
  obtain ⟨segments', tail', hstands, hfile, hkept⟩ := h.stands_file
  have hmem : record.row ∈ (iterLedgerRows s.file : List (Row Number)) := by
    rw [hfile, hstands.rows]
    exact mem_map_of_mem (mem_append_left _ (hkept record (h.returned hclean record hrecord)))
  exact Bool.and_eq_true_iff.mpr ⟨h.verifies, any_eq_true.mpr ⟨record.row, hmem, hquery⟩⟩

theorem Consistent.others_idle {appender other : Appender}
    (hlock : s.lock = some appender) (hother : other ≠ appender) : s.phase other = .idle := by
  rcases h.holder other with hidle | hheld
  · exact hidle
  · rw [hlock] at hheld
    exact absurd (Option.some.inj hheld).symm hother

theorem Consistent.lock_of_phase {appender : Appender}
    (hphase : s.phase appender ≠ .idle) : s.lock = some appender := (h.holder appender).resolve_left hphase

end

variable (mac clean) in
def Kept (s : Ledger Appender Number) : Prop := ∃ segments tail written, Consistent mac clean s segments tail written

def StartsLine (s : Ledger Appender Number) (event : Event Appender Number) (_ : Ledger Appender Number) : Prop :=
  match event with
  | .read _ => s.file = [] ∨ s.file.getLast? = some '\n'
  | _ => True

theorem kept_empty : Kept mac clean (empty : Ledger Appender Number) := by
  refine ⟨[], ⟨[], none⟩, [], ?_⟩
  exact {
    holder := fun _ => .inl rfl
    stands := ⟨fun _ h => absurd h not_mem_nil, Segment.Sound.empty, trivial, fun _ h => absurd h not_mem_nil⟩
    file := rfl
    writer := fun _ _ _ hphase => by simp [empty] at hphase
    resting := fun _ => rfl
    returned := fun _ _ h => absurd h not_mem_nil }

variable [DecidableEq Appender] {appender : Appender}

omit [PyNumber Number] [Spelling Number] in
theorem setPhase_self (s : Ledger Appender Number) (appender : Appender) (phase : Phase Number) :
    (s.setPhase appender phase).phase appender = phase := if_pos rfl

omit [PyNumber Number] [Spelling Number] in
theorem setPhase_other (s : Ledger Appender Number) {appender other : Appender} (phase : Phase Number)
    (hother : other ≠ appender) : (s.setPhase appender phase).phase other = s.phase other := if_neg hother

theorem Consistent.written_nil (h : Consistent mac clean s segments tail written) (hlock : s.lock = some appender)
    (hphase : ∀ record rest, s.phase appender ≠ .writing record rest) : written = [] := by
  refine h.resting fun other record rest hother => ?_
  by_cases heq : other = appender
  · exact hphase record rest (heq ▸ hother)
  · rw [h.others_idle hlock heq] at hother
    cases hother

theorem Consistent.call (h : Consistent mac clean s segments tail written) (hlock : s.lock = none) (frame : Frame Number) :
    Consistent mac clean ({ s with lock := some appender }.setPhase appender (.locked frame)) segments tail written := by
  have hidle : ∀ other, s.phase other = .idle := by
    intro other
    rcases h.holder other with hidle | hheld
    · exact hidle
    · rw [hlock] at hheld
      cases hheld
  have hnowriter : ∀ other record rest,
      ({ s with lock := some appender }.setPhase appender (.locked frame)).phase other ≠ .writing record rest := by
    intro other record rest hphase
    by_cases hother : other = appender
    · subst hother
      rw [setPhase_self] at hphase
      cases hphase
    · rw [setPhase_other _ _ hother, hidle other] at hphase
      cases hphase
  exact {
    holder := by
      intro other
      by_cases hother : other = appender
      · exact .inr (by rw [hother]; rfl)
      · exact .inl (by rw [setPhase_other _ _ hother]; exact hidle other)
    stands := h.stands
    file := h.file
    writer := fun other record rest hphase => absurd hphase (hnowriter other record rest)
    resting := fun _ => h.resting fun other record rest hphase => by rw [hidle other] at hphase; cases hphase
    returned := h.returned }

variable {frame : Frame Number}

section

variable (h : Consistent mac clean s segments tail written)
include h

theorem Consistent.read (hphase : s.phase appender = .locked frame) (hstarts : clean → s.file = [] ∨ s.file.getLast? = some '\n') :
    Consistent mac clean (s.setPhase appender (.writing (newRecord mac (iterLedgerRows s.file) frame)
      ((newRecord mac (iterLedgerRows s.file) frame).toJsonLine ++ ['\n']))) segments tail [] := by
  have hlock : s.lock = some appender := h.lock_of_phase (by rw [hphase]; exact nofun)
  have hnone : written = [] := h.written_nil hlock fun record rest hwriting => by rw [hphase] at hwriting; cases hwriting
  have hfile : s.file = render segments tail := by rw [h.file, hnone, append_nil]
  exact {
    holder := by
      intro other
      by_cases hother : other = appender
      · exact .inr (hother ▸ hlock)
      · exact .inl (by rw [setPhase_other _ _ hother]; exact h.others_idle hlock hother)
    stands := h.stands
    file := by rw [append_nil]; exact hfile
    writer := by
      intro other record rest hwriting
      by_cases hother : other = appender
      · subst hother
        rw [setPhase_self] at hwriting
        cases hwriting
        refine ⟨⟨?_, rfl⟩, rfl, fun hclean => h.stands.tail_nil (hfile ▸ hstarts hclean)⟩
        have hrows := h.stands.rows
        rw [← hfile] at hrows
        simp only [newRecord, hrows]
        exact readLastHmac_row
      · rw [setPhase_other _ _ hother, h.others_idle hlock hother] at hwriting
        cases hwriting
    resting := fun _ => rfl
    returned := h.returned }

theorem Consistent.write {own : WireLedgerRecord Number} {left : Text} (hphase : s.phase appender = .writing own left) (count : Nat) :
    Consistent mac clean ({ s with file := s.file ++ left.take count }.setPhase appender
      (.writing own (left.drop count))) segments tail (written ++ left.take count) := by
  have hlock : s.lock = some appender := h.lock_of_phase (by rw [hphase]; exact nofun)
  obtain ⟨hcontinues, hline, htail⟩ := h.writer appender own left hphase
  exact {
    holder := by
      intro other
      by_cases hother : other = appender
      · exact .inr (hother ▸ hlock)
      · exact .inl (by rw [setPhase_other _ _ hother]; exact h.others_idle hlock hother)
    stands := h.stands
    file := by
      have hfile : s.file ++ left.take count = render segments tail ++ (written ++ left.take count) := by
        rw [h.file, append_assoc]
      exact hfile
    writer := by
      intro other record rest hwriting
      by_cases hother : other = appender
      · subst hother
        rw [setPhase_self] at hwriting
        cases hwriting
        exact ⟨hcontinues, by rw [append_assoc, take_append_drop, hline], htail⟩
      · rw [setPhase_other _ _ hother] at hwriting
        have hidle := h.others_idle hlock hother
        simp only [hidle] at hwriting
        cases hwriting
    resting := fun hnone => absurd (setPhase_self _ _ _) (hnone appender own (left.drop count))
    returned := h.returned }

theorem Consistent.stop (hphase : s.phase appender ≠ .idle) {kept : List (WireLedgerRecord Number)}
    (hkept : ∀ record ∈ kept, record ∈ s.returned ∨ s.phase appender = .writing record []) :
    Kept mac clean ({ s with lock := none, returned := kept }.setPhase appender .idle) := by
  have hlock := h.lock_of_phase hphase
  have hidle : ∀ other, ({ s with lock := none, returned := kept }.setPhase appender .idle).phase other = .idle := by
    intro other
    by_cases hother : other = appender
    · exact hother ▸ setPhase_self _ _ _
    · rw [setPhase_other _ _ hother]
      exact h.others_idle hlock hother
  have hafter : ∀ {segments' tail'}, Stands mac segments' tail' → s.file = render segments' tail' →
      (clean → ∀ record ∈ kept, record ∈ recordsOf segments') →
      Kept mac clean ({ s with lock := none, returned := kept }.setPhase appender .idle) := by
    intro segments' tail' hstands hfile hreturned
    refine ⟨segments', tail', [], ?_⟩
    exact {
      holder := fun other => .inl (hidle other)
      stands := hstands
      file := by rw [append_nil]; exact hfile
      writer := fun other record rest hwriting => by rw [hidle other] at hwriting; cases hwriting
      resting := fun _ => rfl
      returned := hreturned }
  by_cases hwriting : ∃ own left, s.phase appender = .writing own left
  · obtain ⟨own, left, hown⟩ := hwriting
    obtain ⟨hcontinues, hline, htail⟩ := h.writer appender own left hown
    obtain ⟨segments', tail', hstands, hrender, hrecords, hended⟩ := h.stands.absorb hcontinues hline
    refine hafter hstands (h.file.trans hrender) fun hclean record hrecord => ?_
    rcases hkept record hrecord with hold | hnew
    · exact hrecords record (h.returned hclean record hold)
    · rw [hown] at hnew
      cases hnew
      exact hended rfl (htail hclean)
  · have hnone : written = [] := h.written_nil hlock fun record rest hown => hwriting ⟨record, rest, hown⟩
    refine hafter h.stands (by rw [h.file, hnone, append_nil]) fun hclean record hrecord => ?_
    rcases hkept record hrecord with hold | hnew
    · exact h.returned hclean record hold
    · exact absurd ⟨record, [], hnew⟩ hwriting

end

theorem Kept.step {event : Event Appender Number} (hkept : Kept mac clean s)
    (hstarts : clean → StartsLine s event t) (hstep : s.step mac event = some t) : Kept mac clean t := by
  obtain ⟨segments, tail, written, h⟩ := hkept
  cases event with
  | call appender frame flockFails =>
    simp only [Ledger.step] at hstep
    cases hphase : s.phase appender with
    | idle =>
      simp only [hphase] at hstep
      cases flockFails with
      | true =>
        cases hstep
        exact ⟨segments, tail, written, h⟩
      | false =>
        cases hlock : s.lock with
        | some other =>
          simp only [hlock] at hstep
          cases hstep
          exact ⟨segments, tail, written, h⟩
        | none =>
          simp only [hlock] at hstep
          cases hstep
          exact ⟨segments, tail, written, h.call hlock frame⟩
    | locked own => simp only [hphase] at hstep; cases hstep
    | writing own left => simp only [hphase] at hstep; cases hstep
  | read appender =>
    simp only [Ledger.step] at hstep
    cases hphase : s.phase appender with
    | idle => simp only [hphase] at hstep; cases hstep
    | locked own =>
      simp only [hphase] at hstep
      cases hstep
      exact ⟨segments, tail, [], h.read hphase hstarts⟩
    | writing own left => simp only [hphase] at hstep; cases hstep
  | write appender count =>
    simp only [Ledger.step] at hstep
    cases hphase : s.phase appender with
    | idle => simp only [hphase] at hstep; cases hstep
    | locked own => simp only [hphase] at hstep; cases hstep
    | writing own left =>
      simp only [hphase] at hstep
      cases hstep
      exact ⟨segments, tail, _, h.write hphase count⟩
  | finish appender =>
    simp only [Ledger.step] at hstep
    cases hphase : s.phase appender with
    | idle => simp only [hphase] at hstep; cases hstep
    | locked own => simp only [hphase] at hstep; cases hstep
    | writing own left =>
      cases left with
      | nil =>
        simp only [hphase] at hstep
        cases hstep
        refine h.stop (by rw [hphase]; exact nofun) fun record hrecord => ?_
        rcases mem_append.mp hrecord with hold | hnew
        · exact .inl hold
        · exact .inr (mem_singleton.mp hnew ▸ hphase)
      | cons c left => simp only [hphase] at hstep; cases hstep
  | die appender =>
    have hdies : s.phase appender ≠ .idle ∧ ({ s with lock := none }.setPhase appender .idle) = t := by
      simp only [Ledger.step] at hstep
      cases hphase : s.phase appender with
      | idle => simp only [hphase] at hstep; cases hstep
      | locked own =>
        simp only [hphase] at hstep
        exact ⟨nofun, Option.some.inj hstep⟩
      | writing own left =>
        simp only [hphase] at hstep
        exact ⟨nofun, Option.some.inj hstep⟩
    obtain ⟨hphase, rfl⟩ := hdies
    exact h.stop hphase fun record hrecord => .inl hrecord

/-- The file verifies; where no append has started on an open line, returned records are found. -/
theorem appends_consistent [DecidableEq Number] (mac : Mac) (lower : Text → Text) (events : List (Event Appender Number))
    (s : Ledger Appender Number) (hrun : Run.run (step mac) empty events = some s) :
    verifyChain mac (iterLedgerRows s.file : List (Row Number)) = true ∧
      (Run.Throughout (step mac) StartsLine empty events →
        ∀ record ∈ s.returned, ∀ query : Query, query.matchesRow lower record.runId record.row = true →
          wireEvidenceFor Number mac lower s.file record.runId query = true) := by
  constructor
  · have hkeeps : ∀ (s : Ledger Appender Number) event t, Kept mac False s → s.step mac event = some t →
        Kept mac False t := fun s event t hkept hstep => hkept.step (fun hfalse => hfalse.elim) hstep
    obtain ⟨segments, tail, written, h⟩ := Run.invariant hkeeps kept_empty hrun
    exact h.verifies
  · intro hthroughout record hrecord query hquery
    have hkeeps : ∀ (s : Ledger Appender Number) event t, Kept mac True s → StartsLine s event t →
        s.step mac event = some t → Kept mac True t := fun s event t hkept hstarts hstep => hkept.step (fun _ => hstarts) hstep
    obtain ⟨segments, tail, written, h⟩ := hthroughout.invariant hkeeps kept_empty hrun
    exact h.finds trivial hrecord hquery

/-! ## A record appended to an open line -/

/-- A call that has the lock, reads, and puts down `count` characters of its line. -/
def begun (appender : Appender) (frame : Frame Number) (count : Nat) : List (Event Appender Number) :=
  [.call appender frame false, .read appender, .write appender count]

theorem run_begun (count : Nat) (hidle : s.phase appender = .idle) (hlock : s.lock = none)
    (hrecord : newRecord mac (iterLedgerRows s.file) frame = record) :
    ∃ t, Run.run (step mac) s (begun appender frame count) = some t ∧
      t.file = s.file ++ (record.toJsonLine ++ ['\n']).take count ∧
      t.phase appender = .writing record ((record.toJsonLine ++ ['\n']).drop count) ∧
      (∀ other, other ≠ appender → t.phase other = s.phase other) ∧ t.returned = s.returned := by
  subst hrecord
  let record := newRecord mac (iterLedgerRows s.file) frame
  let called : Ledger Appender Number := { s with lock := some appender }.setPhase appender (.locked frame)
  let reading : Ledger Appender Number := called.setPhase appender (.writing record (record.toJsonLine ++ ['\n']))
  let writing : Ledger Appender Number :=
    { reading with file := s.file ++ (record.toJsonLine ++ ['\n']).take count }.setPhase appender
      (.writing record ((record.toJsonLine ++ ['\n']).drop count))
  have hcall : s.step mac (.call appender frame false) = some called := by
    simp only [Ledger.step, hidle, hlock]
    rfl
  have hcalled : called.phase appender = .locked frame := setPhase_self _ _ _
  have hread : called.step mac (.read appender) = some reading := by
    simp only [Ledger.step, hcalled]
    rfl
  have hreading : reading.phase appender = .writing record (record.toJsonLine ++ ['\n']) := setPhase_self _ _ _
  have hwrite : reading.step mac (.write appender count) = some writing := by
    simp only [Ledger.step, hreading]
    rfl
  refine ⟨writing, ?_, rfl, setPhase_self _ _ _, fun other hother => ?_, rfl⟩
  · simp only [begun, Run.run, hcall, hread, hwrite, Option.bind_some]
  · rw [setPhase_other _ _ hother]
    exact (setPhase_other _ _ hother).trans (setPhase_other _ _ hother)

theorem run_killed (appender : Appender) (count : Nat) (hidle : s.phase appender = .idle) (hlock : s.lock = none)
    (hrecord : newRecord mac (iterLedgerRows s.file) frame = record) :
    ∃ t, Run.run (step mac) s (begun appender frame count ++ [.die appender]) = some t ∧
      t.file = s.file ++ (record.toJsonLine ++ ['\n']).take count ∧ t.lock = none ∧
      (∀ other, other ≠ appender → t.phase other = s.phase other) ∧ t.returned = s.returned := by
  obtain ⟨t, hrun, hfile, hphase, hothers, hreturned⟩ := run_begun count hidle hlock hrecord
  refine ⟨{ t with lock := none }.setPhase appender .idle, ?_, hfile, rfl, fun other hother => ?_, hreturned⟩
  · rw [Run.run_append, hrun]
    simp [Run.run, Ledger.step, hphase]
  · exact (setPhase_other _ _ hother).trans (hothers other hother)

theorem run_whole (appender : Appender) (hidle : s.phase appender = .idle) (hlock : s.lock = none)
    (hrecord : newRecord mac (iterLedgerRows s.file) frame = record) :
    ∃ t, Run.run (Ledger.step mac) s (begun appender frame (record.toJsonLine.length + 1) ++ [.finish appender]) = some t ∧
      t.file = s.file ++ (record.toJsonLine ++ ['\n']) ∧ t.lock = none ∧ t.returned = s.returned ++ [record] := by
  obtain ⟨t, hrun, hfile, hphase, hothers, hreturned⟩ :=
    run_begun (record.toJsonLine.length + 1) hidle hlock hrecord
  have hlength : (record.toJsonLine ++ ['\n']).length = record.toJsonLine.length + 1 := by simp
  rw [take_of_length_le hlength.le] at hfile
  rw [drop_of_length_le hlength.le] at hphase
  refine ⟨{ t with lock := none, returned := t.returned ++ [record] }.setPhase appender .idle, ?_, hfile, rfl,
    congrArg (· ++ [record]) hreturned⟩
  rw [Run.run_append, hrun]
  simp [Run.run, Ledger.step, hphase]

theorem throughout_of_no_read (events : List (Event Appender Number))
    (hevents : ∀ event ∈ events, ∀ appender, event ≠ .read appender) (s : Ledger Appender Number) :
    Run.Throughout (Ledger.step mac) StartsLine s events := by
  induction events generalizing s with
  | nil => trivial
  | cons event events ih =>
    obtain ⟨hevent, hrest⟩ := forall_mem_cons.mp hevents
    unfold Run.Throughout
    cases s.step mac event with
    | none => trivial
    | some next =>
      refine ⟨?_, ih hrest next⟩
      cases event with
      | read appender => exact absurd rfl (hevent appender)
      | _ => trivial

theorem throughout_begun (count : Nat) (hidle : s.phase appender = .idle) (hlock : s.lock = none) (hfile : s.file = []) :
    Run.Throughout (Ledger.step mac) StartsLine s (begun appender frame count ++ [.finish appender]) := by
  have hcall : s.step mac (.call appender frame false) = some ({ s with lock := some appender }.setPhase appender (.locked frame)) := by
    simp only [Ledger.step, hidle, hlock]
    rfl
  rw [begun, cons_append, cons_append, Run.Throughout, hcall]
  refine ⟨trivial, ?_⟩
  unfold Run.Throughout
  cases ({ s with lock := some appender }.setPhase appender (.locked frame)).step mac (.read appender) with
  | none => trivial
  | some next => exact ⟨.inl hfile, throughout_of_no_read _ (by simp) next⟩

omit [PyNumber Number] [DecidableEq Appender] in
theorem iterLedgerRows_of_torn {pieces : List Text} (hpieces : Pieces Number pieces) (htorn : Torn Number pieces) :
    (iterLedgerRows pieces.flatten : List (Row Number)) = [] ∧
      (iterLedgerRows (pieces.flatten ++ ['\n']) : List (Row Number)) = [] := by
  have hsound : (⟨pieces, none⟩ : Segment Number).Sound := ⟨hpieces, nofun, fun _ => htorn⟩
  have hopen := iterLedgerRows_render (fun _ h => absurd h not_mem_nil : ∀ segment ∈ ([] : List (Segment Number)), segment.Sound) hsound
  have hended := iterLedgerRows_render (forall_mem_singleton.mpr hsound) Segment.Sound.empty
  simp only [render, recordsOf, Segment.text, flatMap_nil, flatMap_cons, nil_append, append_nil,
    flatten_nil] at hopen hended
  exact ⟨hopen, hended⟩

theorem append_to_open_line [DecidableEq Number] (first second : Appender) (hne : second ≠ first) {count : Nat}
    {begins : Frame Number} {own : WireLedgerRecord Number} (hrecord : newRecord mac [] begins = record)
    (hown : newRecord mac [] frame = own) (hpositive : 0 < count) (hshort : count < record.toJsonLine.length) :
    ∃ t : Ledger Appender Number, Run.run (step mac) empty (begun first begins count ++ [.die first] ++
          (begun second frame (own.toJsonLine.length + 1) ++ [.finish second])) = some t ∧ own ∈ t.returned ∧
      ∀ (lower : Text → Text) (runId : Text) (query : Query), wireEvidenceFor Number mac lower t.file runId query = false := by
  obtain ⟨s, hkilled, hfile, hlock, hothers, -⟩ :=
    run_killed (s := (empty : Ledger Appender Number)) first count rfl rfl hrecord
  let begun' := record.toJsonLine.take count
  have hfront : begun' <+: record.toJsonLine := take_prefix _ _
  have hbegun : begun' ≠ [] := by
    apply ne_nil_of_length_pos
    rw [length_take]
    omega
  have hnot : ¬ Written Number begun' := by
    intro hwritten
    have hlength := congrArg List.length (hwritten.eq_of_prefix record.written hfront)
    rw [length_take] at hlength
    omega
  have hopen : s.file = [begun'].flatten := by
    rw [hfile, take_append_of_le_length hshort.le, flatten_cons, flatten_nil, append_nil]
    rfl
  have hpiece : Pieces Number [begun'] := forall_mem_singleton.mpr ⟨hbegun, _, record.written, hfront⟩
  have hnone : (iterLedgerRows s.file : List (Row Number)) = [] :=
    hopen ▸ (iterLedgerRows_of_torn hpiece (.inr ⟨begun', [], rfl, .inr hnot⟩)).1
  have hreads : newRecord mac (iterLedgerRows s.file) frame = own := by
    rw [hnone]
    exact hown
  obtain ⟨t, hwhole, hafter, -, hreturned⟩ :=
    run_whole second (hothers second hne) hlock hreads
  refine ⟨t, by rw [Run.run_append, hkilled]; exact hwhole, ?_, ?_⟩
  · rw [hreturned]
    exact mem_append_right _ (mem_singleton_self own)
  · intro lower runId query
    have hpieces : Pieces Number [begun', own.toJsonLine] := by
      refine forall_mem_cons.mpr ⟨hpiece begun' (mem_singleton_self _), forall_mem_singleton.mpr ?_⟩
      obtain ⟨c, rest, -, hstart⟩ := own.written.start
      exact ⟨hstart ▸ cons_ne_nil _ _, _, own.written, prefix_refl _⟩
    have hrows : (iterLedgerRows t.file : List (Row Number)) = [] := by
      have htorn := (iterLedgerRows_of_torn hpieces (.inr ⟨begun', _, rfl, .inl (cons_ne_nil _ _)⟩)).2
      rw [hafter, hopen]
      simpa using htorn
    rw [wireEvidenceFor, hrows]
    exact Bool.and_false _

end

/-! ## Runs of the sample frame -/

instance : Spelling Instant where
  word _ := "1700000000.5".toList
  ofWord text := if text = "1700000000.5".toList then some .first else none
  ofWord_word := fun _ => if_pos rfl
  ofWord_null := by decide
  word_ne_nil := fun _ => by decide
  word_bare := fun _ => all_eq_true.mp (by decide)

instance : DecidableEq Instant := fun ⟨⟩ ⟨⟩ => .isTrue rfl

def mediaRecord : WireLedgerRecord Instant := newRecord sampleMac [] mediaFrame

def wholeEvents : List (Event ℕ Instant) :=
  begun 0 mediaFrame (mediaRecord.toJsonLine.length + 1) ++ [.finish 0]

theorem appends_consistent_of_whole : ∃ s : Ledger ℕ Instant, Run.run (step sampleMac) empty wholeEvents = some s ∧
      wireEvidenceFor Instant sampleMac id s.file mediaRecord.runId ⟨none, none, none⟩ = true := by
  have hread : newRecord sampleMac (iterLedgerRows (empty : Ledger ℕ Instant).file) mediaFrame = mediaRecord := rfl
  obtain ⟨s, hrun, -, -, hreturned⟩ := run_whole 0 rfl rfl hread
  obtain ⟨-, hfinds⟩ := appends_consistent sampleMac id wholeEvents s hrun
  have hrecord : mediaRecord ∈ s.returned := by
    rw [hreturned]
    exact mem_append_right _ (mem_singleton_self mediaRecord)
  exact ⟨s, hrun, hfinds (throughout_begun _ rfl rfl rfl) mediaRecord hrecord ⟨none, none, none⟩ (by decide +kernel)⟩

/-- One appender is killed after its first character, and the next writes its line. -/
def tornEvents : List (Event ℕ Instant) :=
  begun 0 mediaFrame 1 ++ [.die 0] ++ (begun 1 mediaFrame (mediaRecord.toJsonLine.length + 1) ++ [.finish 1])

/-- The second append returns a record of its run, and the lookup for the run does not find it. -/
theorem returned_record_lost : ∃ s : Ledger ℕ Instant, Run.run (step sampleMac) empty tornEvents = some s ∧
      ∃ record ∈ s.returned, Query.matchesRow id ⟨none, none, none⟩ record.runId record.row = true ∧
        wireEvidenceFor Instant sampleMac id s.file record.runId ⟨none, none, none⟩ = false := by
  have hlong : 1 < mediaRecord.toJsonLine.length := by
    obtain ⟨c, rest, -, hstart⟩ := mediaRecord.written.start
    rw [hstart]
    simp
  have hread : newRecord sampleMac [] mediaFrame = mediaRecord := rfl
  obtain ⟨s, hrun, hreturned, hlost⟩ :=
    append_to_open_line 0 1 (by decide) hread hread Nat.one_pos hlong
  exact ⟨s, hrun, mediaRecord, hreturned, by decide +kernel, hlost _ _ _⟩

end RalphWorkflow.Mcp.WireLedger
