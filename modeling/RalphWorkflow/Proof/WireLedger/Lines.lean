import RalphWorkflow.Lib.JsonDumps
import RalphWorkflow.Mcp.WireLedger

/-! A line that is one record's text reads as that record; a line put together from beginnings of several, as torn writes
leave it, reads as no row. -/
namespace RalphWorkflow.Mcp.WireLedger
open Lib.Json List Lib.Text

variable {Number : Type}

/-! ## The text of a record -/

theorem Field.name_injective : Function.Injective Field.name := by
  intro one other
  cases one <;> cases other <;> first
    | (rename_i f g; cases f <;> cases g <;> decide)
    | (rename_i f; cases f <;> decide)
    | decide

theorem Field.name_start (field : Field) : ∃ c key, field.name = c :: key ∧ isBare c = true := by
  cases field <;> first
    | (rename_i f; cases f <;> exact ⟨_, _, rfl, rfl⟩)
    | exact ⟨_, _, rfl, rfl⟩

theorem sortedFields_nodup : sortedFields.Nodup := by decide

theorem Field.mem_sortedFields (field : Field) : field ∈ sortedFields := by
  cases field <;> first
    | (rename_i f; cases f <;> decide)
    | decide

theorem lookup_filterMap {α : Type} {fields : List Field} (hnodup : fields.Nodup) (entry : Field → Option α)
    {field : Field} (hfield : field ∈ fields) :
    (fields.filterMap fun own => (entry own).map (own.name, ·)).lookup field.name = entry field := by
  have habsent : ∀ {fields : List Field}, field ∉ fields →
      (fields.filterMap fun own => (entry own).map (own.name, ·)).lookup field.name = none := by
    intro fields hnot
    rw [lookup_eq_none_iff]
    intro pair hpair
    obtain ⟨own, hown, hentry⟩ := mem_filterMap.mp hpair
    obtain ⟨value, -, rfl⟩ := Option.map_eq_some_iff.mp hentry
    simp only [bne_iff_ne, ne_eq]
    exact fun hname => hnot (Field.name_injective hname ▸ hown)
  induction fields with
  | nil => exact absurd hfield not_mem_nil
  | cons own fields ih =>
    obtain ⟨hfresh, hnodup⟩ := nodup_cons.mp hnodup
    by_cases hown : own = field
    · subst hown
      cases hentry : entry own with
      | none => rw [filterMap_cons_none (by rw [hentry]; rfl), habsent hfresh]
      | some value =>
        rw [filterMap_cons_some (by rw [hentry]; rfl)]
        exact lookup_cons_self
    · have hrest := ih hnodup ((mem_cons.mp hfield).resolve_left (Ne.symm hown))
      cases hentry : entry own with
      | none => rw [filterMap_cons_none (by rw [hentry]; rfl), hrest]
      | some value =>
        have hname : (field.name == own.name) = false := by
          simpa using fun h => hown (Field.name_injective h).symm
        rw [filterMap_cons_some (by rw [hentry]; rfl), lookup_cons, hname]
        exact hrest

theorem WireLedgerRecord.rowOf_payload (record : WireLedgerRecord Number) : rowOf (toValues record.payload) = record.row := by
  funext field
  have hvalues : (toValues record.payload).reverse =
      sortedFields.reverse.filterMap fun own => ((record.entry own).map Scalar.toValue).map (own.name, ·) := by
    rw [toValues, payload, map_filterMap, ← filterMap_reverse]
    congr 1
    funext own
    cases record.entry own <;> rfl
  have hlookup := lookup_filterMap (nodup_reverse.mpr sortedFields_nodup)
    (fun own => (record.entry own).map Scalar.toValue) (mem_reverse.mpr field.mem_sortedFields)
  rw [rowOf, hvalues, hlookup]
  cases field with
  | toolName => cases htool : record.toolName <;> simp [entry, row, htool, Scalar.toValue, Value.ofOption]
  | optional field => cases hvalue : record.optional field <;> simp [entry, row, hvalue, Scalar.toValue, Value.ofOption]
  | _ => rfl

variable [Spelling Number]

theorem WireLedgerRecord.loads_toJsonLine (record : WireLedgerRecord Number) : (loads record.toJsonLine).map rowOf = some record.row := by
  rw [toJsonLine, loads_dumps, Option.map_some, record.rowOf_payload]

theorem WireLedgerRecord.written (record : WireLedgerRecord Number) : Written Number record.toJsonLine := by
  have hhmac : (Field.hmac.name, Scalar.str record.recordHmac) ∈ record.payload :=
    mem_filterMap.mpr ⟨.hmac, Field.mem_sortedFields .hmac, rfl⟩
  obtain ⟨first, rest, hpayload⟩ := exists_cons_of_ne_nil (ne_nil_of_mem hhmac)
  have hfirst : first ∈ record.payload := hpayload ▸ mem_cons_self
  obtain ⟨field, -, hentry⟩ := mem_filterMap.mp hfirst
  obtain ⟨value, -, rfl⟩ := Option.map_eq_some_iff.mp hentry
  obtain ⟨c, key, hname, hbare⟩ := field.name_start
  exact ⟨c, key, value, rest, hbare, by rw [toJsonLine, hpayload, hname]⟩

/-! ## Segments between line breaks -/

variable (Number) in
def Torn (pieces : List Text) : Prop :=
  pieces = [] ∨ ∃ piece rest, pieces = piece :: rest ∧ (rest ≠ [] ∨ ¬ Written Number piece)

variable (Number) in
/-- What stands between two line breaks, and the record it is when it is one. -/
structure Segment where
  pieces : List Text
  record : Option (WireLedgerRecord Number)

def Segment.text (segment : Segment Number) : Text := segment.pieces.flatten

structure Segment.Sound (segment : Segment Number) : Prop where
  pieces : Pieces Number segment.pieces
  whole : ∀ record, segment.record = some record → segment.pieces = [record.toJsonLine]
  torn : segment.record = none → Torn Number segment.pieces

omit [Spelling Number] in
theorem strip_eq {before after : Text} (hstart : ∃ rest, before ++ '{' :: after = '{' :: rest) :
    ∃ kept, kept <+: after ∧ strip (before ++ '{' :: after) = before ++ '{' :: kept := by
  refine ⟨(after.reverse.dropWhile isSpace).reverse, ?_, ?_⟩
  · have hfront := reverse_prefix.mpr (dropWhile_suffix isSpace (l := after.reverse))
    rwa [reverse_reverse] at hfront
  · obtain ⟨rest, hrest⟩ := hstart
    have hbrace : ¬ isSpace '{' = true := by decide
    have hfront : (before ++ '{' :: after).dropWhile isSpace = before ++ '{' :: after := by
      rw [hrest, dropWhile_cons_of_neg hbrace]
    have hback : (after.reverse ++ '{' :: before.reverse).dropWhile isSpace =
        after.reverse.dropWhile isSpace ++ '{' :: before.reverse := by
      rw [dropWhile_append, dropWhile_cons_of_neg hbrace]
      split_ifs with hempty
      · rw [isEmpty_iff.mp hempty, nil_append]
      · rfl
    rw [strip, hfront, reverse_append, reverse_cons, append_assoc, singleton_append, hback]
    simp

theorem WireLedgerRecord.strip_toJsonLine (record : WireLedgerRecord Number) : strip record.toJsonLine = record.toJsonLine := by
  obtain ⟨c, rest, -, hstart⟩ := record.written.start
  obtain ⟨body, hends⟩ := dumps_ends record.payload
  have hspace : ¬ isSpace '{' = true := by decide
  have hspace' : ¬ isSpace '}' = true := by decide
  have hends' : record.toJsonLine.reverse = '}' :: body.reverse := by
    rw [toJsonLine, hends, reverse_append, reverse_singleton, singleton_append]
  have hfront : record.toJsonLine.dropWhile isSpace = record.toJsonLine := by
    rw [hstart, dropWhile_cons_of_neg hspace]
  rw [strip, hfront, hends', dropWhile_cons_of_neg hspace', ← hends', reverse_reverse]

theorem lineRow_of_torn {pieces : List Text} (hpieces : Pieces Number pieces) (htorn : Torn Number pieces) :
    (lineRow pieces.flatten : Option (Row Number)) = none := by
  unfold lineRow
  rcases htorn with rfl | ⟨piece, rest, rfl, htorn⟩
  · rfl
  · have hbrace : ∀ own ∈ piece :: rest, ∃ body, own = '{' :: body := by
      intro own hown
      obtain ⟨hne, text, hwritten, hfront⟩ := hpieces own hown
      exact hwritten.prefix_cons hfront hne
    obtain ⟨first, hfirst⟩ := hbrace piece mem_cons_self
    obtain ⟨init, last, hsplit⟩ : ∃ init last, piece :: rest = init ++ [last] :=
      ⟨(piece :: rest).dropLast, (piece :: rest).getLast (cons_ne_nil _ _),
        (dropLast_append_getLast (cons_ne_nil _ _)).symm⟩
    have hlast : last ∈ piece :: rest := hsplit ▸ mem_append_right _ (mem_singleton_self last)
    obtain ⟨body, rfl⟩ := hbrace last hlast
    have hflatten : ∀ own : Text, (init ++ [own]).flatten = init.flatten ++ own := by simp
    have hstart : ∃ text, init.flatten ++ '{' :: body = '{' :: text := by
      rw [← hflatten, ← hsplit, hfirst]
      exact ⟨_, rfl⟩
    obtain ⟨kept, hkept, hstrip⟩ := strip_eq hstart
    rw [hsplit, hflatten, hstrip, ← hflatten, if_neg (by simp)]
    obtain ⟨-, text, hwritten, hfront⟩ := hpieces _ hlast
    have hshort : '{' :: kept <+: '{' :: body := cons_prefix_cons.mpr ⟨rfl, hkept⟩
    -- what is left of the last piece is the beginning of a record too
    have hpieces' : Pieces Number (init ++ ['{' :: kept]) := by
      intro own hown
      rcases mem_append.mp hown with hinit | hnew
      · exact hpieces own (hsplit ▸ mem_append_left _ hinit)
      · cases mem_singleton.mp hnew
        exact ⟨cons_ne_nil _ _, text, hwritten, hshort.trans hfront⟩
    cases init with
    | nil =>
      obtain ⟨rfl, rfl⟩ : piece = '{' :: body ∧ rest = [] := by simpa using hsplit
      have hnot : ¬ Written Number ('{' :: kept) := by
        intro hwhole
        have heq : '{' :: kept = text := hwhole.eq_of_prefix hwritten (hshort.trans hfront)
        have hbody : '{' :: body = text := hfront.eq_of_length_le (by rw [← heq]; exact hshort.length_le)
        exact htorn.elim (fun h => h rfl) (fun h => h (hbody ▸ hwritten))
      have hnone := loads_pieces [] hpieces' (.inr hnot)
      simp only [flatten_nil, append_nil] at hnone
      simp only [nil_append, flatten_cons, flatten_nil, append_nil, hnone, Option.map_none]
    | cons head init =>
      have hnone := loads_pieces (init ++ ['{' :: kept]) hpieces' (.inl (by simp))
      rw [cons_append, flatten_cons, hnone, Option.map_none]

theorem Segment.Sound.lineRow {segment : Segment Number} (hsound : segment.Sound) : lineRow segment.text = segment.record.map (·.row) := by
  cases hrecord : segment.record with
  | none => exact lineRow_of_torn hsound.pieces (hsound.torn hrecord)
  | some record =>
    have htext : segment.text = record.toJsonLine := by
      rw [text, hsound.whole record hrecord, flatten_cons, flatten_nil, append_nil]
    obtain ⟨c, rest, -, hstart⟩ := record.written.start
    have hne : record.toJsonLine ≠ [] := by rw [hstart]; exact cons_ne_nil _ _
    rw [htext, WireLedger.lineRow, record.strip_toJsonLine, if_neg hne, record.loads_toJsonLine]
    rfl

/-! ## The whole file -/

omit [Spelling Number] in
theorem isPrintable_lineBreak {c : Char} (hc : isPrintable c = true) : isLineBreak c = false ∧ c ≠ '\r' := by
  simp only [isPrintable, Bool.and_eq_true, decide_eq_true_eq] at hc
  constructor
  · simp only [isLineBreak, contains_eq_mem, mem_cons, not_mem_nil, or_false,
      decide_eq_false_iff_not]
    omega
  · rintro rfl
    exact absurd hc.1 (by decide)

omit [Spelling Number] in
theorem splitLinesFrom_printable {text : Text} (htext : text.all isPrintable = true) (line rest : Text) :
    splitLinesFrom line (text ++ rest) = splitLinesFrom (text.reverse ++ line) rest := by
  induction text generalizing line with
  | nil => rfl
  | cons c text ih =>
    rw [all_cons, Bool.and_eq_true] at htext
    obtain ⟨hbreak, hreturn⟩ := isPrintable_lineBreak htext.1
    have hstep : splitLinesFrom line (c :: (text ++ rest)) = splitLinesFrom (c :: line) (text ++ rest) := by
      rw [splitLinesFrom, if_neg (Bool.eq_false_iff.mp hbreak)]
      exact fun _ heq _ => hreturn heq
    rw [cons_append, hstep, ih htext.2, reverse_cons, append_assoc, singleton_append]

theorem Segment.Sound.printable {segment : Segment Number} (hsound : segment.Sound) : segment.text.all isPrintable = true := by
  rw [text, all_flatten]
  refine all_eq_true.mpr fun piece hpiece => ?_
  obtain ⟨-, text, ⟨c, key, scalar, rest, -, rfl⟩, hfront⟩ := hsound.pieces piece hpiece
  exact all_eq_true.mpr fun c hc => all_eq_true.mp (dumps_printable _) c (hfront.subset hc)

def render (segments : List (Segment Number)) (tail : Segment Number) : Text :=
  (segments.flatMap fun segment => segment.text ++ ['\n']) ++ tail.text

def recordsOf (segments : List (Segment Number)) : List (WireLedgerRecord Number) := segments.filterMap (·.record)

theorem iterLedgerRows_render {segments : List (Segment Number)} {tail : Segment Number}
    (hsegments : ∀ segment ∈ segments, segment.Sound) (htail : tail.Sound) :
    iterLedgerRows (render segments tail) = (recordsOf segments ++ tail.record.toList).map (·.row) := by
  induction segments with
  | nil =>
    have hlines : splitLinesFrom [] tail.text = if tail.text.isEmpty then [] else [tail.text] := by
      have hsplit := splitLinesFrom_printable htail.printable [] []
      rw [append_nil, append_nil] at hsplit
      rw [hsplit, splitLinesFrom, reverse_reverse, isEmpty_reverse]
    have hrow := htail.lineRow
    rw [render, flatMap_nil, nil_append, iterLedgerRows, hlines, recordsOf, filterMap_nil,
      nil_append]
    split_ifs with hempty
    · rw [isEmpty_iff.mp hempty] at hrow
      have hnone : tail.record = none := Option.map_eq_none_iff.mp hrow.symm
      rw [hnone]
      rfl
    · cases hrecord : tail.record with
      | none => rw [filterMap_cons_none (by rw [hrow, hrecord]; rfl)]; rfl
      | some record => rw [filterMap_cons_some (by rw [hrow, hrecord]; rfl)]; rfl
  | cons segment segments ih =>
    obtain ⟨hsegment, hrest⟩ := forall_mem_cons.mp hsegments
    have hlines : splitLinesFrom [] (render (segment :: segments) tail) =
        segment.text :: splitLinesFrom [] (render segments tail) := by
      have htext : render (segment :: segments) tail = segment.text ++ '\n' :: render segments tail := by
        simp [render]
      rw [htext, splitLinesFrom_printable hsegment.printable, append_nil, splitLinesFrom,
        if_pos (by decide), reverse_reverse]
      exact fun _ heq _ => absurd heq (by decide)
    have hrow := hsegment.lineRow
    have hafter := ih hrest
    rw [iterLedgerRows] at hafter
    rw [iterLedgerRows, hlines, recordsOf]
    cases hrecord : segment.record with
    | none =>
      rw [filterMap_cons_none (by rw [hrow, hrecord]; rfl), hafter,
        filterMap_cons_none (by rw [hrecord])]
      rfl
    | some record =>
      rw [filterMap_cons_some (by rw [hrow, hrecord]; rfl), hafter,
        filterMap_cons_some (by rw [hrecord])]
      rfl

end RalphWorkflow.Mcp.WireLedger
