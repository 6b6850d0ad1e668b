import RalphWorkflow.Mcp.TextEdits

/-! What a batch of edits leaves of the text around its anchor, a pair of line numbers that is looked up again in the edited text: its last line
reaches into the text after the original span as soon as an edit before has taken a line end away. -/
namespace RalphWorkflow.TextEdits
open List
open Lib.Text (isLineBreak)

/-! ## Matches -/

theorem findFrom_bounds {needle text : Text} {position found : Nat} (h : findFrom needle position text = some found) :
    position ≤ found ∧ found + needle.length ≤ position + text.length := by
  induction text generalizing position with
  | nil =>
    unfold findFrom at h
    by_cases hempty : needle.isEmpty = true
    · simp only [hempty, if_true, Option.some.injEq] at h
      have hlength : needle.length = 0 := by simpa using hempty
      simp only [length_nil]
      omega
    · simp [hempty] at h
  | cons c rest ih =>
    unfold findFrom at h
    by_cases hpre : needle.isPrefixOf (c :: rest) = true
    · simp only [hpre, if_true, Option.some.injEq] at h
      have hlength := ( isPrefixOf_iff_prefix.1 hpre).length_le
      omega
    · simp only [hpre, Bool.false_eq_true, if_false] at h
      have hrest := ih h
      simp only [length_cons]
      omega

variable {index matchIndex : Nat}

theorem locate_ok {anchor : TextEditAnchor} {current : Text} {edit : TextEdit}
    (h : locate anchor current index edit = .ok matchIndex) : matchIndex + edit.oldText.length ≤ current.length ∧
      (lineRangeToByteOffsets current anchor.startLine anchor.endLine).1 ≤ matchIndex ∧
      matchIndex + edit.oldText.length ≤ (lineRangeToByteOffsets current anchor.startLine anchor.endLine).2 := by
  unfold locate at h
  cases hfind : find current edit.oldText with
  | none => simp [hfind] at h
  | some found =>
    cases hcheck : checkAnchor current edit index anchor found with
    | some rejection => simp [hfind, hcheck] at h
    | none =>
      simp only [hfind, hcheck, Except.ok.injEq] at h
      subst h
      have hbounds := findFrom_bounds hfind
      refine ⟨by omega, ?_⟩
      unfold checkAnchor at hcheck
      generalize lineRangeToByteOffsets current anchor.startLine anchor.endLine = span at hcheck ⊢
      cases hstrategy : anchor.matchStrategy with
      | exact =>
        by_cases hout : found ≠ span.1 ∨ found + edit.oldText.length ≠ span.2
        · simp [hstrategy, hout] at hcheck
        · omega
      | withinTarget =>
        by_cases hout : found < span.1 ∨ span.2 < found + edit.oldText.length
        · simp [hstrategy, hout] at hcheck
        · omega
      | allInTarget =>
        have hfirst : occurrenceStarts edit.oldText current (current.length + 1) 0 =
            found :: occurrenceStarts edit.oldText current current.length (found + edit.oldText.length) := by
          have hsearch : findFrom edit.oldText 0 (current.drop 0) = some found := hfind
          rw [occurrenceStarts, hsearch]
        by_cases hout : found < span.1 ∨ span.2 < found + edit.oldText.length
        · rcases hout with hout | hout
          · simp [hstrategy, checkAllInTarget, hfirst, hout] at hcheck
          · simp [hstrategy, checkAllInTarget, hfirst, hout] at hcheck
        · omega

/-! ## Lines -/

theorem keepLinesFrom_flatten (line text : Text) : (keepLinesFrom line text).flatten = line.reverse ++ text := by
  induction line, text using keepLinesFrom.induct with
  | case1 line hempty => simp [keepLinesFrom, isEmpty_iff.1 hempty]
  | case2 line hempty => simp [keepLinesFrom, hempty]
  | case3 line rest ih => simp [keepLinesFrom, ih]
  | case4 line c rest hreturn hbreak ih =>
    rw [keepLinesFrom.eq_3 _ _ _ hreturn, if_pos hbreak, flatten_cons, ih]
    simp
  | case5 line c rest hreturn hbreak ih =>
    rw [keepLinesFrom.eq_3 _ _ _ hreturn, if_neg hbreak, ih]
    simp

theorem lengthOfLines_succ (count : Nat) (first : Text) (lines : List Text) :
    lengthOfLines (count + 1) (first :: lines) = first.length + lengthOfLines count lines := by
  simp [lengthOfLines]

theorem lengthOfLines_le (count : Nat) (lines : List Text) : lengthOfLines count lines ≤ lines.flatten.length := by
  induction lines generalizing count with
  | nil => simp [lengthOfLines]
  | cons first lines ih =>
    cases count with
    | zero => simp [lengthOfLines]
    | succ count =>
      have hrest := ih count
      rw [lengthOfLines_succ, flatten_cons, length_append]
      omega

theorem lengthOfLines_min (count : Nat) (lines : List Text) : lengthOfLines (min lines.length count) lines = lengthOfLines count lines := by
  unfold lengthOfLines
  congr 2
  rcases Nat.le_total lines.length count with hle | hle
  · rw [Nat.min_eq_left hle, take_length, take_of_length_le hle]
  · rw [Nat.min_eq_right hle]

theorem lengthOfLines_mono {count more : Nat} (h : count ≤ more) (lines : List Text) : lengthOfLines count lines ≤ lengthOfLines more lines := by
  induction lines generalizing count more with
  | nil => simp [lengthOfLines]
  | cons first lines ih =>
    cases count with
    | zero => simp [lengthOfLines]
    | succ count =>
      obtain ⟨more, rfl⟩ := Nat.exists_eq_add_of_le' h
      have hrest : lengthOfLines count lines ≤ lengthOfLines (more + count) lines := ih (by omega)
      rw [lengthOfLines_succ, ← Nat.add_assoc, lengthOfLines_succ]
      omega

theorem lengthOfLines_all {count : Nat} {lines : List Text} (h : lines.length ≤ count) : lengthOfLines count lines = lines.flatten.length := by
  unfold lengthOfLines
  rw [take_of_length_le h, length_flatten]

theorem le_lengthOfLines (line text : Text) (count : Nat) (hlines : count + 1 ≤ (keepLinesFrom line text).length) :
    line.length ≤ lengthOfLines (count + 1) (keepLinesFrom line text) := by
  induction line, text using keepLinesFrom.induct with
  | case1 line hempty => simp [keepLinesFrom, hempty] at hlines
  | case2 line hempty => simp [keepLinesFrom, hempty, lengthOfLines]
  | case3 line rest _ =>
    rw [keepLinesFrom, lengthOfLines_succ]
    simp only [length_reverse, length_cons]
    omega
  | case4 line c rest hreturn hbreak _ =>
    rw [keepLinesFrom.eq_3 _ _ _ hreturn, if_pos hbreak, lengthOfLines_succ]
    simp only [length_reverse, length_cons]
    omega
  | case5 line c rest hreturn hbreak ih =>
    rw [keepLinesFrom.eq_3 _ _ _ hreturn, if_neg hbreak] at hlines ⊢
    have hline := ih hlines
    simp only [length_cons] at hline
    omega

theorem lengthOfLines_stable (line text : Text) (count : Nat) (hcount : count < (keepLinesFrom line text).length) (rest : Text) :
    lengthOfLines count (keepLinesFrom line text) ≤
      lengthOfLines count (keepLinesFrom line (text.take (lengthOfLines count (keepLinesFrom line text) - line.length) ++ rest)) := by
  cases count with
  | zero => simp [lengthOfLines]
  | succ count =>
    induction line, text using keepLinesFrom.induct generalizing count with
    | case1 line hempty => simp [keepLinesFrom, hempty] at hcount
    | case2 line hempty => simp [keepLinesFrom, hempty] at hcount
    | case3 line text ih =>
      rw [keepLinesFrom] at hcount ⊢
      rw [lengthOfLines_succ]
      have hlength : ('\n' :: '\r' :: line).reverse.length = line.length + 2 := by simp
      have htake : ∀ m, List.take (('\n' :: '\r' :: line).reverse.length + m - line.length) ('\r' :: '\n' :: text) = '\r' :: '\n' :: text.take m := by
        intro m
        have hm : ('\n' :: '\r' :: line).reverse.length + m - line.length = m + 2 := by omega
        rw [hm]
        rfl
      rw [htake, cons_append, cons_append, keepLinesFrom, lengthOfLines_succ]
      refine Nat.add_le_add_left ?_ _
      cases count with
      | zero => simp [lengthOfLines]
      | succ count =>
        have hnext := ih count (by simpa using hcount)
        simpa using hnext
    | case4 line c text hreturn hbreak ih =>
      rw [keepLinesFrom.eq_3 _ _ _ hreturn, if_pos hbreak] at hcount ⊢
      rw [lengthOfLines_succ]
      have hlength : (c :: line).reverse.length = line.length + 1 := by simp
      have htake : ∀ m, List.take ((c :: line).reverse.length + m - line.length) (c :: text) = c :: text.take m := by
        intro m
        have hm : (c :: line).reverse.length + m - line.length = m + 1 := by omega
        rw [hm]
        rfl
      rw [htake, cons_append]
      by_cases hjoin : ∃ tail, c = '\r' ∧ text.take (lengthOfLines count (keepLinesFrom [] text)) ++ rest = '\n' :: tail
      · -- the rest begins with the line feed of a carriage return: it is taken into the line, and the lines so far end there
        obtain ⟨tail, rfl, htail⟩ := hjoin
        have hnone : lengthOfLines count (keepLinesFrom [] text) = 0 := by
          by_contra hsome
          cases text with
          | nil => simp [keepLinesFrom, lengthOfLines] at hsome
          | cons d text =>
            obtain ⟨k, hk⟩ := Nat.exists_eq_succ_of_ne_zero hsome
            rw [hk] at htail
            simp only [take_succ_cons, cons_append, List.cons.injEq] at htail
            exact hreturn text rfl (by rw [htail.1])
        rw [htail, keepLinesFrom, lengthOfLines_succ, hnone]
        simp
        omega
      · rw [keepLinesFrom.eq_3, if_pos hbreak, lengthOfLines_succ]
        · refine Nat.add_le_add_left ?_ _
          cases count with
          | zero => simp [lengthOfLines]
          | succ count =>
            have hnext := ih count (by simpa using hcount)
            simpa using hnext
        · intro tail hc htail
          exact hjoin ⟨tail, hc, htail⟩
    | case5 line c text hreturn hbreak ih =>
      rw [keepLinesFrom.eq_3 _ _ _ hreturn, if_neg hbreak] at hcount ⊢
      have hline := le_lengthOfLines (c :: line) text count (by omega)
      simp only [length_cons] at hline
      generalize hp : lengthOfLines (count + 1) (keepLinesFrom (c :: line) text) = p at hline ⊢
      have htake : List.take (p - line.length) (c :: text) = c :: text.take (p - (c :: line).length) := by
        have hm : p - line.length = p - (c :: line).length + 1 := by simp only [length_cons]; omega
        rw [hm]
        rfl
      have hnotReturn : c ≠ '\r' := by
        rintro rfl
        exact hbreak (by decide)
      rw [htake, cons_append, keepLinesFrom.eq_3 _ _ _ (fun _ hc => absurd hc hnotReturn), if_neg hbreak]
      have hnext := ih count hcount
      rwa [hp] at hnext

theorem span_fst (text : Text) (startLine endLine : Int) :
    (lineRangeToByteOffsets text startLine endLine).1 = lengthOfLines (startLine - 1).toNat (splitLinesKeepEnds text) := by
  have hindex : (max 0 (min ((splitLinesKeepEnds text).length : Int) (startLine - 1))).toNat =
      min (splitLinesKeepEnds text).length (startLine - 1).toNat := by omega
  simp only [lineRangeToByteOffsets, hindex, lengthOfLines_min]

theorem flatten_splitLinesKeepEnds (text : Text) : (splitLinesKeepEnds text).flatten = text := keepLinesFrom_flatten [] text

theorem span_fst_stable {text : Text} {startLine : Int} (endLine : Int) (hlines : (startLine - 1).toNat < (splitLinesKeepEnds text).length) (rest : Text) :
    (lineRangeToByteOffsets text startLine endLine).1 ≤
      (lineRangeToByteOffsets (text.take (lineRangeToByteOffsets text startLine endLine).1 ++ rest) startLine endLine).1 := by
  have hstable := lengthOfLines_stable [] text (startLine - 1).toNat hlines rest
  rw [span_fst, span_fst]
  simpa [splitLinesKeepEnds] using hstable

theorem lines_of_located {anchor : TextEditAnchor} {current : Text} {edit : TextEdit}
    (h : locate anchor current index edit = .ok matchIndex) : (anchor.startLine - 1).toNat < (splitLinesKeepEnds current).length := by
  by_contra hbehind
  obtain ⟨hinside, hstart, -⟩ := locate_ok h
  have hold := length_pos_iff.2 edit.oldText_ne
  rw [span_fst, lengthOfLines_all (by omega), flatten_splitLinesKeepEnds] at hstart
  omega

/-! ## Marked characters -/

abbrev Marked := List (Char × Bool)

def plain (marked : Marked) : Text := marked.map Prod.fst

def outside (marked : Marked) : Text := (marked.filter Prod.snd).map Prod.fst

def frame (before middle after : Text) : Marked :=
  before.map (·, true) ++ middle.map (·, false) ++ after.map (·, true)

def mark (text : Text) (span : Nat × Nat) : Marked :=
  frame (text.take span.1) ((text.take span.2).drop span.1) (text.drop span.2)

def markedFrom (anchor : TextEditAnchor) (marked : Marked) (index : Nat) : List TextEdit → Option Marked
  | [] => some marked
  | edit :: edits =>
    match locate anchor (plain marked) index edit with
    | .error _ => none
    | .ok matchIndex =>
      markedFrom anchor (replaceAt marked matchIndex edit.oldText.length (edit.newText.map (·, false))) (index + 1) edits

theorem plain_frame (before middle after : Text) : plain (frame before middle after) = before ++ middle ++ after := by
  simp [plain, frame, Function.comp_def]

theorem outside_frame (before middle after : Text) : outside (frame before middle after) = before ++ after := by
  simp [outside, frame, filter_map, Function.comp_def]

theorem plain_replaceAt (marked : Marked) (matchIndex oldLength : Nat) (newText : Text) :
    plain (replaceAt marked matchIndex oldLength (newText.map (·, false))) = replaceAt (plain marked) matchIndex oldLength newText := by
  simp [plain, replaceAt, Function.comp_def]

theorem length_outside (marked : Marked) : (outside marked).length = marked.countP Prod.snd := by
  rw [outside, length_map, countP_eq_length_filter]

theorem applyFrom_plain (anchor : TextEditAnchor) (marked : Marked) (index : Nat) (edits : List TextEdit) (content : Text) :
    applyFrom anchor (plain marked) index edits = .ok content ↔
      ∃ final, markedFrom anchor marked index edits = some final ∧ plain final = content := by
  induction edits generalizing marked index with
  | nil => simp [applyFrom, markedFrom]
  | cons edit edits ih =>
    unfold applyFrom markedFrom
    cases hlocate : locate anchor (plain marked) index edit with
    | error rejection => simp
    | ok matchIndex => simpa only [plain_replaceAt] using ih (replaceAt marked matchIndex edit.oldText.length (edit.newText.map (·, false))) (index + 1)

/-! ## One edit -/

theorem countP_replaceAt_le (marked : Marked) (matchIndex oldLength : Nat) (newText : Text) :
    (replaceAt marked matchIndex oldLength (newText.map (·, false))).countP Prod.snd +
      ((marked.drop matchIndex).take oldLength).countP Prod.snd = marked.countP Prod.snd := by
  have hnew : (newText.map fun c => (c, false)).countP Prod.snd = 0 := by simp [countP_map, Function.comp_def]
  have hsplit : marked.countP Prod.snd = (marked.take matchIndex).countP Prod.snd +
      (((marked.drop matchIndex).take oldLength).countP Prod.snd + (marked.drop (matchIndex + oldLength)).countP Prod.snd) := by
    rw [← countP_append, ← drop_drop, take_append_drop, ← countP_append, take_append_drop]
  rw [replaceAt, countP_append, countP_append, hnew, hsplit]
  omega

theorem replaceAt_frame (before middle after newText : Text) {oldLength : Nat} (hbefore : before.length ≤ matchIndex)
    (hafter : matchIndex + oldLength + after.length ≤ (before ++ middle ++ after).length) :
    replaceAt (frame before middle after) matchIndex oldLength (newText.map (·, false)) =
      frame before (replaceAt middle (matchIndex - before.length) oldLength newText) after := by
  obtain ⟨offset, rfl⟩ := Nat.exists_eq_add_of_le hbefore
  have hmiddle : offset + oldLength ≤ middle.length := by
    simp only [length_append] at hafter
    omega
  have htake : (frame before middle after).take (before.length + offset) = before.map (·, true) ++ (middle.take offset).map (·, false) := by
    rw [frame, append_assoc, take_append, take_append]
    have hshort : offset - middle.length = 0 := by omega
    simp [take_of_length_le, hshort, map_take]
  have hdrop : (frame before middle after).drop (before.length + offset + oldLength) =
      (middle.drop (offset + oldLength)).map (·, false) ++ after.map (·, true) := by
    rw [frame, append_assoc, drop_append, drop_append]
    have hlong : before.length + offset + oldLength - before.length = offset + oldLength := by omega
    have hzero : offset + oldLength - middle.length = 0 := by omega
    have hnone : before.length ≤ before.length + offset + oldLength := by omega
    simp [hlong, hzero, drop_eq_nil_of_le, hnone, map_drop]
  rw [replaceAt, htake, hdrop, frame, replaceAt]
  simp [map_append]

theorem countP_replaceAt_lt (before middle after newText : Text) {oldLength : Nat} (hold : 0 < oldLength)
    (hinside : matchIndex + oldLength ≤ (before ++ middle ++ after).length)
    (hafter : ¬ matchIndex + oldLength + after.length ≤ (before ++ middle ++ after).length) :
    (replaceAt (frame before middle after) matchIndex oldLength (newText.map (·, false))).countP Prod.snd < before.length + after.length := by
  have hlength : (frame before middle after).length = (before ++ middle ++ after).length := by simp [frame]
  have hcount : (frame before middle after).countP Prod.snd = before.length + after.length := by
    rw [← length_outside, outside_frame, length_append]
  have hlast : matchIndex + (oldLength - 1) < (frame before middle after).length := by omega
  have hmarked : (frame before middle after)[matchIndex + (oldLength - 1)].2 = true := by
    have hbehind : (before.map (·, true) ++ middle.map (·, false) : Marked).length ≤ matchIndex + (oldLength - 1) := by
      simp only [length_append, length_map] at hafter ⊢
      omega
    simp only [frame]
    rw [getElem_append_right hbehind, getElem_map]
  have htaken : 0 < (((frame before middle after).drop matchIndex).take oldLength).countP Prod.snd := by
    rw [countP_pos_iff]
    refine ⟨(frame before middle after)[matchIndex + (oldLength - 1)], ?_, hmarked⟩
    rw [mem_iff_getElem]
    refine ⟨oldLength - 1, by simp only [length_take, length_drop]; omega, ?_⟩
    rw [getElem_take, getElem_drop]
  have hsplit := countP_replaceAt_le (frame before middle after) matchIndex oldLength newText
  omega

/-! ## A batch -/

/-- Every edit, as far as they are let through, ends before what is left of the text after the span. -/
def Confined (anchor : TextEditAnchor) (after : Nat) (current : Text) (index : Nat) : List TextEdit → Prop
  | [] => True
  | edit :: edits => ∀ matchIndex, locate anchor current index edit = .ok matchIndex →
      matchIndex + edit.oldText.length + after ≤ current.length ∧
        Confined anchor after (replaceAt current matchIndex edit.oldText.length edit.newText) (index + 1) edits

theorem countP_markedFrom_le {anchor : TextEditAnchor} {marked final : Marked} {edits : List TextEdit}
    (h : markedFrom anchor marked index edits = some final) : final.countP Prod.snd ≤ marked.countP Prod.snd := by
  induction edits generalizing marked index with
  | nil =>
    cases h
    exact Nat.le_refl _
  | cons edit edits ih =>
    unfold markedFrom at h
    cases hlocate : locate anchor (plain marked) index edit with
    | error rejection => simp [hlocate] at h
    | ok matchIndex =>
      simp only [hlocate] at h
      have hrest := ih h
      have hsplit := countP_replaceAt_le marked matchIndex edit.oldText.length edit.newText
      omega

theorem markedFrom_frame {anchor : TextEditAnchor} {before after : Text}
    (hstart : ∀ rest, before.length ≤ (lineRangeToByteOffsets (before ++ rest) anchor.startLine anchor.endLine).1) {edits : List TextEdit}
    {middle : Text} {final : Marked} (h : markedFrom anchor (frame before middle after) index edits = some final) :
    Confined anchor after.length (before ++ middle ++ after) index edits ∧ (∃ rewritten, final = frame before rewritten after) ∨
      ¬ Confined anchor after.length (before ++ middle ++ after) index edits ∧ final.countP Prod.snd < before.length + after.length := by
  induction edits generalizing middle index with
  | nil =>
    cases h
    exact .inl ⟨trivial, middle, rfl⟩
  | cons edit edits ih =>
    unfold markedFrom at h
    rw [plain_frame] at h
    cases hlocate : locate anchor (before ++ middle ++ after) index edit with
    | error rejection =>
      rw [hlocate] at h
      cases h
    | ok matchIndex =>
      rw [hlocate] at h
      replace h : markedFrom anchor (replaceAt (frame before middle after) matchIndex edit.oldText.length (edit.newText.map (·, false)))
          (index + 1) edits = some final := h
      obtain ⟨hinside, hspan, -⟩ := locate_ok hlocate
      have hbefore : before.length ≤ matchIndex := by
        have hfirst := hstart (middle ++ after)
        rw [← append_assoc] at hfirst
        omega
      have hconfined : Confined anchor after.length (before ++ middle ++ after) index (edit :: edits) ↔
          matchIndex + edit.oldText.length + after.length ≤ (before ++ middle ++ after).length ∧
            Confined anchor after.length (replaceAt (before ++ middle ++ after) matchIndex edit.oldText.length edit.newText) (index + 1) edits := by
        constructor
        · intro hall
          exact hall matchIndex hlocate
        · intro hthis other hother
          rw [hlocate] at hother
          cases hother
          exact hthis
      by_cases hafter : matchIndex + edit.oldText.length + after.length ≤ (before ++ middle ++ after).length
      · have hframe := replaceAt_frame before middle after edit.newText hbefore hafter
        have hplain : replaceAt (before ++ middle ++ after) matchIndex edit.oldText.length edit.newText =
            before ++ replaceAt middle (matchIndex - before.length) edit.oldText.length edit.newText ++ after := by
          rw [← plain_frame, ← plain_replaceAt, hframe, plain_frame]
        rw [hframe] at h
        rw [hconfined, hplain]
        simpa only [hafter, true_and] using ih h
      · have hless := countP_replaceAt_lt before middle after edit.newText (length_pos_iff.2 edit.oldText_ne) hinside hafter
        have hrest := countP_markedFrom_le h
        refine .inr ⟨fun hall => hafter (hconfined.1 hall).1, by omega⟩

/-! ## The original span -/

section Span

variable (original : Text) (edits : List TextEdit) (anchor : TextEditAnchor)

def originalSpan : Nat × Nat := lineRangeToByteOffsets original anchor.startLine anchor.endLine

/-- The result is the text before the anchor, a middle and the text after; a rejected batch writes nothing. -/
structure StaysInside : Prop where
  outside : ∀ final, markedFrom anchor (mark original (originalSpan original anchor)) 0 edits = some final →
    outside final = original.take (originalSpan original anchor).1 ++ original.drop (originalSpan original anchor).2
  shape : ∀ content, applyTextEdits original edits anchor = .ok content →
    ∃ middle, content = original.take (originalSpan original anchor).1 ++ middle ++ original.drop (originalSpan original anchor).2
  atomic : ∀ rejection, applyTextEdits original edits anchor = .error rejection → written original edits anchor = original

theorem span_ordered : (originalSpan original anchor).1 ≤ (originalSpan original anchor).2 := by
  unfold originalSpan lineRangeToByteOffsets
  have hle : (max 0 (min ((splitLinesKeepEnds original).length : Int) (anchor.startLine - 1))).toNat ≤
      (max (max 0 (min ((splitLinesKeepEnds original).length : Int) (anchor.startLine - 1)))
        (min ((splitLinesKeepEnds original).length : Int) anchor.endLine)).toNat := by omega
  exact lengthOfLines_mono hle _

theorem span_le_length : (originalSpan original anchor).1 ≤ original.length := by
  have hle := lengthOfLines_le (anchor.startLine - 1).toNat (splitLinesKeepEnds original)
  rw [originalSpan, span_fst]
  rwa [flatten_splitLinesKeepEnds] at hle

theorem plain_mark : plain (mark original (originalSpan original anchor)) = original := by
  have hordered := span_ordered original anchor
  rw [mark, plain_frame]
  have htake : original.take (originalSpan original anchor).1 = (original.take (originalSpan original anchor).2).take (originalSpan original anchor).1 := by
    rw [take_take, Nat.min_eq_left hordered]
  rw [htake, take_append_drop, take_append_drop]

/-- A batch stays inside exactly when it is rejected, or no edit reaches past what is left of the span. -/
theorem staysInside_iff (original : Text) (edits : List TextEdit) (anchor : TextEditAnchor) : StaysInside original edits anchor ↔
      ∀ content, applyTextEdits original edits anchor = .ok content →
        Confined anchor (original.drop (originalSpan original anchor).2).length original 0 edits := by
  have hplain := plain_mark original anchor
  have hsplit : original.take (originalSpan original anchor).1 ++ (original.take (originalSpan original anchor).2).drop (originalSpan original anchor).1 ++
      original.drop (originalSpan original anchor).2 = original := by
    rw [← plain_frame]
    exact hplain
  have hrun : ∀ content, applyTextEdits original edits anchor = .ok content ↔
      ∃ final, markedFrom anchor (mark original (originalSpan original anchor)) 0 edits = some final ∧ plain final = content := by
    intro content
    rw [← applyFrom_plain, hplain]
    rfl
  have hcases : ∀ final, markedFrom anchor (mark original (originalSpan original anchor)) 0 edits = some final →
      Confined anchor (original.drop (originalSpan original anchor).2).length original 0 edits ∧
        (∃ rewritten, final = frame (original.take (originalSpan original anchor).1) rewritten (original.drop (originalSpan original anchor).2)) ∨
      ¬ Confined anchor (original.drop (originalSpan original anchor).2).length original 0 edits ∧
        final.countP Prod.snd < (original.take (originalSpan original anchor).1).length + (original.drop (originalSpan original anchor).2).length := by
    intro final hfinal
    cases edits with
    | nil =>
      cases hfinal
      exact .inl ⟨trivial, _, rfl⟩
    | cons edit edits =>
      -- an edit that is let through has the anchor begin within the text
      have hlines : (anchor.startLine - 1).toNat < (splitLinesKeepEnds original).length := by
        unfold markedFrom at hfinal
        rw [hplain] at hfinal
        cases hlocate : locate anchor original 0 edit with
        | error rejection => simp [hlocate] at hfinal
        | ok matchIndex => exact lines_of_located hlocate
      have hstart : ∀ rest, (original.take (originalSpan original anchor).1).length ≤
          (lineRangeToByteOffsets (original.take (originalSpan original anchor).1 ++ rest) anchor.startLine anchor.endLine).1 := by
        intro rest
        have hstable := span_fst_stable anchor.endLine hlines rest
        rw [length_take_of_le (span_le_length original anchor)]
        exact hstable
      have hframe := markedFrom_frame hstart hfinal
      rwa [hsplit] at hframe
  constructor
  · intro h content hcontent
    obtain ⟨final, hfinal, -⟩ := (hrun content).1 hcontent
    rcases hcases final hfinal with ⟨hconfined, -⟩ | ⟨-, hless⟩
    · exact hconfined
    · have hlength := length_outside final
      rw [h.outside final hfinal, length_append] at hlength
      omega
  · intro h
    refine ⟨fun final hfinal => ?_, fun content hcontent => ?_, fun rejection hrejected => ?_⟩
    · rcases hcases final hfinal with ⟨-, rewritten, rfl⟩ | ⟨hloose, -⟩
      · exact outside_frame _ _ _
      · exact absurd (h (plain final) ((hrun _).2 ⟨final, hfinal, rfl⟩)) hloose
    · obtain ⟨final, hfinal, rfl⟩ := (hrun content).1 hcontent
      rcases hcases final hfinal with ⟨-, rewritten, rfl⟩ | ⟨hloose, -⟩
      · exact ⟨rewritten, plain_frame _ _ _⟩
      · exact absurd (h _ hcontent) hloose
    · simp only [written, hrejected]

end Span

def threeLines : Text := "a\nb\nc\n".toList

def secondLine : TextEditAnchor := { startLine := 2, endLine := 2, matchStrategy := .withinTarget }

/-- The line end of the second line goes, and then a word of what follows it. -/
def drifting : List TextEdit :=
  [{ oldText := "b\n".toList, newText := "b".toList, oldText_ne := by decide }, { oldText := "c".toList, newText := "X".toList, oldText_ne := by decide }]

/-- The third line is rewritten. -/
theorem edit_drifts_outside : ¬ StaysInside threeLines drifting secondLine := by
  intro h
  have hcontent : applyTextEdits threeLines drifting secondLine = .ok "a\nbX\n".toList := by decide
  obtain ⟨middle, hmiddle⟩ := h.shape _ hcontent
  have hspan : originalSpan threeLines secondLine = (2, 4) := by decide
  have hsuffix : "c\n".toList <:+ "a\nbX\n".toList := by
    rw [hmiddle, hspan]
    exact ⟨_, rfl⟩
  exact absurd hsuffix (by decide)

end RalphWorkflow.TextEdits
