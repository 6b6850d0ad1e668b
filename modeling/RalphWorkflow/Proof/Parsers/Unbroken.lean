import RalphWorkflow.Agents.Parsers.TextAccumulator

/-! What an accumulator emits and what it holds is what it was given, without some of the paragraph breaks. -/
namespace RalphWorkflow.Parsers
open List
open Lib.Json (Text)

/-- The first text is the second, without some of its paragraph breaks. -/
inductive Unbroken : Text → Text → Prop
  | nil : Unbroken [] []
  | keep (c : Char) {shown content : Text} : Unbroken shown content → Unbroken (c :: shown) (c :: content)
  | drop {shown content : Text} : Unbroken shown content → Unbroken shown ('\n' :: '\n' :: content)

namespace Unbroken

theorem refl (content : Text) : Unbroken content content := by
  induction content with
  | nil => exact .nil
  | cons c content ih => exact .keep c ih

theorem append {shown content shown' content' : Text} (h : Unbroken shown content) (h' : Unbroken shown' content') :
    Unbroken (shown ++ shown') (content ++ content') := by
  induction h with
  | nil => exact h'
  | keep c _ ih => exact .keep c ih
  | drop _ ih => exact .drop ih

theorem trans_or_newline {shown middle content : Text} (h : Unbroken middle content) :
    (Unbroken shown middle → Unbroken shown content) ∧ (∀ rest, middle = '\n' :: rest → Unbroken shown rest → Unbroken shown ('\n' :: content)) := by
  induction h generalizing shown with
  | nil => exact ⟨id, fun rest hrest => nomatch hrest⟩
  | keep c _ ih =>
    constructor
    · intro hshown
      cases hshown with
      | keep c hshown => exact .keep c (ih.1 hshown)
      | drop hshown => exact ih.2 _ rfl hshown
    · intro rest hrest hshown
      cases hrest
      exact .drop (ih.1 hshown)
  | drop _ ih => exact ⟨fun hshown => .drop (ih.1 hshown), fun rest hrest hshown => .drop (ih.2 rest hrest hshown)⟩

theorem trans {shown middle content : Text} (h : Unbroken shown middle) (h' : Unbroken middle content) : Unbroken shown content :=
  (trans_or_newline h').1 h

theorem length_le {shown content : Text} (h : Unbroken shown content) : shown.length ≤ content.length := by
  induction h with
  | nil => exact Nat.le_refl _
  | keep c _ ih => simpa using ih
  | drop _ ih => simp only [length_cons]; omega

theorem count_eq {shown content : Text} (h : Unbroken shown content) :
    ∃ breaks, content.count '\n' = shown.count '\n' + 2 * breaks ∧ ∀ c ≠ '\n', content.count c = shown.count c := by
  induction h with
  | nil => exact ⟨0, rfl, fun _ _ => rfl⟩
  | keep c _ ih =>
    obtain ⟨breaks, hnewlines, hothers⟩ := ih
    refine ⟨breaks, ?_, fun other hother => ?_⟩
    · simp only [count_cons, hnewlines]
      omega
    · simp only [count_cons, hothers other hother]
  | drop _ ih =>
    obtain ⟨breaks, hnewlines, hothers⟩ := ih
    refine ⟨breaks + 1, ?_, fun other hother => ?_⟩
    · simp only [count_cons, hnewlines, beq_self_eq_true, if_true]
      omega
    · have hbeq : ('\n' == other) = false := by simpa using Ne.symm hother
      simp only [count_cons, hbeq, hothers other hother, Bool.false_eq_true, if_false, Nat.add_zero]

theorem mem {shown content : Text} (h : Unbroken shown content) : ∀ c ∈ shown, c ∈ content := by
  induction h with
  | nil => exact fun _ hc => hc
  | keep c _ ih => exact fun other hother => (mem_cons.1 hother).elim (fun heq => heq ▸ mem_cons_self) fun hmem => mem_cons_of_mem _ (ih _ hmem)
  | drop _ ih => exact fun c hc => mem_cons_of_mem _ (mem_cons_of_mem _ (ih c hc))

theorem newlines (breaks : Nat) : Unbroken [] (List.replicate (2 * breaks) '\n') := by
  induction breaks with
  | zero => exact .nil
  | succ breaks ih => exact .drop ih

theorem append_self_iff (front content : Text) : Unbroken (front ++ content) content ↔ front = [] := by
  constructor
  · intro h
    have hlength := h.length_le
    rw [length_append] at hlength
    exact eq_nil_of_length_eq_zero (by omega)
  · rintro rfl
    exact refl content

theorem of_rest_iff {front rest content : Text} (h : Unbroken (front ++ rest) content) :
    Unbroken front content ↔ ∃ breaks, rest = List.replicate (2 * breaks) '\n' := by
  constructor
  · intro hfront
    obtain ⟨fewer, hfewer, hothers⟩ := h.count_eq
    obtain ⟨more, hmore, hothers'⟩ := hfront.count_eq
    have honly : ∀ c ∈ rest, c = '\n' := by
      intro c hc
      by_contra hne
      have hcount := hothers c hne
      rw [hothers' c hne, count_append] at hcount
      exact absurd (count_pos_iff.2 hc) (by omega)
    have hrest : rest = List.replicate rest.length '\n' := eq_replicate_iff.2 ⟨rfl, honly⟩
    have hcount : rest.count '\n' = rest.length := by
      rw [hrest, count_replicate_self, length_replicate]
    rw [hmore, count_append, hcount] at hfewer
    have heven : rest.length = 2 * (more - fewer) := by omega
    exact ⟨more - fewer, by rw [← heven, ← hrest]⟩
  · rintro ⟨breaks, rfl⟩
    have hdropped := (refl front).append (newlines breaks)
    rw [append_nil] at hdropped
    exact hdropped.trans h

end Unbroken

/-! ## Accumulators lose breaks only -/

theorem splitBreak_eq {text flushed remaining : Text} (h : splitBreak text = some (flushed, remaining)) :
    text = flushed ++ '\n' :: '\n' :: remaining := by
  induction text using splitBreak.induct generalizing flushed with
  | case1 rest =>
    rw [splitBreak] at h
    cases h
    rfl
  | case2 c rest hbreak ih =>
    rw [splitBreak.eq_2 _ _ hbreak] at h
    obtain ⟨⟨first, second⟩, hsplit, heq⟩ := Option.map_eq_some_iff.1 h
    cases heq
    rw [ih hsplit]
    rfl
  | case3 => cases h

theorem accumulate_unbroken (acc : TextAccumulator) (text : Text) (keep : Bool) :
    Unbroken ((acc.accumulate text keep).1.flatten ++ (acc.accumulate text keep).2.buffer) (acc.buffer ++ text) := by
  unfold TextAccumulator.accumulate
  by_cases hcap : maxRawLines < acc.rawLines + 1
  · simp only [hcap, if_true]
    simpa [TextAccumulator.takeParagraph, splitBreak] using Unbroken.refl (acc.buffer ++ text)
  · simp only [hcap, if_false, TextAccumulator.takeParagraph]
    cases hsplit : splitBreak (acc.buffer ++ text) with
    | none => simpa using Unbroken.refl (acc.buffer ++ text)
    | some parts =>
      have hwhole := splitBreak_eq hsplit
      have hshown : ((if parts.1.isEmpty then [] else [parts.1]) : List Text).flatten = parts.1 := by
        cases hempty : parts.1 <;> simp
      simp only [hshown]
      rw [hwhole]
      exact (Unbroken.refl parts.1).append (.drop (Unbroken.refl parts.2))

/-! ## Runs of newlines

Which texts are others without some of their paragraph breaks, read off the runs of newlines between the other characters: every run is
shorter by an even number.
-/

def letters (text : Text) : Text := text.filter (· ≠ '\n')

def runs : Text → Nat × List Nat
  | [] => (0, [])
  | c :: text => if c = '\n' then ((runs text).1 + 1, (runs text).2) else (0, (runs text).1 :: (runs text).2)

def Fits (shorter longer : Nat) : Prop := shorter ≤ longer ∧ shorter % 2 = longer % 2

theorem Fits.refl (n : Nat) : Fits n n := ⟨Nat.le_refl n, rfl⟩

variable {shown middle content : Text}

theorem Unbroken.runs_fit (h : Unbroken shown content) :
    letters shown = letters content ∧ Fits (runs shown).1 (runs content).1 ∧ List.Forall₂ Fits (runs shown).2 (runs content).2 := by
  induction h with
  | nil => exact ⟨rfl, Fits.refl 0, .nil⟩
  | @keep c shown content _ ih =>
    obtain ⟨hletters, hfirst, hrest⟩ := ih
    by_cases hc : c = '\n'
    · simp only [runs, hc, if_true, letters, filter_cons]
      refine ⟨hletters, ?_, hrest⟩
      unfold Fits at hfirst ⊢
      omega
    · have hkept : decide (c ≠ '\n') = true := by simpa using hc
      simp only [runs, hc, if_false, letters, filter_cons, hkept, if_true]
      exact ⟨congrArg _ hletters, Fits.refl 0, .cons hfirst hrest⟩
  | @drop shown content _ ih =>
    obtain ⟨hletters, hfirst, hrest⟩ := ih
    refine ⟨hletters, ?_, hrest⟩
    simp only [runs, if_true]
    unfold Fits at hfirst ⊢
    omega

theorem runs_pos (h : 0 < (runs content).1) : ∃ rest, content = '\n' :: rest := by
  cases content with
  | nil => exact absurd h (Nat.lt_irrefl 0)
  | cons c rest =>
    by_cases hc : c = '\n'
    · exact ⟨rest, by rw [hc]⟩
    · simp [runs, hc] at h

theorem Unbroken.of_runs_fit (hletters : letters shown = letters content) (hfirst : Fits (runs shown).1 (runs content).1)
    (hrest : List.Forall₂ Fits (runs shown).2 (runs content).2) : Unbroken shown content := by
  induction hlength : content.length using Nat.strongRecOn generalizing shown content with
  | _ n ih =>
    cases content with
    | nil =>
      cases shown with
      | nil => exact .nil
      | cons c shown =>
        by_cases hc : c = '\n'
        · simp only [runs, hc, if_true] at hfirst
          exact absurd hfirst.1 (by omega)
        · simp [letters, hc] at hletters
    | cons c content =>
      simp only [length_cons] at hlength
      by_cases hc : c = '\n'
      · subst hc
        by_cases hstart : 0 < (runs shown).1
        · obtain ⟨later, rfl⟩ := runs_pos hstart
          simp only [runs, if_true] at hfirst hrest
          refine .keep '\n' (ih content.length (by omega) hletters ?_ hrest rfl)
          unfold Fits at hfirst ⊢
          omega
        · simp only [runs, if_true] at hfirst hrest
          have hmore : 0 < (runs content).1 := by
            unfold Fits at hfirst
            omega
          obtain ⟨later, rfl⟩ := runs_pos hmore
          simp only [runs, if_true] at hfirst hrest
          simp only [length_cons] at hlength
          refine .drop (ih later.length (by omega) hletters ?_ hrest rfl)
          unfold Fits at hfirst ⊢
          omega
      · have hkept : decide (c ≠ '\n') = true := by simpa using hc
        simp only [runs, hc, if_false] at hfirst hrest
        cases shown with
        | nil => simp [letters, hc] at hletters
        | cons d shown =>
          by_cases hd : d = '\n'
          · simp only [runs, hd, if_true] at hfirst
            exact absurd hfirst.1 (by omega)
          · have hkept' : decide (d ≠ '\n') = true := by simpa using hd
            simp only [letters, filter_cons, hkept, hkept', if_true, List.cons.injEq] at hletters
            simp only [runs, hd, if_false] at hrest
            obtain ⟨rfl, hletters⟩ := hletters
            cases hrest with
            | cons hhead htail => exact .keep d (ih content.length (by omega) hletters hhead htail rfl)

/-! ## Texts in between -/

theorem runs_le_of_sublist (h : middle.Sublist content) (hletters : letters middle = letters content) :
    (runs middle).1 ≤ (runs content).1 ∧ List.Forall₂ (· ≤ ·) (runs middle).2 (runs content).2 := by
  induction h with
  | slnil => exact ⟨Nat.le_refl 0, .nil⟩
  | @cons middle content c hsub ih =>
    by_cases hc : c = '\n'
    · subst hc
      obtain ⟨hfirst, hrest⟩ := ih hletters
      simp only [runs, if_true]
      exact ⟨by omega, hrest⟩
    · have hlength := (hsub.filter (· ≠ '\n')).length_le
      have hsame := congrArg List.length hletters
      simp only [letters, filter_cons, decide_eq_true (show c ≠ '\n' from hc), if_true, length_cons] at hsame
      omega
  | @cons_cons middle content c _ ih =>
    by_cases hc : c = '\n'
    · subst hc
      obtain ⟨hfirst, hrest⟩ := ih hletters
      simp only [runs, if_true]
      exact ⟨by omega, hrest⟩
    · simp only [letters, filter_cons, decide_eq_true (show c ≠ '\n' from hc), if_true, List.cons.injEq, true_and] at hletters
      obtain ⟨hfirst, hrest⟩ := ih hletters
      simp only [runs, hc, if_false]
      exact ⟨Nat.le_refl 0, .cons hfirst hrest⟩

theorem fits_between {shortest shorter longer : List Nat} (h : List.Forall₂ Fits shortest shorter) (h' : List.Forall₂ Fits shortest longer)
    (hle : List.Forall₂ (· ≤ ·) shorter longer) : List.Forall₂ Fits shorter longer := by
  induction h generalizing longer with
  | nil =>
    cases h'
    exact .nil
  | cons hhead _ ih =>
    cases h' with
    | cons hhead' htail' =>
      cases hle with
      | cons hhead'' htail'' =>
        refine .cons ⟨hhead'', ?_⟩ (ih htail' htail'')
        rw [← hhead.2, ← hhead'.2]

theorem Unbroken.between (h : Unbroken shown middle) (h' : Unbroken shown content) (hsub : middle.Sublist content) : Unbroken middle content := by
  obtain ⟨hletters, hfirst, hrest⟩ := h.runs_fit
  obtain ⟨hletters', hfirst', hrest'⟩ := h'.runs_fit
  have hsame : letters middle = letters content := hletters.symm.trans hletters'
  obtain ⟨hle, hles⟩ := runs_le_of_sublist hsub hsame
  refine of_runs_fit hsame ⟨hle, ?_⟩ (fits_between hrest hrest' hles)
  rw [← hfirst.2, ← hfirst'.2]

/-! ## Newlines at the end -/

theorem Unbroken.reverse (h : Unbroken shown content) : Unbroken shown.reverse content.reverse := by
  induction h with
  | nil => exact .nil
  | keep c _ ih =>
    rw [reverse_cons, reverse_cons]
    exact ih.append (refl [c])
  | drop _ ih =>
    have hboth := ih.append (newlines 1)
    rw [append_nil] at hboth
    simpa using hboth

def trailing (text : Text) : Nat := (runs text.reverse).1

theorem runs_replicate (n : Nat) (text : Text) : runs (List.replicate n '\n' ++ text) = ((runs text).1 + n, (runs text).2) := by
  induction n with
  | zero => rfl
  | succ n ih =>
    rw [replicate_succ, cons_append, runs, if_pos rfl, ih]
    simp only [Prod.mk.injEq, and_true]
    omega

theorem Unbroken.append_newlines_iff (h : Unbroken shown content) (n : Nat) :
    Unbroken (shown ++ List.replicate n '\n') content ↔ n % 2 = 0 ∧ trailing shown + n ≤ trailing content := by
  obtain ⟨hletters, hfirst, hrest⟩ := h.reverse.runs_fit
  have hreverse : (shown ++ List.replicate n '\n').reverse = List.replicate n '\n' ++ shown.reverse := by
    rw [reverse_append, reverse_replicate]
  constructor
  · intro hmore
    have hfit := hmore.reverse.runs_fit.2.1
    rw [hreverse, runs_replicate] at hfit
    unfold Fits at hfirst hfit
    unfold trailing
    omega
  · rintro ⟨heven, hle⟩
    have hnone : letters (List.replicate n '\n' ++ shown.reverse) = letters content.reverse := by
      rw [← hletters]
      simp [letters, filter_append]
    have hmore : Unbroken (List.replicate n '\n' ++ shown.reverse) content.reverse := by
      refine of_runs_fit hnone ?_ ?_
      · rw [runs_replicate]
        unfold Fits at hfirst ⊢
        unfold trailing at hle
        omega
      · rw [runs_replicate]
        exact hrest
    have hback := hmore.reverse
    rw [← hreverse, reverse_reverse, reverse_reverse] at hback
    exact hback

theorem Unbroken.append_iff (h : Unbroken shown content) (again : Text) : Unbroken (shown ++ again) content ↔
      (∀ c ∈ again, c = '\n') ∧ again.length % 2 = 0 ∧ trailing shown + again.length ≤ trailing content := by
  have hnewlines : (∀ c ∈ again, c = '\n') → again = List.replicate again.length '\n' := fun hall => eq_replicate_iff.2 ⟨rfl, hall⟩
  constructor
  · intro hmore
    have hall : ∀ c ∈ again, c = '\n' := by
      have hlength := congrArg List.length (hmore.runs_fit.1.trans h.runs_fit.1.symm)
      rw [letters, filter_append, length_append, ← letters, ← letters] at hlength
      have hnone : letters again = [] := eq_nil_of_length_eq_zero (by omega)
      intro c hc
      simpa using filter_eq_nil_iff.1 hnone c hc
    rw [hnewlines hall, h.append_newlines_iff] at hmore
    exact ⟨hall, hmore⟩
  · rintro ⟨hall, hends⟩
    rw [hnewlines hall, h.append_newlines_iff]
    exact hends

end RalphWorkflow.Parsers
