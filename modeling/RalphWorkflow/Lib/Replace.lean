import Mathlib.Data.List.Basic

/-! A text is gone through from the left, and what begins a match is replaced: `re.sub` with a pattern that matches no empty text, and every other
scan that goes on behind what it has taken. -/
namespace RalphWorkflow.Lib.Replace
open List

variable {α : Type} (find : List α → Option (List α × List α))

/-- `find` gives what replaces a match and what follows it; `skip` characters are still to pass. -/
def replaceFrom : Nat → List α → List α
  | _, [] => []
  | skip + 1, _ :: text => replaceFrom skip text
  | 0, c :: text =>
    match find (c :: text) with
    | none => c :: replaceFrom 0 text
    | some (new, rest) => new ++ replaceFrom (text.length - rest.length) text

def replaceAll (text : List α) : List α := replaceFrom find 0 text

def Consumes : Prop := ∀ text new rest, find text = some (new, rest) → ∃ c used, text = c :: (used ++ rest)

inductive Reaches : List α → List α → Prop
  | here (text : List α) : Reaches text text
  | pass {c : α} {text later : List α} : find (c :: text) = none → Reaches text later → Reaches (c :: text) later
  | jump {text new rest later : List α} : find text = some (new, rest) → Reaches rest later → Reaches text later

variable {find}

theorem replaceFrom_drop (skip : Nat) (text : List α) : replaceFrom find skip text = replaceAll find (text.drop skip) := by
  induction text generalizing skip with
  | nil => cases skip <;> rfl
  | cons c text ih =>
    cases skip with
    | zero => rfl
    | succ skip => rw [replaceFrom, ih, drop_succ_cons]

theorem replaceAll_pass {c : α} {text : List α} (h : find (c :: text) = none) : replaceAll find (c :: text) = c :: replaceAll find text := by
  rw [replaceAll, replaceFrom, h, replaceAll]

theorem replaceAll_match (hconsumes : Consumes find) {text new rest : List α} (h : find text = some (new, rest)) :
    replaceAll find text = new ++ replaceAll find rest := by
  obtain ⟨c, used, rfl⟩ := hconsumes text new rest h
  rw [replaceAll, replaceFrom, h]
  dsimp only
  rw [replaceFrom_drop, length_append, Nat.add_sub_cancel, drop_left' rfl]

/-- Two texts with the same matches and the same text between them come out the same in front. -/
theorem replaceAll_agree (hconsumes : Consumes find) (Alike Done : List α → List α → Prop)
    (hstep : ∀ text other, Alike text other → Done text other ∨
      (∃ c rest rest', text = c :: rest ∧ other = c :: rest' ∧ find text = none ∧ find other = none ∧ Alike rest rest') ∨
      ∃ new rest rest', find text = some (new, rest) ∧ find other = some (new, rest') ∧ Alike rest rest')
    {text other : List α} (h : Alike text other) :
    ∃ new rest rest', Done rest rest' ∧ Reaches find text rest ∧ replaceAll find text = new ++ replaceAll find rest ∧
      replaceAll find other = new ++ replaceAll find rest' := by
  induction hlength : text.length using Nat.strongRecOn generalizing text other with
  | _ n ih =>
    rcases hstep text other h with hdone | ⟨c, rest, rest', rfl, rfl, hnone, hnone', hrest⟩ | ⟨new, rest, rest', hfind, hfind', hrest⟩
    · exact ⟨[], text, other, hdone, .here text, rfl, rfl⟩
    · obtain ⟨new, last, last', hdone, hreaches, hout, hout'⟩ := ih rest.length (by rw [← hlength]; exact Nat.lt_succ_self _) hrest rfl
      exact ⟨c :: new, last, last', hdone, .pass hnone hreaches, by rw [replaceAll_pass hnone, hout]; rfl, by rw [replaceAll_pass hnone', hout']; rfl⟩
    · obtain ⟨c, used, hused⟩ := hconsumes text new rest hfind
      have hshorter : rest.length < n := by
        rw [← hlength, hused, length_cons, length_append]
        omega
      obtain ⟨later, last, last', hdone, hreaches, hout, hout'⟩ := ih rest.length hshorter hrest rfl
      refine ⟨new ++ later, last, last', hdone, .jump hfind hreaches, ?_, ?_⟩
      · rw [replaceAll_match hconsumes hfind, hout, append_assoc]
      · rw [replaceAll_match hconsumes hfind', hout', append_assoc]

theorem Reaches.cons {c : α} {text later : List α} (h : Reaches find (c :: text) later) :
    later = c :: text ∨ find (c :: text) = none ∧ Reaches find text later ∨ ∃ new rest, find (c :: text) = some (new, rest) ∧ Reaches find rest later := by
  cases h with
  | here => exact .inl rfl
  | pass hnone hlater => exact .inr (.inl ⟨hnone, hlater⟩)
  | jump hfind hlater => exact .inr (.inr ⟨_, _, hfind, hlater⟩)

theorem Reaches.length_le (hconsumes : Consumes find) {text later : List α} (h : Reaches find text later) : later.length ≤ text.length := by
  induction h with
  | here text => exact Nat.le_refl _
  | pass _ _ ih => exact Nat.le_succ_of_le ih
  | jump hfind _ ih =>
    obtain ⟨c, used, rfl⟩ := hconsumes _ _ _ hfind
    simp only [length_cons, length_append]
    omega

theorem replaceAll_copy {front back : List α} (h : ∀ first c second, front = first ++ c :: second → find (c :: (second ++ back)) = none) :
    replaceAll find (front ++ back) = front ++ replaceAll find back := by
  induction front with
  | nil => rfl
  | cons c front ih =>
    rw [cons_append, replaceAll_pass (h [] c front rfl), ih fun first d second heq => h (c :: first) d second (by rw [heq]; rfl)]
    rfl

end RalphWorkflow.Lib.Replace
