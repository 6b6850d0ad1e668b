import Mathlib.Data.List.Infix
import Mathlib.Data.List.Duplicate
import Mathlib.Data.List.Nodup

/-! Each record of a chain names the mark of the record before it. Where equal marks mean equal predecessors and the
starting mark is no record's, the records of one chain can be put together into no other chain from the same start. -/
namespace RalphWorkflow.Lib
open List

variable {Record Mark : Type*} (prior mark : Record → Mark)

def Linked : Mark → List Record → Prop
  | _, [] => True
  | start, record :: records => prior record = start ∧ Linked (mark record) records

def lastMark : Mark → List Record → Mark
  | start, [] => start
  | _, record :: records => lastMark (mark record) records

variable {prior mark} {start : Mark} {records first second : List Record} {record : Record}

@[simp] theorem lastMark_append : lastMark mark start (first ++ second) = lastMark mark (lastMark mark start first) second := by
  induction first generalizing start with
  | nil => rfl
  | cons record first ih => exact ih

theorem linked_append : Linked prior mark start (first ++ second) ↔
      Linked prior mark start first ∧ Linked prior mark (lastMark mark start first) second := by
  induction first generalizing start with
  | nil => exact ⟨fun h => ⟨trivial, h⟩, fun h => h.2⟩
  | cons record first ih => rw [cons_append, Linked, Linked, ih, and_assoc, lastMark]

theorem lastMark_mem : lastMark mark start records ∈ start :: records.map mark := by
  induction records generalizing start with
  | nil => exact mem_cons_self
  | cons record records ih => exact mem_cons_of_mem _ ih

theorem Linked.prior_ne_lastMark (hlinked : Linked prior mark start records)
    (hnodup : (start :: records.map mark).Nodup) (hrecord : record ∈ records) :
    prior record ≠ lastMark mark start records := by
  obtain ⟨before, after, rfl⟩ := append_of_mem hrecord
  have hnames : prior record = lastMark mark start before := (linked_append.mp hlinked).2.1
  rw [map_append, map_cons, ← cons_append] at hnodup
  intro hlast
  have hagain : lastMark mark start before = lastMark mark (mark record) after := by
    rw [hnames, lastMark_append] at hlast
    exact hlast
  exact (nodup_append.mp hnodup).2.2 _ lastMark_mem _ lastMark_mem hagain

theorem Linked.eq_of_prior_eq {one other : Record} (hlinked : Linked prior mark start records)
    (hnodup : (start :: records.map mark).Nodup) (hone : one ∈ records) (hother : other ∈ records)
    (hsame : prior one = prior other) : one = other := by
  -- the later of the two names the mark its predecessors end with, and the earlier is among these
  have hlater : ∀ {earlier later : Record} {before after : List Record},
      records = before ++ later :: after → earlier ∈ before → prior earlier ≠ prior later := by
    intro earlier later before after hsplit hearlier
    rw [hsplit] at hlinked hnodup
    obtain ⟨hbefore, hnames, -⟩ := linked_append.mp hlinked
    rw [hnames]
    refine hbefore.prior_ne_lastMark ?_ hearlier
    rw [map_append, ← cons_append] at hnodup
    exact (nodup_append.mp hnodup).1
  obtain ⟨before, after, hsplit⟩ := append_of_mem hother
  rw [hsplit] at hone
  rcases mem_append.mp hone with hbefore | hafter
  · exact absurd hsame (hlater hsplit hbefore)
  · rcases mem_cons.mp hafter with heq | hafter
    · exact heq
    · obtain ⟨middle, rest, rfl⟩ := append_of_mem hafter
      have hsplit' : records = (before ++ other :: middle) ++ one :: rest := by
        rw [hsplit, append_assoc, cons_append]
      exact absurd hsame.symm (hlater hsplit' (mem_append_right _ mem_cons_self))

theorem Linked.nodup (hlinked : Linked prior mark start records) (hstart : ∀ record ∈ records, mark record ≠ start)
    (hbinds : ∀ one ∈ records, ∀ other ∈ records, mark one = mark other → prior one = prior other) :
    (start :: records.map mark).Nodup := by
  induction records using List.reverseRecOn with
  | nil => exact nodup_singleton start
  | append_singleton records last ih =>
    obtain ⟨hrecords, hnames, -⟩ := linked_append.mp hlinked
    have hlast : last ∈ records ++ [last] := mem_append_right _ (mem_singleton_self last)
    have hkept := ih hrecords (fun one hone => hstart one (mem_append_left _ hone))
      (fun one hone other hother => hbinds one (mem_append_left _ hone) other (mem_append_left _ hother))
    rw [map_append, ← cons_append]
    refine nodup_append.mpr ⟨hkept, nodup_singleton _, ?_⟩
    intro one hone other hother hsame
    cases mem_singleton.mp hother
    rcases mem_cons.mp hone with hfirst | hlater
    · exact hstart last hlast (hsame.symm.trans hfirst)
    · obtain ⟨earlier, hearlier, hmark⟩ := mem_map.mp hlater
      have hprior : prior earlier = prior last :=
        hbinds earlier (mem_append_left _ hearlier) last hlast (hmark.trans hsame)
      exact hrecords.prior_ne_lastMark hkept hearlier (hprior.trans hnames)

theorem Linked.isPrefix {whole accepted : List Record} (hwhole : Linked prior mark start whole) (hstart : ∀ record ∈ whole, mark record ≠ start)
    (hbinds : ∀ one ∈ whole, ∀ other ∈ whole, mark one = mark other → prior one = prior other)
    (haccepted : Linked prior mark start accepted) (hfrom : ∀ record ∈ accepted, record ∈ whole) :
    accepted <+: whole := by
  have hnodup := hwhole.nodup hstart hbinds
  -- the induction is on what is still to be accepted, after the part of `whole` that was
  have hfollows : ∀ (accepted seen rest : List Record), whole = seen ++ rest →
      Linked prior mark (lastMark mark start seen) accepted → (∀ record ∈ accepted, record ∈ whole) →
      accepted <+: rest := by
    intro accepted
    induction accepted with
    | nil => exact fun _ rest _ _ _ => nil_prefix
    | cons record accepted ih =>
      intro seen rest hsplit haccepted hfrom
      have hrecord : record ∈ whole := hfrom record mem_cons_self
      cases rest with
      | nil =>
        rw [append_nil] at hsplit
        subst hsplit
        exact absurd haccepted.1 (hwhole.prior_ne_lastMark hnodup hrecord)
      | cons next rest =>
        have hnext : prior next = lastMark mark start seen := by
          rw [hsplit] at hwhole
          exact (linked_append.mp hwhole).2.1
        have hmem : next ∈ whole := hsplit ▸ mem_append_right _ mem_cons_self
        have heq : record = next := hwhole.eq_of_prior_eq hnodup hrecord hmem (haccepted.1.trans hnext.symm)
        subst heq
        refine cons_prefix_cons.mpr ⟨rfl, ih (seen ++ [record]) rest ?_ ?_ ?_⟩
        · rw [hsplit, append_assoc, singleton_append]
        · rw [lastMark_append]
          exact haccepted.2
        · exact fun other hother => hfrom other (mem_cons_of_mem _ hother)
  exact hfollows accepted [] whole rfl haccepted hfrom

theorem Linked.prior_mem (hlinked : Linked prior mark start records) (hrecord : record ∈ records) : prior record ∈ start :: records.map mark := by
  obtain ⟨before, after, rfl⟩ := append_of_mem hrecord
  have hnames : prior record = lastMark mark start before := (linked_append.mp hlinked).2.1
  rw [hnames, map_append, ← cons_append]
  exact mem_append_left _ lastMark_mem

theorem exists_lastMark_eq {sought : Mark} (hsought : sought ∈ start :: records.map mark) :
    ∃ before after, records = before ++ after ∧ lastMark mark start before = sought := by
  rcases mem_cons.mp hsought with rfl | hlater
  · exact ⟨[], records, rfl, rfl⟩
  · obtain ⟨record, hrecord, rfl⟩ := mem_map.mp hlater
    obtain ⟨before, after, rfl⟩ := append_of_mem hrecord
    exact ⟨before ++ [record], after, by rw [append_assoc, singleton_append], by rw [lastMark_append]; rfl⟩

theorem Linked.exists_longer (hlinked : Linked prior mark start records) (htwice : ¬ (records.map mark).Nodup) :
    ∃ longer, Linked prior mark start longer ∧ (∀ record ∈ longer, record ∈ records) ∧
      records.length < longer.length := by
  obtain ⟨twice, hduplicate⟩ := exists_duplicate_iff_not_nodup.mpr htwice
  obtain ⟨first, second, hsplit, hfirst, hsecond⟩ :=
    cons_sublist_iff.mp (duplicate_iff_sublist.mp hduplicate)
  obtain ⟨upper, lower, rfl, rfl, rfl⟩ := map_eq_append_iff.mp hsplit
  obtain ⟨one, hone, honeMark⟩ := mem_map.mp hfirst
  obtain ⟨other, hother, hotherMark⟩ := mem_map.mp (singleton_sublist.mp hsecond)
  obtain ⟨before, middle, rfl⟩ := append_of_mem hone
  obtain ⟨middle', after, rfl⟩ := append_of_mem hother
  have hparts : (before ++ one :: middle) ++ (middle' ++ other :: after) = (before ++ [one]) ++ (middle ++ middle' ++ other :: after) := by
    simp only [append_assoc, cons_append, nil_append]
  have hparts' : (before ++ one :: middle) ++ (middle' ++ other :: after) = (before ++ one :: middle ++ middle' ++ [other]) ++ after := by
    simp only [append_assoc, cons_append, nil_append]
  refine ⟨(before ++ one :: middle ++ middle' ++ [other]) ++ (middle ++ middle' ++ other :: after), ?_, ?_, ?_⟩
  · refine linked_append.mpr ⟨(linked_append.mp (hparts' ▸ hlinked)).1, ?_⟩
    have hfollows := (linked_append.mp (hparts ▸ hlinked)).2
    rw [lastMark_append] at hfollows ⊢
    have hmarks : lastMark mark (lastMark mark start (before ++ one :: middle ++ middle')) [other] =
        lastMark mark (lastMark mark start before) [one] := hotherMark.trans honeMark.symm
    rw [hmarks]
    exact hfollows
  · intro record hrecord
    rcases mem_append.mp hrecord with hmem | hmem
    · exact hparts' ▸ mem_append_left _ hmem
    · exact hparts ▸ mem_append_right _ hmem
  · simp only [length_append, length_cons]
    omega

end RalphWorkflow.Lib
