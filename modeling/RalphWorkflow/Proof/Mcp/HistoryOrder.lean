import RalphWorkflow.Mcp.ArtifactHistory
import Mathlib.Data.List.Induction
import Mathlib.Data.List.Perm.Subperm
import Std.Data.String.ToNat

/-! The history keeps the archives whose names come last as text. A name starts with the second it was made in, and within a second the first name
made comes last. -/
namespace RalphWorkflow.ArtifactHistory

open Lib Lib.Text List

/-! ## The last of a list -/

section Newest

variable {α : Type}

def newest (limit : Nat) (xs : List α) : List α := xs.drop (xs.length - limit)

theorem newest_map {β : Type} (limit : Nat) (f : α → β) (xs : List α) : newest limit (xs.map f) = (newest limit xs).map f := by
  simp [newest]

theorem newest_sublist (limit : Nat) (xs : List α) : (newest limit xs).Sublist xs := drop_sublist _ _

theorem mem_newest_append {limit : Nat} {x : α} {xs ys : List α} (h : x ∈ newest limit (xs ++ ys)) : x ∈ xs ∨ x ∈ newest limit ys := by
  rw [newest, length_append, drop_append] at h
  rcases mem_append.mp h with h | h
  · exact .inl (mem_of_mem_drop h)
  · have hsub : xs.length + ys.length - limit - xs.length = ys.length - limit := by omega
    rw [hsub] at h
    exact .inr h

theorem newest_append (limit : Nat) (xs ys : List α) : newest limit (newest limit xs ++ ys) = newest limit (xs ++ ys) := by
  have hlength : (xs.drop (xs.length - limit)).length = xs.length - (xs.length - limit) := length_drop
  have hdrop : xs.drop (xs.length - limit) ++ ys = (xs ++ ys).drop (xs.length - limit) :=
    (drop_append_of_le_length (Nat.sub_le _ _)).symm
  simp only [newest, length_append, hlength]
  rw [hdrop, drop_drop]
  congr 1
  omega

theorem last_sorted_iff [LinearOrder α] (old : List α) :
    ∀ new : List α, (∀ before y later, old ++ new = before ++ y :: later → later.length < new.length → ∀ x ∈ before, x ≤ y) ↔
      new.Pairwise (· ≤ ·) ∧ ∀ x ∈ old, ∀ y ∈ new, x ≤ y := by
  intro new
  induction new generalizing old with
  | nil => simp
  | cons z new ih =>
    have hsplit := ih (old ++ [z])
    rw [append_assoc, singleton_append] at hsplit
    constructor
    · intro h
      obtain ⟨hnew, hold⟩ := hsplit.mp fun before y later heq hlater => h before y later heq (Nat.lt_succ_of_lt hlater)
      refine ⟨pairwise_cons.mpr ⟨fun y hy => hold z (by simp) y hy, hnew⟩, fun x hx y hy => ?_⟩
      rcases mem_cons.mp hy with rfl | hy
      · exact h old y new rfl (Nat.lt_succ_self _) x hx
      · exact hold x (mem_append_left _ hx) y hy
    · rintro ⟨hnew, hold⟩ before y later heq hlater
      obtain ⟨hz, hrest⟩ := pairwise_cons.mp hnew
      rcases Nat.lt_or_eq_of_le (Nat.le_of_lt_succ hlater) with hlt | hlen
      · refine hsplit.mpr ⟨hrest, fun x hx y hy => ?_⟩ before y later heq hlt
        rcases mem_append.mp hx with hx | hx
        · exact hold x hx y (mem_cons_of_mem z hy)
        · rw [mem_singleton.mp hx]
          exact hz y hy
      · obtain ⟨rfl, hcons⟩ := append_inj' heq (by simp [hlen])
        obtain ⟨rfl, -⟩ := List.cons.inj hcons
        exact fun x hx => hold x hx z mem_cons_self

theorem newest_sorted_iff (limit : Nat) (xs : List String) : newest limit (sortedText xs) = newest limit xs ↔
      ∀ before y later, xs = before ++ y :: later → later.length < limit → ∀ x ∈ before, x ≤ y := by
  have hxs : xs.take (xs.length - limit) ++ newest limit xs = xs := take_append_drop _ _
  have hsorted : (sortedText xs).Pairwise (· ≤ ·) := pairwise_insertionSort (· ≤ ·) xs
  have hperm : (sortedText xs).Perm xs := perm_insertionSort _ _
  have hlast := last_sorted_iff (xs.take (xs.length - limit)) (newest limit xs)
  rw [hxs] at hlast
  have hlimit : (∀ before y later, xs = before ++ y :: later → later.length < limit → ∀ x ∈ before, x ≤ y) ↔
      ∀ before y later, xs = before ++ y :: later → later.length < (newest limit xs).length → ∀ x ∈ before, x ≤ y := by
    refine forall_congr' fun before => forall_congr' fun y => forall_congr' fun later => forall_congr' fun heq => ?_
    have hlength := congrArg List.length heq
    simp only [length_append, length_cons] at hlength
    have hnewest : (newest limit xs).length = xs.length - (xs.length - limit) := length_drop
    have hsame : later.length < limit ↔ later.length < (newest limit xs).length := by omega
    rw [hsame]
  rw [hlimit, hlast]
  constructor
  · intro h
    have hsplit : (sortedText xs).take (xs.length - limit) ++ newest limit xs = sortedText xs := by
      rw [← h, newest, hperm.length_eq]
      exact take_append_drop _ _
    have hold : ((sortedText xs).take (xs.length - limit)).Perm (xs.take (xs.length - limit)) := by
      refine (perm_append_right_iff (newest limit xs)).mp ?_
      rw [hsplit, hxs]
      exact hperm
    rw [← hsplit] at hsorted
    obtain ⟨-, hnew, hacross⟩ := pairwise_append.mp hsorted
    exact ⟨hnew, fun x hx y hy => hacross x (hold.mem_iff.mpr hx) y hy⟩
  · rintro ⟨hnew, hacross⟩
    have hwhole : (sortedText (xs.take (xs.length - limit)) ++ newest limit xs).Pairwise (· ≤ ·) :=
      pairwise_append.mpr ⟨pairwise_insertionSort (· ≤ ·) _, hnew, fun x hx y hy =>
        hacross x ((mem_sortedText x _).mp hx) y hy⟩
    have hsame : sortedText xs = sortedText (xs.take (xs.length - limit)) ++ newest limit xs := by
      refine List.Perm.eq_of_pairwise (fun x y _ _ hxy hyx => le_antisymm hxy hyx) hsorted hwhole ?_
      refine hperm.trans ?_
      conv_lhs => rw [← hxs]
      exact (perm_insertionSort _ _).symm.append_right _
    have hlength : (sortedText (xs.take (xs.length - limit))).length = xs.length - limit := by
      rw [sortedText, length_insertionSort, length_take]
      omega
    rw [hsame]
    have hlen : (sortedText (xs.take (xs.length - limit)) ++ newest limit xs).length - limit = xs.length - limit := by
      rw [← hsame, hperm.length_eq]
    rw [newest, hlen]
    exact drop_left' hlength

end Newest

/-! ## Names -/

section Names

variable {artifactType : ArtifactType} {history : History}

def stampOf (name : String) : String := takeText 15 name

section

variable (now : Reading)

theorem Reading.length_stamp : now.stamp.toList.length = 15 := by
  have h := now.stamped
  simp only [isStamp, Bool.and_eq_true, beq_iff_eq] at h
  exact h.1.1.1

theorem takeText_append (n : Nat) (text rest : String) (h : text.toList.length = n) : takeText n (text ++ rest) = text := by
  rw [takeText, String.toList_append, take_left' h, String.ofList_toList]

theorem plainName_eq (base : String) : plainName base artifactType = base ++ ("_" ++ artifactType.name ++ ".md") := by
  simp [plainName, String.append_assoc]

theorem numberedName_eq (base : String) (counter : Nat) :
    numberedName base counter artifactType = base ++ ("_" ++ toString counter ++ "_" ++ artifactType.name ++ ".md") := by
  simp [numberedName, String.append_assoc]

theorem stampOf_plain : stampOf (plainName now.stamp artifactType) = now.stamp := by
  rw [plainName_eq]
  exact takeText_append 15 _ _ now.length_stamp

theorem stampOf_numbered (counter : Nat) : stampOf (numberedName now.stamp counter artifactType) = now.stamp := by
  rw [numberedName_eq]
  exact takeText_append 15 _ _ now.length_stamp

theorem matchTimestamp_append (rest : String) : matchTimestamp (now.stamp ++ ("_" ++ rest)) = some now.stamp := by
  have hlength := now.length_stamp
  have htake : (now.stamp ++ ("_" ++ rest)).toList.take 15 = now.stamp.toList := by
    rw [String.toList_append, take_left' hlength]
  have hnext : (now.stamp ++ ("_" ++ rest)).toList[15]? = some '_' := by
    rw [String.toList_append, List.getElem?_append_right (by rw [hlength]), hlength, String.toList_append]
    rfl
  have hstamp : isStamp now.stamp.toList = true := now.stamped
  rw [matchTimestamp, htake, hnext, hstamp, takeText_append 15 _ _ hlength]
  rfl

theorem name_lt {now later : Reading} (h : now.stamp < later.stamp) (rest rest' : String) : now.stamp ++ rest < later.stamp ++ rest' := by
  rw [String.lt_iff_toList_lt] at h ⊢
  rw [String.toList_append, String.toList_append]
  exact lt_append_of_lt h (now.length_stamp.trans later.length_stamp.symm) _ _

theorem toList_toString (n : Nat) : (toString n).toList = Nat.toDigits 10 n := by
  simp [toString, Nat.repr_eq_ofList_toDigits]

theorem numbered_lt_plain (base : String) (counter : Nat) : numberedName base counter artifactType < plainName base artifactType := by
  obtain ⟨c, rest, hname, hletter⟩ := artifactType.letter
  have hdigits : ∃ d digits, (toString counter).toList = d :: digits ∧ d.isDigit = true := by
    rw [toList_toString]
    cases hdigits : Nat.toDigits 10 counter with
    | nil =>
      have hpos : 0 < (Nat.toDigits 10 counter).length := Nat.length_toDigits_pos
      rw [hdigits] at hpos
      exact absurd hpos (Nat.lt_irrefl 0)
    | cons d digits =>
      exact ⟨d, digits, rfl, Nat.isDigit_of_mem_toDigits (by decide) (by decide) (hdigits ▸ mem_cons_self)⟩
  obtain ⟨d, digits, hcounter, hdigit⟩ := hdigits
  have hle : d ≤ '9' := by
    simp only [Char.isDigit, Bool.and_eq_true, decide_eq_true_eq] at hdigit
    exact hdigit.2
  rw [String.lt_iff_toList_lt, numberedName_eq, plainName_eq]
  simp only [String.toList_append, append_assoc, hcounter, hname, cons_append]
  refine append_left_lt (append_left_lt ?_)
  exact cons_lt_cons_iff.mpr (.inl (lt_of_le_of_lt hle hletter))

theorem takeWhile_digits (n : Nat) (rest : List Char) : ((toString n).toList ++ '_' :: rest).takeWhile Char.isDigit = (toString n).toList := by
  have hdigits : ∀ c ∈ (toString n).toList, c.isDigit = true := by
    intro c hc
    rw [toList_toString] at hc
    exact Nat.isDigit_of_mem_toDigits (by decide) (by decide) hc
  rw [takeWhile_append_of_pos hdigits, takeWhile_cons_of_neg (by decide), append_nil]

theorem numberedName_injective (base : String) : Function.Injective fun counter => numberedName base counter artifactType := by
  intro m n h
  have hchars := congrArg String.toList h
  simp only [numberedName_eq, String.toList_append, append_assoc, append_cancel_left_eq] at hchars
  have hdigits := congrArg (List.takeWhile Char.isDigit) hchars
  have hunder : ∀ k : Nat, (toString k).toList ++ ("_".toList ++ (artifactType.name.toList ++ ".md".toList)) =
      (toString k).toList ++ '_' :: (artifactType.name.toList ++ ".md".toList) := fun k => rfl
  rw [hunder, hunder, takeWhile_digits, takeWhile_digits, toList_toString, toList_toString] at hdigits
  have hvalue := congrArg (fun digits => Nat.ofDigitChars 10 digits 0) hdigits
  simpa using hvalue

theorem freeCounter_spec (taken : Nat → Bool) (fuel counter : Nat) :
    taken (freeCounter taken fuel counter) = false ∨ ∀ k, counter ≤ k → k < counter + fuel → taken k = true := by
  induction fuel generalizing counter with
  | zero => exact .inr fun k hle hlt => by omega
  | succ fuel ih =>
    simp only [freeCounter]
    cases htaken : taken counter with
    | false => simp [htaken]
    | true =>
      simp only [if_true]
      refine (ih (counter + 1)).imp_right fun hall k hle hlt => ?_
      rcases Nat.eq_or_lt_of_le hle with rfl | hgt
      · exact htaken
      · exact hall k hgt (by omega)

theorem contains_iff_mem (name : String) : history.archives.contains name = true ↔ name ∈ history.archives.keys :=
  (Dict.mem_keys_iff _ _).symm

theorem uniqueArchiveName_spec (history : History) (artifactType : ArtifactType) (now : Reading) :
    uniqueArchiveName history artifactType now ∉ history.archives.keys ∧
      (plainName now.stamp artifactType ∉ history.archives.keys ∧ uniqueArchiveName history artifactType now = plainName now.stamp artifactType ∨
        plainName now.stamp artifactType ∈ history.archives.keys ∧
          ∃ counter, uniqueArchiveName history artifactType now = numberedName now.stamp counter artifactType) := by
  have hstamp : safeTimestamp now.raw = now.stamp := rfl
  simp only [uniqueArchiveName, hstamp, contains_iff_mem]
  by_cases hplain : plainName now.stamp artifactType ∈ history.archives.keys
  · rw [if_pos hplain]
    refine ⟨?_, .inr ⟨hplain, _, rfl⟩⟩
    let taken := fun counter => history.archives.contains (numberedName now.stamp counter artifactType)
    rcases freeCounter_spec taken history.archives.entries.length 1 with hfree | hall
    · rw [← contains_iff_mem]
      exact Bool.eq_false_iff.mp hfree
    · -- more names would be taken than there are archives
      exfalso
      let names := plainName now.stamp artifactType ::
        (List.range' 1 history.archives.entries.length).map fun counter => numberedName now.stamp counter artifactType
      have hnodup : names.Nodup := by
        refine nodup_cons.mpr ⟨fun hmem => ?_, (nodup_range').map (numberedName_injective now.stamp)⟩
        obtain ⟨counter, -, heq⟩ := mem_map.mp hmem
        exact absurd (heq ▸ numbered_lt_plain now.stamp counter) (lt_irrefl _)
      have hsubset : names ⊆ history.archives.keys := by
        refine cons_subset.mpr ⟨hplain, fun name hname => ?_⟩
        obtain ⟨counter, hcounter, rfl⟩ := mem_map.mp hname
        have hrange := mem_range'_1.mp hcounter
        exact (contains_iff_mem _).mp (hall counter hrange.1 hrange.2)
      have hlength := (hnodup.subperm hsubset).length_le
      simp [names, Dict.keys] at hlength
  · rw [if_neg hplain]
    exact ⟨hplain, .inl ⟨hplain, rfl⟩⟩

theorem matchTimestamp_plain : matchTimestamp (plainName now.stamp artifactType) = some now.stamp := by
  have hname : plainName now.stamp artifactType = now.stamp ++ ("_" ++ (artifactType.name ++ ".md")) := by
    simp only [plainName, String.append_assoc]
  rw [hname]
  exact matchTimestamp_append now _

theorem matchTimestamp_numbered (counter : Nat) : matchTimestamp (numberedName now.stamp counter artifactType) = some now.stamp := by
  have hname : numberedName now.stamp counter artifactType = now.stamp ++ ("_" ++ (toString counter ++ ("_" ++ (artifactType.name ++ ".md")))) := by
    simp only [numberedName, String.append_assoc]
  rw [hname]
  exact matchTimestamp_append now _

end

theorem stampOf_unique (history : History) (artifactType : ArtifactType) (now : Reading) :
    stampOf (uniqueArchiveName history artifactType now) = now.stamp ∧
      matchTimestamp (uniqueArchiveName history artifactType now) = some now.stamp := by
  rcases (uniqueArchiveName_spec history artifactType now).2 with ⟨-, hname⟩ | ⟨-, counter, hname⟩
  · exact ⟨hname ▸ stampOf_plain now, hname ▸ matchTimestamp_plain now⟩
  · exact ⟨hname ▸ stampOf_numbered now counter, hname ▸ matchTimestamp_numbered now counter⟩

end Names

/-! ## Runs -/

def Snapshot.writes (found : Snapshot) : List (Reading × String) :=
  match found.canonical with
  | none => []
  | some text => (found.now, text) :: (found.handoff.map fun handoff => (found.handoffNow, handoff)).toList

def Snapshot.seconds (found : Snapshot) : List String := found.writes.map fun write => write.1.stamp

def seconds (snapshots : List Snapshot) : List String := snapshots.flatMap Snapshot.seconds

def run (limit : Nat) (artifactType : ArtifactType) (snapshots : List Snapshot) : History × List (String × String) :=
  snapshots.foldl (fun state found =>
    let result := snapshotCurrentArtifact limit artifactType state.1 found
    (result.1, state.2 ++ result.2.zip (found.writes.map Prod.snd))) ({}, [])

def Kept (limit : Nat) (history : History) (versions : List (String × String)) : Prop :=
  history.archives.entries.Perm (newest limit versions) ∧
    (history.index.getD []).map IndexEntry.name = (newest limit versions).map Prod.fst

/-- No version is overwritten, the archives are the newest versions, and the index lists them in order. -/
def KeepsNewest (limit : Nat) (artifactType : ArtifactType) (snapshots : List Snapshot) : Prop :=
  ∀ before found, before ++ [found] <+: snapshots →
    let state := run limit artifactType before
    let result := snapshotCurrentArtifact limit artifactType state.1 found
    let created := result.2.zip (found.writes.map Prod.snd)
    (∀ version ∈ state.1.archives.entries ++ created, result.1.archives.get? version.1 = none ∨ result.1.archives.get? version.1 = some version.2) ∧
      Kept limit result.1 (state.2 ++ created)

def NewSeconds (limit : Nat) : List String → List String → Prop
  | _, [] => True
  | seen, second :: rest => (rest.length < limit → second ∉ seen) ∧ NewSeconds limit (seen ++ [second]) rest

def MadeLater (limit : Nat) (snapshots : List Snapshot) : Prop :=
  ∀ before found, before ++ [found] <+: snapshots → NewSeconds limit (seconds before) found.seconds

/-! ## Writing the archives -/

section Writes

variable {artifactType : ArtifactType} {limit : Nat}

def archiveAll (artifactType : ArtifactType) : History → List (Reading × String) → History × List String
  | history, [] => (history, [])
  | history, write :: writes =>
    let step := archive artifactType history write.1 write.2
    let rest := archiveAll artifactType step.1 writes
    (rest.1, step.2 :: rest.2)

theorem snapshot_eq (history : History) (found : Snapshot) (h : found.writes ≠ []) : snapshotCurrentArtifact limit artifactType history found =
      (rebuildHistoryIndex (pruneArtifactHistory limit (archiveAll artifactType history found.writes).1),
        (archiveAll artifactType history found.writes).2) := by
  cases hcanonical : found.canonical with
  | none => simp [Snapshot.writes, hcanonical] at h
  | some text =>
    cases hhandoff : found.handoff with
    | none => simp [snapshotCurrentArtifact, Snapshot.writes, hcanonical, hhandoff, archiveAll]
    | some handoff => simp [snapshotCurrentArtifact, Snapshot.writes, hcanonical, hhandoff, archiveAll]

theorem snapshot_nothing (history : History) (found : Snapshot) (h : found.writes = []) :
    snapshotCurrentArtifact limit artifactType history found = (history, []) := by
  cases hcanonical : found.canonical with
  | none => simp [snapshotCurrentArtifact, hcanonical]
  | some text => simp [Snapshot.writes, hcanonical] at h

theorem archive_entries (history : History) (now : Reading) (text : String) : (archive artifactType history now text).1.archives.entries =
      history.archives.entries ++ [(uniqueArchiveName history artifactType now, text)] :=
  Dict.assign_fresh _ _ _ (uniqueArchiveName_spec history artifactType now).1

/-- Every name is one of its second, whose plain name is taken too. -/
def Closed (artifactType : ArtifactType) (history : History) : Prop :=
  ∀ name ∈ history.archives.keys, ∃ now : Reading, stampOf name = now.stamp ∧ matchTimestamp name = some now.stamp ∧
    (∃ rest, name = now.stamp ++ rest) ∧ plainName now.stamp artifactType ∈ history.archives.keys

theorem archive_keys (history : History) (now : Reading) (text : String) : (archive artifactType history now text).1.archives.keys =
      history.archives.keys ++ [uniqueArchiveName history artifactType now] := by
  simp only [Dict.keys, archive_entries, map_append, map_cons, map_nil]

variable {history : History}

theorem Closed.archive (h : Closed artifactType history) (now : Reading) (text : String) :
    Closed artifactType (archive artifactType history now text).1 := by
  intro name hname
  rw [archive_keys] at hname ⊢
  rcases mem_append.mp hname with hold | hnew
  · obtain ⟨past, hstamp, hmatch, hrest, hplain⟩ := h name hold
    exact ⟨past, hstamp, hmatch, hrest, mem_append_left _ hplain⟩
  · obtain rfl := mem_singleton.mp hnew
    obtain ⟨hstamp, hmatch⟩ := stampOf_unique history artifactType now
    rcases (uniqueArchiveName_spec history artifactType now).2 with ⟨-, heq⟩ | ⟨hplain, counter, heq⟩
    · refine ⟨now, hstamp, hmatch, ⟨_, heq.trans (plainName_eq _)⟩, mem_append_right _ ?_⟩
      rw [heq]
      exact mem_singleton_self _
    · exact ⟨now, hstamp, hmatch, ⟨_, heq.trans (numberedName_eq _ counter)⟩, mem_append_left _ hplain⟩

theorem unique_last_iff (h : Closed artifactType history) (now : Reading) (hclock : ∀ name ∈ history.archives.keys, stampOf name ≤ now.stamp) :
    (∀ name ∈ history.archives.keys, name ≤ uniqueArchiveName history artifactType now) ↔
      now.stamp ∉ history.archives.keys.map stampOf := by
  constructor
  · intro hlast hmem
    obtain ⟨name, hname, hstamp⟩ := mem_map.mp hmem
    obtain ⟨past, hpast, -, -, hplain⟩ := h name hname
    have hsame : past.stamp = now.stamp := hpast.symm.trans hstamp
    rw [hsame] at hplain
    rcases (uniqueArchiveName_spec history artifactType now).2 with ⟨hfree, -⟩ | ⟨-, counter, heq⟩
    · exact hfree hplain
    · have hle := hlast _ hplain
      rw [heq] at hle
      exact absurd (numbered_lt_plain now.stamp counter) (not_lt.mpr hle)
  · intro hnew name hname
    obtain ⟨past, hpast, -, ⟨rest, hrest⟩, -⟩ := h name hname
    have hlt : past.stamp < now.stamp := by
      refine lt_of_le_of_ne (hpast ▸ hclock name hname) fun heq => hnew ?_
      exact mem_map.mpr ⟨name, hname, hpast.trans heq⟩
    have hform : ∃ rest', uniqueArchiveName history artifactType now = now.stamp ++ rest' := by
      rcases (uniqueArchiveName_spec history artifactType now).2 with ⟨-, heq⟩ | ⟨-, counter, heq⟩
      · exact ⟨_, heq.trans (plainName_eq _)⟩
      · exact ⟨_, heq.trans (numberedName_eq _ counter)⟩
    obtain ⟨rest', hrest'⟩ := hform
    rw [hrest, hrest']
    exact (name_lt hlt rest rest').le

theorem archiveAll_entries (history : History) (writes : List (Reading × String)) : (archiveAll artifactType history writes).1.archives.entries =
        history.archives.entries ++ (archiveAll artifactType history writes).2.zip (writes.map Prod.snd) ∧
      (archiveAll artifactType history writes).2.length = writes.length ∧
      (archiveAll artifactType history writes).2.map stampOf = writes.map fun write => write.1.stamp := by
  induction writes generalizing history with
  | nil => simp [archiveAll]
  | cons write writes ih =>
    obtain ⟨hentries, hlength, hstamps⟩ := ih (archive artifactType history write.1 write.2).1
    have hname : (archive artifactType history write.1 write.2).2 = uniqueArchiveName history artifactType write.1 := rfl
    refine ⟨?_, ?_, ?_⟩
    · simp only [archiveAll, hentries, archive_entries, hname, map_cons, zip_cons_cons, append_assoc,
        singleton_append]
    · simp only [archiveAll, length_cons, hlength]
    · simp only [archiveAll, map_cons, hstamps, hname, (stampOf_unique history artifactType write.1).1]

theorem archiveAll_keys (history : History) (writes : List (Reading × String)) : (archiveAll artifactType history writes).1.archives.keys =
      history.archives.keys ++ (archiveAll artifactType history writes).2 := by
  obtain ⟨hentries, hlength, -⟩ := @archiveAll_entries artifactType history writes
  simp only [Dict.keys, hentries, map_append]
  rw [map_fst_zip (by simp [hlength])]

theorem Closed.archiveAll (h : Closed artifactType history) (writes : List (Reading × String)) :
    Closed artifactType (archiveAll artifactType history writes).1 := by
  induction writes generalizing history with
  | nil => exact h
  | cons write writes ih => exact ih (h.archive write.1 write.2)

/-- Each of `ys` among the last `limit` comes after those before it, as text. -/
def Ordered (limit : Nat) : List String → List String → Prop
  | _, [] => True
  | xs, y :: ys => (ys.length < limit → ∀ x ∈ xs, x ≤ y) ∧ Ordered limit (xs ++ [y]) ys

theorem ordered_iff (xs ys : List String) :
    Ordered limit xs ys ↔ ∀ before y later, ys = before ++ y :: later → later.length < limit → ∀ x ∈ xs ++ before, x ≤ y := by
  induction ys generalizing xs with
  | nil => simp [Ordered]
  | cons z ys ih =>
    simp only [Ordered, ih]
    constructor
    · rintro ⟨hz, hrest⟩ before y later heq hlater x hx
      cases before with
      | nil =>
        obtain ⟨rfl, rfl⟩ := List.cons.inj heq
        exact hz hlater x (by simpa using hx)
      | cons w before =>
        obtain ⟨rfl, htail⟩ := List.cons.inj heq
        exact hrest before y later htail hlater x (by simpa using hx)
    · refine fun h => ⟨fun hlater x hx => h [] z ys rfl hlater x (by simpa using hx), fun before y later heq hlater x hx => ?_⟩
      exact h (z :: before) y later (by rw [heq]; rfl) hlater x (by simpa using hx)

theorem newest_sorted_append {xs : List String} (hsorted : xs.Pairwise (· ≤ ·)) (ys : List String) :
    newest limit (sortedText (xs ++ ys)) = newest limit (xs ++ ys) ↔ Ordered limit xs ys := by
  rw [newest_sorted_iff, ordered_iff]
  constructor
  · intro h before y later heq
    exact h (xs ++ before) y later (by rw [heq, append_assoc])
  · intro h before y later heq hlater x hx
    rcases append_eq_append_iff.mp heq with ⟨more, rfl, hys⟩ | ⟨more, rfl, hys⟩
    · exact h more y later hys hlater x hx
    · -- `y` is one of the names in order, or the first of the new ones
      cases more with
      | nil => exact h [] y later (by simpa using hys.symm) hlater x (by simpa using hx)
      | cons w more =>
        obtain ⟨rfl, -⟩ := List.cons.inj hys
        exact (pairwise_append.mp hsorted).2.2 x hx y mem_cons_self

theorem archiveAll_ordered_iff (h : Closed artifactType history) (writes : List (Reading × String))
    (hclock : (history.archives.keys.map stampOf ++ writes.map fun write => write.1.stamp).Pairwise (· ≤ ·)) :
    Ordered limit history.archives.keys (archiveAll artifactType history writes).2 ↔
      NewSeconds limit (history.archives.keys.map stampOf) (writes.map fun write => write.1.stamp) := by
  induction writes generalizing history with
  | nil => exact Iff.rfl
  | cons write writes ih =>
    have hname : (archive artifactType history write.1 write.2).2 = uniqueArchiveName history artifactType write.1 := rfl
    have hstamp := (stampOf_unique history artifactType write.1).1
    have hkeys := @archive_keys artifactType history write.1 write.2
    have hlength := (@archiveAll_entries artifactType (archive artifactType history write.1 write.2).1 writes).2.1
    have hrest := ih (h.archive write.1 write.2) (by simpa [hkeys, hstamp] using hclock)
    rw [hkeys, map_append, map_singleton, hstamp] at hrest
    have hpast : ∀ name ∈ history.archives.keys, stampOf name ≤ write.1.stamp := fun name hmem =>
      (pairwise_append.mp hclock).2.2 _ (mem_map_of_mem hmem) _ (by simp)
    simp only [archiveAll, Ordered, NewSeconds, map_cons, hname, hlength, length_map, hrest,
      unique_last_iff h write.1 hpast]

end Writes

/-! ## Pruning -/

section Prune

variable {artifactType : ArtifactType} {limit : Nat} {history : History}

theorem entries_foldl_erase (names : List String) (archives : Dict String String) :
    (names.foldl Dict.erase archives).entries = archives.entries.filter fun entry => entry.1 ∉ names := by
  induction names generalizing archives with
  | nil => simp
  | cons name names ih =>
    rw [foldl_cons, ih]
    simp only [Dict.erase, filter_filter]
    refine filter_congr fun entry _ => ?_
    simp [Bool.and_comm]

theorem sortedArchives_eq (h : ∀ name ∈ history.archives.keys, (matchTimestamp name).isSome = true) :
    sortedArchives history = sortedText history.archives.keys := by
  rw [sortedArchives, filter_eq_self.mpr h]

theorem prune_entries (h : ∀ name ∈ history.archives.keys, (matchTimestamp name).isSome = true) :
    (pruneArtifactHistory limit history).archives.entries =
      history.archives.entries.filter fun entry => entry.1 ∈ newest limit (sortedText history.archives.keys) := by
  have hnodup : (sortedText history.archives.keys).Nodup :=
    ((perm_insertionSort _ _).nodup_iff).mpr history.archives.nodup
  have hremoved : (if limit = 0 then sortedArchives history else
      (sortedArchives history).take ((sortedArchives history).length - limit)) =
      (sortedText history.archives.keys).take ((sortedText history.archives.keys).length - limit) := by
    rw [sortedArchives_eq h]
    split
    · rename_i hzero
      rw [hzero, Nat.sub_zero, take_length]
    · rfl
  simp only [pruneArtifactHistory]
  rw [hremoved, entries_foldl_erase]
  refine filter_congr fun entry hentry => ?_
  have hmem : entry.1 ∈ sortedText history.archives.keys := (mem_sortedText _ _).mpr (mem_map_of_mem hentry)
  rw [← take_append_drop ((sortedText history.archives.keys).length - limit) (sortedText history.archives.keys)] at hmem hnodup
  have hdisjoint := (nodup_append.mp hnodup).2.2
  simp only [decide_eq_decide]
  constructor
  · exact fun hkept => (mem_append.mp hmem).resolve_left hkept
  · exact fun hkept hgone => hdisjoint _ hgone _ hkept rfl

theorem rebuild_archives (history : History) : (rebuildHistoryIndex history).archives = history.archives := by
  simp only [rebuildHistoryIndex]
  split <;> rfl

theorem rebuild_index (history : History) : ((rebuildHistoryIndex history).index.getD []).map IndexEntry.name = sortedArchives history := by
  simp only [rebuildHistoryIndex]
  split
  · rename_i hnone
    rw [hnone]
    rfl
  · simp [Function.comp_def]

theorem pruned_index (h : ∀ name ∈ history.archives.keys, (matchTimestamp name).isSome = true) :
    sortedArchives (pruneArtifactHistory limit history) = newest limit (sortedText history.archives.keys) := by
  have hkeys : (pruneArtifactHistory limit history).archives.keys =
      history.archives.keys.filter fun name => name ∈ newest limit (sortedText history.archives.keys) := by
    simp only [Dict.keys, prune_entries h, filter_map]
    rfl
  rw [sortedArchives_eq fun name hname => h name (mem_of_mem_filter (hkeys ▸ hname)), hkeys]
  have hsorted : (sortedText history.archives.keys).Pairwise (· ≤ ·) := pairwise_insertionSort (· ≤ ·) _
  have hnodup : (sortedText history.archives.keys).Nodup :=
    ((perm_insertionSort _ _).nodup_iff).mpr history.archives.nodup
  refine List.Perm.eq_of_pairwise (fun x y _ _ hxy hyx => le_antisymm hxy hyx) (pairwise_insertionSort (· ≤ ·) _)
    (hsorted.sublist (newest_sublist _ _)) ?_
  refine (perm_insertionSort _ _).trans ((perm_ext_iff_of_nodup ?_ (hnodup.sublist (newest_sublist _ _))).mpr fun name => ?_)
  · exact List.Nodup.filter _ history.archives.nodup
  · rw [mem_filter, decide_eq_true_eq]
    refine ⟨And.right, fun hname => ⟨?_, hname⟩⟩
    exact (mem_sortedText _ _).mp ((newest_sublist _ _).mem hname)

theorem filter_newest {entries : List (String × String)} (h : (entries.map Prod.fst).Nodup) :
    (entries.filter fun entry => entry.1 ∈ newest limit (entries.map Prod.fst)) = newest limit entries := by
  have hsplit := take_append_drop (entries.length - limit) entries
  rw [newest_map]
  rw [← hsplit, map_append] at h
  have hdisjoint := (nodup_append.mp h).2.2
  have hold : (entries.take (entries.length - limit)).filter (fun entry => entry.1 ∈ (newest limit entries).map Prod.fst) = [] := by
    refine filter_eq_nil_iff.mpr fun entry hentry hkept => ?_
    exact hdisjoint _ (mem_map_of_mem hentry) _ (of_decide_eq_true hkept) rfl
  have hnew : (entries.drop (entries.length - limit)).filter (fun entry => entry.1 ∈ (newest limit entries).map Prod.fst) = newest limit entries :=
    filter_eq_self.mpr fun entry hentry => decide_eq_true (mem_map_of_mem hentry)
  calc entries.filter (fun entry => entry.1 ∈ (newest limit entries).map Prod.fst)
      = (entries.take (entries.length - limit) ++ entries.drop (entries.length - limit)).filter
          fun entry => entry.1 ∈ (newest limit entries).map Prod.fst := by rw [hsplit]
    _ = newest limit entries := by rw [filter_append, hold, hnew, nil_append]

theorem kept_iff (h : ∀ name ∈ history.archives.keys, (matchTimestamp name).isSome = true) {versions : List (String × String)}
    (hversions : newest limit versions = newest limit history.archives.entries) :
    Kept limit (rebuildHistoryIndex (pruneArtifactHistory limit history)) versions ↔
      newest limit (sortedText history.archives.keys) = newest limit history.archives.keys := by
  have hnames : (newest limit versions).map Prod.fst = newest limit history.archives.keys := by
    rw [hversions, ← newest_map]
    rfl
  rw [Kept, rebuild_index, pruned_index h, hnames]
  refine ⟨And.right, fun hlast => ⟨?_, hlast⟩⟩
  rw [rebuild_archives, prune_entries h, hlast, hversions]
  exact List.Perm.of_eq (filter_newest history.archives.nodup)

theorem pruned_kept (h : ∀ name ∈ history.archives.keys, (matchTimestamp name).isSome = true) {version : String × String}
    (hversion : version ∈ history.archives.entries) :
    (rebuildHistoryIndex (pruneArtifactHistory limit history)).archives.get? version.1 = none ∨
      (rebuildHistoryIndex (pruneArtifactHistory limit history)).archives.get? version.1 = some version.2 := by
  cases hlookup : (rebuildHistoryIndex (pruneArtifactHistory limit history)).archives.get? version.1 with
  | none => exact .inl rfl
  | some text =>
    have hmem := (Dict.get?_eq_some_iff _ _ _).mp hlookup
    rw [rebuild_archives, prune_entries h] at hmem
    have hsome := (Dict.get?_eq_some_iff _ _ _).mpr (mem_of_mem_filter hmem)
    have hsome' : history.archives.get? version.1 = some version.2 := (Dict.get?_eq_some_iff _ _ _).mpr hversion
    exact .inr (hsome.symm.trans hsome')

end Prune

/-! ## Snapshots one after another -/

section Run

variable {artifactType : ArtifactType} {limit : Nat}

structure InOrder (limit : Nat) (artifactType : ArtifactType) (snapshots : List Snapshot) (history : History)
    (versions : List (String × String)) : Prop where
  entries : history.archives.entries = newest limit versions
  index : (history.index.getD []).map IndexEntry.name = history.archives.keys
  seconds : versions.map (fun version => stampOf version.1) = seconds snapshots
  plain : ∀ name ∈ history.archives.keys, ∃ now : Reading, name = plainName now.stamp artifactType
  sorted : history.archives.keys.Pairwise (· ≤ ·)

variable {snapshots : List Snapshot} {history : History} {versions : List (String × String)}

theorem InOrder.kept (h : InOrder limit artifactType snapshots history versions) : Kept limit history versions := by
  refine ⟨List.Perm.of_eq h.entries, ?_⟩
  rw [h.index, Dict.keys, h.entries]

theorem InOrder.closed (h : InOrder limit artifactType snapshots history versions) : Closed artifactType history := by
  intro name hname
  obtain ⟨now, rfl⟩ := h.plain name hname
  exact ⟨now, stampOf_plain now, matchTimestamp_plain now, ⟨_, plainName_eq _⟩, hname⟩

theorem Closed.matches (h : Closed artifactType history) : ∀ name ∈ history.archives.keys, (matchTimestamp name).isSome = true := by
  intro name hname
  obtain ⟨now, -, hmatch, -⟩ := h name hname
  rw [hmatch]
  rfl

theorem InOrder.mem_seconds (h : InOrder limit artifactType snapshots history versions) {second : String} (hlimit : 0 < limit)
    (hclock : (ArtifactHistory.seconds snapshots ++ [second]).Pairwise (· ≤ ·)) :
    second ∈ history.archives.keys.map stampOf ↔ second ∈ ArtifactHistory.seconds snapshots := by
  have hkeys : history.archives.keys.map stampOf = newest limit (ArtifactHistory.seconds snapshots) := by
    rw [← h.seconds, newest_map, Dict.keys, h.entries, map_map]
    rfl
  rw [hkeys]
  refine ⟨fun hmem => (newest_sublist _ _).mem hmem, fun hmem => ?_⟩
  obtain ⟨hsorted, -, hlast⟩ := pairwise_append.mp hclock
  rcases eq_nil_or_concat (ArtifactHistory.seconds snapshots) with hnone | ⟨earlier, last, heq⟩
  · rw [hnone] at hmem
    exact absurd hmem not_mem_nil
  · -- the last second is the greatest, so that it is this one
    rw [concat_eq_append] at heq
    rw [heq] at hsorted hmem hlast ⊢
    have hle : last ≤ second := hlast last (by simp) second (by simp)
    have hsame : last = second := by
      rcases mem_append.mp hmem with hearlier | hend
      · exact le_antisymm hle ((pairwise_append.mp hsorted).2.2 second hearlier last (by simp))
      · exact (mem_singleton.mp hend).symm
    rw [hsame, newest, length_append, length_singleton, drop_append_of_le_length (by omega)]
    simp

theorem newSeconds_congr (rest : List String) : ∀ {seen seen' : List String}, (0 < limit → ∀ second ∈ rest, second ∈ seen ↔ second ∈ seen') →
      (NewSeconds limit seen rest ↔ NewSeconds limit seen' rest) := by
  induction rest with
  | nil => exact fun _ => Iff.rfl
  | cons second rest ih =>
    intro seen seen' h
    refine and_congr (forall_congr' fun hkept => ?_) (ih fun hlimit later hlater => ?_)
    · rw [h (by omega) second mem_cons_self]
    · rw [mem_append, mem_append, h hlimit later (mem_cons_of_mem _ hlater)]

theorem archiveAll_plain (h : Closed artifactType history) (writes : List (Reading × String))
    (hnew : NewSeconds limit (history.archives.keys.map stampOf) (writes.map fun write => write.1.stamp)) :
    ∀ name ∈ newest limit (archiveAll artifactType history writes).2, ∃ now : Reading, name = plainName now.stamp artifactType := by
  induction writes generalizing history with
  | nil => simp [archiveAll, newest]
  | cons write writes ih =>
    obtain ⟨hfirst, hrest⟩ := hnew
    have hstamp := (stampOf_unique history artifactType write.1).1
    have hkeys := @archive_keys artifactType history write.1 write.2
    have hlength := (@archiveAll_entries artifactType (archive artifactType history write.1 write.2).1 writes).2.1
    have hlater := ih (h.archive write.1 write.2) (by rwa [hkeys, map_append, map_singleton, hstamp])
    intro name hname
    simp only [archiveAll, newest, length_cons, hlength] at hname
    rcases Nat.lt_or_ge writes.length limit with hlt | hge
    · rw [Nat.sub_eq_zero_of_le hlt, drop_zero] at hname
      rcases mem_cons.mp hname with rfl | htail
      · refine ⟨write.1, ?_⟩
        rcases (uniqueArchiveName_spec history artifactType write.1).2 with ⟨-, heq⟩ | ⟨hplain, -⟩
        · exact heq
        · refine absurd (mem_map.mpr ⟨_, hplain, stampOf_plain write.1⟩) (hfirst ?_)
          rw [length_map]
          exact hlt
      · refine hlater name ?_
        rw [newest, hlength, Nat.sub_eq_zero_of_le hlt.le, drop_zero]
        exact htail
    · refine hlater name ?_
      rw [newest, hlength]
      rw [Nat.sub_add_comm hge, drop_succ_cons] at hname
      exact hname

theorem InOrder.step (h : InOrder limit artifactType snapshots history versions) (found : Snapshot)
    (hclock : (ArtifactHistory.seconds (snapshots ++ [found])).Pairwise (· ≤ ·)) :
    (Kept limit (snapshotCurrentArtifact limit artifactType history found).1
        (versions ++ (snapshotCurrentArtifact limit artifactType history found).2.zip (found.writes.map Prod.snd)) ↔
      NewSeconds limit (ArtifactHistory.seconds snapshots) found.seconds) ∧
    (NewSeconds limit (ArtifactHistory.seconds snapshots) found.seconds →
      InOrder limit artifactType (snapshots ++ [found]) (snapshotCurrentArtifact limit artifactType history found).1
        (versions ++ (snapshotCurrentArtifact limit artifactType history found).2.zip (found.writes.map Prod.snd))) := by
  have hseconds : ArtifactHistory.seconds (snapshots ++ [found]) = ArtifactHistory.seconds snapshots ++ found.seconds := by
    simp [ArtifactHistory.seconds]
  rw [hseconds] at hclock
  by_cases hwrites : found.writes = []
  · have hnone : found.seconds = [] := by rw [Snapshot.seconds, hwrites, map_nil]
    rw [snapshot_nothing history found hwrites, hnone]
    simp only [zip_nil_left, append_nil]
    refine ⟨⟨fun _ => trivial, fun _ => h.kept⟩, fun _ => ⟨h.entries, h.index, ?_, h.plain, h.sorted⟩⟩
    rw [hseconds, hnone, append_nil]
    exact h.seconds
  · rw [snapshot_eq history found hwrites]
    dsimp only
    obtain ⟨hentries, hlength, hstamps⟩ := @archiveAll_entries artifactType history found.writes
    have hkeys := @archiveAll_keys artifactType history found.writes
    have hmatches := (h.closed.archiveAll found.writes).matches
    have hversions : newest limit (versions ++ (archiveAll artifactType history found.writes).2.zip (found.writes.map Prod.snd)) =
        newest limit (archiveAll artifactType history found.writes).1.archives.entries := by
      rw [hentries, h.entries, newest_append]
    have hdisk : history.archives.keys.map stampOf = newest limit (ArtifactHistory.seconds snapshots) := by
      rw [← h.seconds, newest_map, Dict.keys, h.entries, map_map]
      rfl
    have hsorted : (history.archives.keys.map stampOf ++ found.writes.map fun write => write.1.stamp).Pairwise (· ≤ ·) := by
      rw [hdisk]
      exact hclock.sublist ((newest_sublist _ _).append_right _)
    have hsame : NewSeconds limit (history.archives.keys.map stampOf) (found.writes.map fun write => write.1.stamp) ↔
        NewSeconds limit (ArtifactHistory.seconds snapshots) found.seconds := by
      refine newSeconds_congr _ fun hlimit second hsecond => h.mem_seconds hlimit (hclock.sublist ?_)
      exact List.Sublist.append_left (singleton_sublist.mpr hsecond) _
    have hlast : newest limit (sortedText (archiveAll artifactType history found.writes).1.archives.keys) =
        newest limit (archiveAll artifactType history found.writes).1.archives.keys ↔
          NewSeconds limit (ArtifactHistory.seconds snapshots) found.seconds := by
      rw [hkeys, newest_sorted_append h.sorted, archiveAll_ordered_iff h.closed _ hsorted, hsame]
    refine ⟨(kept_iff hmatches hversions).trans hlast, fun hnew => ?_⟩
    have horder := hlast.mpr hnew
    have hafter : (rebuildHistoryIndex (pruneArtifactHistory limit (archiveAll artifactType history found.writes).1)).archives.entries =
        newest limit (archiveAll artifactType history found.writes).1.archives.entries := by
      rw [rebuild_archives, prune_entries hmatches, horder]
      exact filter_newest (archiveAll artifactType history found.writes).1.archives.nodup
    have hafterKeys : (rebuildHistoryIndex (pruneArtifactHistory limit (archiveAll artifactType history found.writes).1)).archives.keys =
        newest limit (archiveAll artifactType history found.writes).1.archives.keys := by
      rw [Dict.keys, hafter, ← newest_map]
      rfl
    refine ⟨hafter.trans hversions.symm, ?_, ?_, ?_, ?_⟩
    · rw [rebuild_index, pruned_index hmatches, horder, hafterKeys]
    · rw [map_append, h.seconds, hseconds, Snapshot.seconds, ← hstamps]
      congr 1
      have hfst : ((archiveAll artifactType history found.writes).2.zip (found.writes.map Prod.snd)).map Prod.fst =
          (archiveAll artifactType history found.writes).2 := map_fst_zip (by simp [hlength])
      conv_rhs => rw [← hfst, map_map]
      rfl
    · intro name hname
      rw [hafterKeys, hkeys] at hname
      rcases mem_newest_append hname with hold | hmade
      · exact h.plain name hold
      · exact archiveAll_plain h.closed found.writes (hsame.mpr hnew) name hmade
    · rw [hafterKeys, ← horder]
      exact (pairwise_insertionSort (· ≤ ·) _).sublist (newest_sublist _ _)

def Recognised (history : History) : Prop := ∀ name ∈ history.archives.keys, (matchTimestamp name).isSome = true

theorem Recognised.archiveAll (h : Recognised history) (writes : List (Reading × String)) :
    Recognised (archiveAll artifactType history writes).1 := by
  induction writes generalizing history with
  | nil => exact h
  | cons write writes ih =>
    refine ih fun name hname => ?_
    rw [archive_keys] at hname
    rcases mem_append.mp hname with hold | hnew
    · exact h name hold
    · rw [mem_singleton.mp hnew, (stampOf_unique history artifactType write.1).2]
      rfl

theorem Recognised.snapshot (h : Recognised history) (found : Snapshot) :
    Recognised (snapshotCurrentArtifact limit artifactType history found).1 := by
  by_cases hwrites : found.writes = []
  · rw [snapshot_nothing history found hwrites]
    exact h
  · rw [snapshot_eq history found hwrites]
    have hall : Recognised (ArtifactHistory.archiveAll artifactType history found.writes).1 := h.archiveAll found.writes
    intro name hname
    rw [rebuild_archives, Dict.keys, prune_entries hall] at hname
    exact hall name ((filter_sublist.map Prod.fst).mem hname)

theorem not_overwritten (h : Recognised history) (found : Snapshot) (version : String × String) (hversion : version ∈ history.archives.entries ++
      (snapshotCurrentArtifact limit artifactType history found).2.zip (found.writes.map Prod.snd)) :
    (snapshotCurrentArtifact limit artifactType history found).1.archives.get? version.1 = none ∨
      (snapshotCurrentArtifact limit artifactType history found).1.archives.get? version.1 = some version.2 := by
  by_cases hwrites : found.writes = []
  · rw [snapshot_nothing history found hwrites] at hversion ⊢
    rw [zip_nil_left, append_nil] at hversion
    exact .inr ((Dict.get?_eq_some_iff _ _ _).mpr hversion)
  · rw [snapshot_eq history found hwrites] at hversion ⊢
    rw [← (@archiveAll_entries artifactType history found.writes).1] at hversion
    exact pruned_kept (h.archiveAll found.writes) hversion

theorem run_concat (snapshots : List Snapshot) (found : Snapshot) : run limit artifactType (snapshots ++ [found]) =
      ((snapshotCurrentArtifact limit artifactType (run limit artifactType snapshots).1 found).1,
        (run limit artifactType snapshots).2 ++
          (snapshotCurrentArtifact limit artifactType (run limit artifactType snapshots).1 found).2.zip (found.writes.map Prod.snd)) := by
  simp [run]

theorem recognised_run (snapshots : List Snapshot) : Recognised (run limit artifactType snapshots).1 := by
  induction snapshots using List.reverseRecOn with
  | nil => exact fun name hname => absurd hname not_mem_nil
  | append_singleton snapshots found ih =>
    rw [run_concat]
    exact ih.snapshot found

theorem prefix_concat_iff {before : List Snapshot} {found last : Snapshot} :
    before ++ [found] <+: snapshots ++ [last] ↔ before ++ [found] <+: snapshots ∨ before = snapshots ∧ found = last := by
  rw [List.prefix_concat_iff]
  constructor
  · rintro (heq | hprefix)
    · obtain ⟨rfl, hlast⟩ := List.append_inj' heq rfl
      exact .inr ⟨rfl, (List.cons.inj hlast).1⟩
    · exact .inl hprefix
  · rintro ( hprefix | ⟨rfl, rfl⟩)
    · exact .inr hprefix
    · exact .inl rfl

theorem run_inOrder (snapshots : List Snapshot) (hclock : (seconds snapshots).Pairwise (· ≤ ·)) :
    (KeepsNewest limit artifactType snapshots ↔ MadeLater limit snapshots) ∧
      (MadeLater limit snapshots →
        InOrder limit artifactType snapshots (run limit artifactType snapshots).1 (run limit artifactType snapshots).2) := by
  induction snapshots using List.reverseRecOn with
  | nil =>
    have hnone : ∀ before (found : Snapshot), ¬ before ++ [found] <+: ([] : List Snapshot) := fun before found hprefix => by
      simpa using prefix_nil.mp hprefix
    refine ⟨⟨fun _ before found h => absurd h (hnone before found), fun _ before found h => absurd h (hnone before found)⟩, fun _ => ?_⟩
    exact ⟨by simp [run, newest, EmptyCollection.emptyCollection, Dict.empty], rfl, rfl, fun name hname => absurd hname not_mem_nil,
      List.Pairwise.nil⟩
  | append_singleton snapshots found ih =>
    have hseconds : seconds (snapshots ++ [found]) = seconds snapshots ++ found.seconds := by simp [seconds]
    obtain ⟨hiff, horder⟩ := ih (hclock.sublist (hseconds ▸ sublist_append_left _ _))
    have hkeeps : KeepsNewest limit artifactType (snapshots ++ [found]) ↔ KeepsNewest limit artifactType snapshots ∧
        Kept limit (snapshotCurrentArtifact limit artifactType (run limit artifactType snapshots).1 found).1
          ((run limit artifactType snapshots).2 ++
            (snapshotCurrentArtifact limit artifactType (run limit artifactType snapshots).1 found).2.zip
              (found.writes.map Prod.snd)) := by
      constructor
      · exact fun h => ⟨fun before other hprefix => h before other (prefix_concat_iff.mpr (.inl hprefix)),
          (h snapshots found (prefix_concat_iff.mpr (.inr ⟨rfl, rfl⟩))).2⟩
      · rintro ⟨hbefore, hkept⟩ before other hprefix
        rcases prefix_concat_iff.mp hprefix with hprefix | ⟨rfl, rfl⟩
        · exact hbefore before other hprefix
        · exact ⟨fun version hversion => not_overwritten (recognised_run before) other version hversion, hkept⟩
    have hlater : MadeLater limit (snapshots ++ [found]) ↔ MadeLater limit snapshots ∧ NewSeconds limit (seconds snapshots) found.seconds := by
      constructor
      · exact fun h => ⟨fun before other hprefix => h before other (prefix_concat_iff.mpr (.inl hprefix)),
          h snapshots found (prefix_concat_iff.mpr (.inr ⟨rfl, rfl⟩))⟩
      · rintro ⟨hbefore, hnew⟩ before other hprefix
        rcases prefix_concat_iff.mp hprefix with hprefix | ⟨rfl, rfl⟩
        · exact hbefore before other hprefix
        · exact hnew
    rw [hkeeps, hlater, hiff]
    refine ⟨and_congr_right fun hmade => ((horder hmade).step found hclock).1, ?_⟩
    rintro ⟨hmade, hnew⟩
    rw [run_concat]
    exact ((horder hmade).step found hclock).2 hnew

/-- The newest versions are kept in order exactly when every archive that stays has a second of its own. -/
theorem keeps_newest_iff (limit : Nat) (artifactType : ArtifactType) (snapshots : List Snapshot) (hclock : (seconds snapshots).Pairwise (· ≤ ·)) :
    KeepsNewest limit artifactType snapshots ↔ MadeLater limit snapshots :=
  (run_inOrder snapshots hclock).1

end Run

/-! ## A handoff -/

def plan : ArtifactType where
  name := "plan"
  letter := ⟨'p', "lan".toList, rfl, by decide⟩

def noon : Reading where
  raw := "2026-04-15T12:00:00+00:00"
  stamped := by decide +kernel

def planned : Snapshot where
  canonical := some "plan"
  handoff := some "handoff"
  now := noon
  handoffNow := noon

theorem keeps_newest_planned : KeepsNewest historyRetentionLimit plan [planned] ↔ MadeLater historyRetentionLimit [planned] :=
  keeps_newest_iff historyRetentionLimit plan [planned] (by decide +kernel)

/-- The handoff is archived after the plan and listed before it. -/
theorem handoff_listed_first : (seconds [planned]).Pairwise (· ≤ ·) ∧ ¬ KeepsNewest historyRetentionLimit plan [planned] := by
  refine ⟨by decide +kernel, fun h => ?_⟩
  obtain ⟨-, hindex⟩ := (h [] planned (prefix_refl _)).2
  exact absurd hindex (by decide +kernel)

end RalphWorkflow.ArtifactHistory
