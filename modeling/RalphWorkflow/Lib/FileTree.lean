import Mathlib.Data.List.Basic
import Mathlib.Data.Finset.Card
import Mathlib.Data.Nat.Find

/-! Where a path leads: as the system follows it, and as `realpath` does, which goes on through what is missing and takes
a link met again inside itself for a plain name. Where the first arrives, the second arrives at the same place. -/
namespace RalphWorkflow.Lib.FileTree
open List

abbrev Place := List String

structure Target where
  absolute : Bool
  parts : List String
  deriving DecidableEq

def Target.base (target : Target) (link : Place) : Place := if target.absolute then [] else link.dropLast

inductive Node where
  | directory
  | file
  | link (target : Target)
  deriving DecidableEq

structure Tree where
  entries : List (Place × Node)
  root : entries.lookup [] = some .directory
  held : ∀ entry ∈ entries, entries.lookup entry.1.dropLast = some .directory

def Tree.node (tree : Tree) (place : Place) : Option Node := tree.entries.lookup place

def Tree.isDirectory (tree : Tree) (place : Place) : Bool := decide (tree.node place = some .directory)

theorem Tree.mem_of_node {tree : Tree} {place : Place} {node : Node} (hnode : tree.node place = some node) : (place, node) ∈ tree.entries := by
  obtain ⟨before, after, hentries, -⟩ := lookup_eq_some_iff.mp hnode
  rw [hentries]
  simp

theorem Tree.isDirectory_of_node {tree : Tree} {place : Place} {name : String} {node : Node}
    (hnode : tree.node (place ++ [name]) = some node) : tree.isDirectory place = true := by
  have hheld := tree.held _ (Tree.mem_of_node hnode)
  rw [dropLast_concat] at hheld
  exact decide_eq_true hheld

theorem Tree.node_eq_none {tree : Tree} {place : Place} (hplace : tree.isDirectory place = false) (name : String) :
    tree.node (place ++ [name]) = none := by
  cases hnode : tree.node (place ++ [name]) with
  | none => rfl
  | some node => simp [Tree.isDirectory_of_node hnode] at hplace

/-! ## As the system follows a path -/

section Following

variable (tree : Tree)

/-- Name by name; `missing` says where the names from one without an entry on lead, `enter` where a link leads. -/
def walk (missing : Place → List String → Option Place) (enter : Place → Target → Option Place) : Place → List String → Option Place
  | place, [] => some place
  | place, name :: rest =>
    if name = ".." then
      if tree.isDirectory place then walk missing enter place.dropLast rest else none
    else
      match tree.node (place ++ [name]) with
      | none => missing place (name :: rest)
      | some (.link target) => (enter (place ++ [name]) target).bind fun found => walk missing enter found rest
      | some _ => walk missing enter (place ++ [name]) rest

def lastMissing (place : Place) (names : List String) : Option Place :=
  if tree.isDirectory place ∧ names.length = 1 ∧ ".." ∉ names then some (place ++ names) else none

def madeMissing (place : Place) (names : List String) : Option Place :=
  if tree.isDirectory place ∧ ".." ∉ names then some (place ++ names) else none

/-- Where a link leads, through `depth` links inside one another at most. -/
def enterLink : Nat → Place → Target → Option Place
  | 0 => fun _ _ => none
  | depth + 1 => fun link target =>
    walk tree (lastMissing tree) (enterLink depth) (target.base link) target.parts

def locate (depth : Nat) (place : Place) (names : List String) : Option Place :=
  walk tree (lastMissing tree) (enterLink tree depth) place names

/-- `locate` once the directories that are missing on the way have been made. -/
def locateMaking (depth : Nat) (place : Place) (names : List String) : Option Place :=
  walk tree (madeMissing tree) (enterLink tree depth) place names

end Following

section

variable {tree : Tree} {missing : Place → List String → Option Place} {place found : Place} {names rest : List String}
  {name : String} {depth deeper : Nat} {enter further : Place → Target → Option Place}

theorem walk_parent (hplace : tree.isDirectory place = true) :
    walk tree missing enter place (".." :: rest) = walk tree missing enter place.dropLast rest := by
  simp [walk, hplace]

theorem walk_missing (hname : name ≠ "..") (hnode : tree.node (place ++ [name]) = none) :
    walk tree missing enter place (name :: rest) = missing place (name :: rest) := by
  simp [walk, hname, hnode]

theorem walk_link (hname : name ≠ "..") {target : Target} (hnode : tree.node (place ++ [name]) = some (.link target)) :
    walk tree missing enter place (name :: rest) =
      (enter (place ++ [name]) target).bind fun found => walk tree missing enter found rest := by
  simp [walk, hname, hnode]

theorem walk_plain (hname : name ≠ "..") {node : Node} (hnode : tree.node (place ++ [name]) = some node) (hlink : ∀ target, node ≠ .link target) :
    walk tree missing enter place (name :: rest) = walk tree missing enter (place ++ [name]) rest := by
  cases node with
  | directory => simp [walk, hname, hnode]
  | file => simp [walk, hname, hnode]
  | link target => exact absurd rfl (hlink target)

theorem walk_mono (henter : ∀ link target found, enter link target = some found → further link target = some found) :
    ∀ {place : Place}, walk tree missing enter place names = some found →
      walk tree missing further place names = some found := by
  induction names with
  | nil => exact fun h => h
  | cons name rest ih =>
    intro place h
    by_cases hname : name = ".."
    · subst hname
      cases hplace : tree.isDirectory place with
      | false => simp [walk, hplace] at h
      | true =>
        rw [walk_parent hplace] at h ⊢
        exact ih h
    · cases hnode : tree.node (place ++ [name]) with
      | none =>
        rw [walk_missing hname hnode] at h ⊢
        exact h
      | some node =>
        by_cases hlink : ∃ target, node = .link target
        · obtain ⟨target, rfl⟩ := hlink
          rw [walk_link hname hnode] at h ⊢
          obtain ⟨inside, hinside, hrest⟩ := Option.bind_eq_some_iff.mp h
          rw [henter _ _ _ hinside]
          exact ih hrest
        · have hplain : ∀ target, node ≠ .link target := fun target heq => hlink ⟨target, heq⟩
          rw [walk_plain hname hnode hplain] at h ⊢
          exact ih h

theorem enterLink_mono (hle : depth ≤ deeper) {link : Place} {target : Target}
    (h : enterLink tree depth link target = some found) : enterLink tree deeper link target = some found := by
  induction depth generalizing deeper link target found with
  | zero => simp [enterLink] at h
  | succ depth ih =>
    obtain ⟨deeper, rfl⟩ : ∃ further, deeper = further + 1 := ⟨deeper - 1, by omega⟩
    exact walk_mono (fun _ _ _ => ih (by omega)) h

theorem enterLink_unique {link other : Place} {target : Target} (h : enterLink tree depth link target = some found)
    (hother : enterLink tree deeper link target = some other) : found = other := by
  have hfound := enterLink_mono (Nat.le_max_left depth deeper) h
  have hsame := enterLink_mono (Nat.le_max_right depth deeper) hother
  exact Option.some.inj (hfound.symm.trans hsame)

end

/-! ## As `realpath` does -/

section Realpath

/-- The links met so far, with the place they led to once that is known. -/
abbrev Seen := List (Place × Option Place)

variable (tree : Tree)

def walkSeen (enter : Place → Target → Seen → Place × Seen) : Seen → Place → List String → Place × Seen
  | seen, place, [] => (place, seen)
  | seen, place, name :: rest =>
    if name = ".." then walkSeen enter seen place.dropLast rest
    else
      match tree.node (place ++ [name]) with
      | some (.link target) =>
        match seen.lookup (place ++ [name]) with
        | some (some found) => walkSeen enter seen found rest
        | some none => walkSeen enter seen (place ++ [name]) rest
        | none =>
          let inside := enter (place ++ [name]) target seen
          walkSeen enter inside.2 inside.1 rest
      | _ => walkSeen enter seen (place ++ [name]) rest

def enterSeen : Nat → Place → Target → Seen → Place × Seen
  | 0 => fun link _ seen => (link, seen)
  | unmet + 1 => fun link target seen =>
    let inside := walkSeen tree (enterSeen unmet) ((link, none) :: seen) (target.base link) target.parts
    (inside.1, (link, some inside.1) :: inside.2)

def realpath (place : Place) (names : List String) : Place :=
  (walkSeen tree (enterSeen tree tree.entries.length) [] place names).1

def unmet (seen : Seen) : Nat :=
  ((tree.entries.map Prod.fst).toFinset.filter fun place => seen.lookup place = none).card

end Realpath

section

variable {tree : Tree} {place found link : Place} {names rest : List String} {name : String} {seen : Seen}
  {enter : Place → Target → Seen → Place × Seen} {value : Option Place} {target : Target}

theorem lookup_cons_self : List.lookup link ((link, value) :: seen) = some value := by simp

theorem lookup_cons_of_ne {other : Place} (hne : other ≠ link) : List.lookup other ((link, value) :: seen) = seen.lookup other := by
  rw [lookup_cons, beq_false_of_ne hne]

theorem lookup_of_cons_none {other : Place} (h : List.lookup other ((link, value) :: seen) = none) : seen.lookup other = none := by
  by_cases hother : other = link
  · subst hother
    simp at h
  · rwa [lookup_cons_of_ne hother] at h

theorem unmet_cons_le : unmet tree ((link, value) :: seen) ≤ unmet tree seen := by
  apply Finset.card_le_card
  intro other hother
  rw [Finset.mem_filter] at hother ⊢
  exact ⟨hother.1, lookup_of_cons_none hother.2⟩

theorem unmet_cons_lt {node : Node} (hnode : tree.node link = some node) (hseen : seen.lookup link = none) :
    unmet tree ((link, value) :: seen) < unmet tree seen := by
  apply Finset.card_lt_card
  rw [Finset.ssubset_iff_of_subset]
  · refine ⟨link, ?_, ?_⟩
    · have hmem : link ∈ tree.entries.map Prod.fst := mem_map.mpr ⟨_, Tree.mem_of_node hnode, rfl⟩
      rw [Finset.mem_filter, mem_toFinset]
      exact ⟨hmem, hseen⟩
    · simp
  · intro other hother
    rw [Finset.mem_filter] at hother ⊢
    exact ⟨hother.1, lookup_of_cons_none hother.2⟩

theorem unmet_nil_le : unmet tree [] ≤ tree.entries.length := by
  calc unmet tree [] ≤ (tree.entries.map Prod.fst).toFinset.card := Finset.card_filter_le _ _
    _ ≤ (tree.entries.map Prod.fst).length := toFinset_card_le _
    _ = tree.entries.length := length_map _

theorem walkSeen_parent : walkSeen tree enter seen place (".." :: rest) = walkSeen tree enter seen place.dropLast rest := by
  simp [walkSeen]

theorem walkSeen_plain (hname : name ≠ "..") (hnode : ∀ target, tree.node (place ++ [name]) ≠ some (.link target)) :
    walkSeen tree enter seen place (name :: rest) = walkSeen tree enter seen (place ++ [name]) rest := by
  cases hcase : tree.node (place ++ [name]) with
  | none => simp [walkSeen, hname, hcase]
  | some node =>
    cases node with
    | directory => simp [walkSeen, hname, hcase]
    | file => simp [walkSeen, hname, hcase]
    | link target => exact absurd hcase (hnode target)

theorem walkSeen_link (hname : name ≠ "..") (hnode : tree.node (place ++ [name]) = some (.link target)) :
    walkSeen tree enter seen place (name :: rest) =
      match seen.lookup (place ++ [name]) with
      | some (some found) => walkSeen tree enter seen found rest
      | some none => walkSeen tree enter seen (place ++ [name]) rest
      | none =>
        walkSeen tree enter (enter (place ++ [name]) target seen).2 (enter (place ++ [name]) target seen).1 rest := by
  simp only [walkSeen, if_neg hname, hnode]

theorem walkSeen_missing (hnames : ".." ∉ names) (hplace : tree.isDirectory place = false) :
    walkSeen tree enter seen place names = (place ++ names, seen) := by
  induction names generalizing place with
  | nil => simp [walkSeen]
  | cons name rest ih =>
    rw [mem_cons, not_or] at hnames
    have hnone := Tree.node_eq_none hplace name
    have hnext : tree.isDirectory (place ++ [name]) = false := by simp [Tree.isDirectory, hnone]
    rw [walkSeen_plain (Ne.symm hnames.1) (by simp [hnone]), ih hnames.2 hnext]
    simp

theorem walkSeen_first_missing (hname : name ≠ "..") (hrest : ".." ∉ rest) (hnode : tree.node (place ++ [name]) = none) :
    walkSeen tree enter seen place (name :: rest) = (place ++ name :: rest, seen) := by
  have hnext : tree.isDirectory (place ++ [name]) = false := by simp [Tree.isDirectory, hnode]
  rw [walkSeen_plain hname (by simp [hnode]), walkSeen_missing hrest hnext]
  simp

end

/-! ## Where the system arrives, `realpath` arrives -/

section

variable {tree : Tree} {missing : Place → List String → Option Place} {place found : Place} {names : List String}
  {depth : Nat} {seen : Seen}

/-- A link still being followed is followed in vain at this depth; the others lead where it says. -/
structure Sound (tree : Tree) (depth : Nat) (seen : Seen) : Prop where
  inside : ∀ link target, seen.lookup link = some none → tree.node link = some (.link target) →
    ∀ shallower ≤ depth, enterLink tree shallower link target = none
  met : ∀ link target found, seen.lookup link = some (some found) → tree.node link = some (.link target) →
    ∃ deeper, enterLink tree deeper link target = some found

theorem Sound.nil : Sound tree depth [] := ⟨nofun, nofun⟩

/-- Names without an entry lead on by themselves, and no name among them leads back. -/
def KeepsNames (missing : Place → List String → Option Place) : Prop :=
  ∀ place names found, missing place names = some found → found = place ++ names ∧ ".." ∉ names

theorem lastMissing_keepsNames : KeepsNames (lastMissing tree) := by
  intro place names found h
  unfold lastMissing at h
  split at h
  next hcase => exact ⟨(Option.some.inj h).symm, hcase.2.2⟩
  next => nomatch h

theorem madeMissing_keepsNames : KeepsNames (madeMissing tree) := by
  intro place names found h
  unfold madeMissing at h
  split at h
  next hcase => exact ⟨(Option.some.inj h).symm, hcase.2⟩
  next => nomatch h

/-- `realpath` from `seen` arrives at `found`, and what it has met then is still true. -/
structure Arrives (tree : Tree) (depth : Nat) (seen : Seen) (found : Place) (after : Place × Seen) : Prop where
  place : after.1 = found
  sound : Sound tree depth after.2
  inside : ∀ link, after.2.lookup link = some none → seen.lookup link = some none
  unmet_le : unmet tree after.2 ≤ unmet tree seen

theorem Arrives.trans {later : Seen} {after : Place × Seen} (hafter : Arrives tree depth later found after)
    (hinside : ∀ link, later.lookup link = some none → seen.lookup link = some none)
    (hunmet : unmet tree later ≤ unmet tree seen) : Arrives tree depth seen found after :=
  ⟨hafter.place, hafter.sound, fun link hlink => hinside link (hafter.inside link hlink),
    hafter.unmet_le.trans hunmet⟩

variable {link : Place} {target : Target}

theorem Sound.enter {shallow : Nat} (hsound : Sound tree depth seen) (hlink : tree.node link = some (.link target)) (hle : shallow ≤ depth)
    (hleast : ∀ shallower ≤ shallow, enterLink tree shallower link target = none) :
    Sound tree shallow ((link, none) :: seen) := by
  constructor
  · intro other otherTarget hother hnode shallower hshallower
    by_cases hsame : other = link
    · subst hsame
      rw [hlink, Option.some.injEq, Node.link.injEq] at hnode
      exact hnode ▸ hleast shallower hshallower
    · rw [lookup_cons_of_ne hsame] at hother
      exact hsound.inside other otherTarget hother hnode shallower (hshallower.trans hle)
  · intro other otherTarget found hother hnode
    by_cases hsame : other = link
    · subst hsame
      simp at hother
    · rw [lookup_cons_of_ne hsame] at hother
      exact hsound.met other otherTarget found hother hnode

theorem Sound.leave {shallow deeper : Nat} {inside : Place} {within : Seen}
    (hsound : Sound tree depth seen) (hlink : tree.node link = some (.link target))
    (hinside : enterLink tree deeper link target = some inside)
    (harrives : Arrives tree shallow ((link, none) :: seen) inside (inside, within)) :
    Sound tree depth ((link, some inside) :: within) := by
  constructor
  · intro other otherTarget hother hnode
    by_cases hsame : other = link
    · subst hsame
      simp at hother
    · rw [lookup_cons_of_ne hsame] at hother
      have hbefore := harrives.inside other hother
      rw [lookup_cons_of_ne hsame] at hbefore
      exact hsound.inside other otherTarget hbefore hnode
  · intro other otherTarget found hother hnode
    by_cases hsame : other = link
    · subst hsame
      rw [lookup_cons_self, Option.some.injEq, Option.some.injEq] at hother
      rw [hlink, Option.some.injEq, Node.link.injEq] at hnode
      subst hother hnode
      exact ⟨deeper, hinside⟩
    · rw [lookup_cons_of_ne hsame] at hother
      exact harrives.sound.met other otherTarget found hother hnode

def Follows (tree : Tree) (depth : Nat) : Prop :=
  ∀ missing, KeepsNames missing → ∀ budget seen place names found, Sound tree depth seen → unmet tree seen ≤ budget →
    walk tree missing (enterLink tree depth) place names = some found →
      Arrives tree depth seen found (walkSeen tree (enterSeen tree budget) seen place names)

theorem exists_least {inside : Place} (hinside : enterLink tree depth link target = some inside) :
    ∃ shallow < depth, enterLink tree (shallow + 1) link target = some inside ∧
      ∀ shallower ≤ shallow, enterLink tree shallower link target = none := by
  have hexists : ∃ shallow, enterLink tree shallow link target ≠ none := ⟨depth, by simp [hinside]⟩
  have hne : Nat.find hexists ≠ 0 := by
    intro hzero
    have hspec := Nat.find_spec hexists
    rw [hzero] at hspec
    exact hspec rfl
  obtain ⟨shallow, hshallow⟩ := Nat.exists_eq_succ_of_ne_zero hne
  have hle : Nat.find hexists ≤ depth := Nat.find_min' hexists (by simp [hinside])
  refine ⟨shallow, by omega, ?_, ?_⟩
  · obtain ⟨other, hother⟩ := Option.ne_none_iff_exists'.mp (Nat.find_spec hexists)
    rw [hshallow] at hother
    rw [hother, enterLink_unique hother hinside]
  · intro shallower hshallower
    have hmin := Nat.find_min hexists (show shallower < Nat.find hexists by omega)
    exact not_not.mp hmin

theorem enterSeen_arrives (hfollows : ∀ shallow < depth, Follows tree shallow) {budget : Nat} {inside : Place} (hsound : Sound tree depth seen) (hbudget : unmet tree seen ≤ budget)
    (hlink : tree.node link = some (.link target)) (hseen : seen.lookup link = none)
    (hinside : enterLink tree depth link target = some inside) :
    Arrives tree depth seen inside (enterSeen tree budget link target seen) := by
  obtain ⟨shallow, hlt, hwalk, hleast⟩ := exists_least hinside
  have hfewer : unmet tree ((link, none) :: seen) < unmet tree seen := unmet_cons_lt hlink hseen
  obtain ⟨budget, rfl⟩ : ∃ fewer, budget = fewer + 1 := ⟨budget - 1, by omega⟩
  have harrives := hfollows shallow hlt _ lastMissing_keepsNames budget _ _ _ _
    (hsound.enter hlink hlt.le hleast) (by omega) hwalk
  simp only [enterSeen]
  rw [harrives.place]
  refine ⟨rfl, hsound.leave hlink hinside ⟨rfl, harrives.sound, harrives.inside, harrives.unmet_le⟩, ?_, ?_⟩
  · intro other hother
    by_cases hsame : other = link
    · subst hsame
      simp at hother
    · rw [lookup_cons_of_ne hsame] at hother
      have hbefore := harrives.inside other hother
      rwa [lookup_cons_of_ne hsame] at hbefore
  · exact unmet_cons_le.trans (harrives.unmet_le.trans hfewer.le)

theorem follows (depth : Nat) : Follows tree depth := by
  induction depth using Nat.strong_induction_on with
  | _ depth hfollows =>
    intro missing hkeeps budget seen place names found hsound hbudget hwalk
    induction names generalizing seen place with
    | nil => exact ⟨Option.some.inj hwalk, hsound, fun _ h => h, le_refl _⟩
    | cons name rest ih =>
      by_cases hname : name = ".."
      · subst hname
        cases hplace : tree.isDirectory place with
        | false => simp [walk, hplace] at hwalk
        | true =>
          rw [walk_parent hplace] at hwalk
          rw [walkSeen_parent]
          exact ih _ _ hsound hbudget hwalk
      · cases hnode : tree.node (place ++ [name]) with
        | none =>
          rw [walk_missing hname hnode] at hwalk
          obtain ⟨hfound, hnames⟩ := hkeeps _ _ _ hwalk
          rw [mem_cons, not_or] at hnames
          rw [walkSeen_first_missing hname hnames.2 hnode, hfound]
          exact ⟨rfl, hsound, fun _ h => h, le_refl _⟩
        | some node =>
          by_cases hlink : ∃ target, node = .link target
          · obtain ⟨target, rfl⟩ := hlink
            rw [walk_link hname hnode] at hwalk
            obtain ⟨inside, hinside, hrest⟩ := Option.bind_eq_some_iff.mp hwalk
            rw [walkSeen_link hname hnode]
            cases hseen : seen.lookup (place ++ [name]) with
            | none =>
              have harrives := enterSeen_arrives hfollows hsound hbudget hnode hseen hinside
              have hrest' := ih _ _ harrives.sound (harrives.unmet_le.trans hbudget) hrest
              rw [← harrives.place] at hrest'
              exact hrest'.trans harrives.inside harrives.unmet_le
            | some value =>
              cases value with
              | none => simp [hsound.inside _ _ hseen hnode depth (le_refl _)] at hinside
              | some known =>
                obtain ⟨deeper, hknown⟩ := hsound.met _ _ _ hseen hnode
                have hsame := enterLink_unique hknown hinside
                subst hsame
                exact ih _ _ hsound hbudget hrest
          · have hplain : ∀ target, node ≠ .link target := fun target heq => hlink ⟨target, heq⟩
            rw [walk_plain hname hnode hplain] at hwalk
            rw [walkSeen_plain hname fun target heq => hplain target (Option.some.inj (hnode.symm.trans heq))]
            exact ih _ _ hsound hbudget hwalk

theorem realpath_of_walk (hkeeps : KeepsNames missing)
    (hwalk : walk tree missing (enterLink tree depth) place names = some found) : realpath tree place names = found :=
  (follows depth missing hkeeps _ _ _ _ _ Sound.nil unmet_nil_le hwalk).place

theorem realpath_of_locate (hlocate : locate tree depth place names = some found) : realpath tree place names = found :=
  realpath_of_walk lastMissing_keepsNames hlocate

theorem realpath_of_locateMaking (hlocate : locateMaking tree depth place names = some found) : realpath tree place names = found :=
  realpath_of_walk madeMissing_keepsNames hlocate

end

/-! ## The parts of a path -/

def normalize (names : List String) : Place :=
  names.foldl (fun place name => if name = ".." then place.dropLast else place ++ [name]) []

end RalphWorkflow.Lib.FileTree
