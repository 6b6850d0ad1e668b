import RalphWorkflow.Mcp.Session
import RalphWorkflow.Proof.FanOut.Plan

/-! `check_edit_area` follows the links of the path as it is written; `FsWorkspace` works at its lexical normal form. The
worker stays inside its roots exactly when the second of the two ends inside every root that lets both pass. -/
namespace RalphWorkflow.Mcp
open Lib Lib.FileTree Workspace Pipeline List

/-! ## Places as text -/

section

variable {path name : String} {names : List String}

theorem pathNames_proper (hpath : path.toList.contains '\x00' = false) (hname : name ∈ pathNames path) : ProperName name := by
  obtain ⟨hmem, hkept⟩ := mem_filter.mp hname
  obtain ⟨chars, hchars, rfl⟩ := mem_map.mp hmem
  simp only [Bool.and_eq_true, bne_iff_ne, ne_eq] at hkept
  have hparts := Text.mem_of_mem_splitOn hchars
  refine ⟨hkept.1, hkept.2, ?_, ?_⟩
  · rw [String.toList_ofList]
    exact fun hslash => (hparts _ hslash).2 rfl
  · rw [String.toList_ofList]
    intro hnul
    simp [(hparts _ hnul).1] at hpath

theorem joined_proper (base : ProperPlace) (hpath : path.toList.contains '\x00' = false) : ∀ name ∈ joined base.1 path, ProperName name := by
  intro name hname
  unfold joined at hname
  split at hname
  next => exact pathNames_proper hpath hname
  next =>
    rcases mem_append.mp hname with hbase | hmem
    · exact base.2 name hbase
    · exact pathNames_proper hpath hmem

def absoluteText (names : List String) : String :=
  String.ofList ('/' :: ['/'].intercalate (names.map String.toList))

theorem isAbsolute_absoluteText : isAbsolute (absoluteText names) = true := by
  simp [isAbsolute, absoluteText]

theorem pathNames_absoluteText (hnames : ∀ name ∈ names, ProperName name) : pathNames (absoluteText names) = names := by
  unfold pathNames absoluteText
  rw [String.toList_ofList, show '/' :: ['/'].intercalate (names.map String.toList) =
    [] ++ '/' :: ['/'].intercalate (names.map String.toList) from rfl, splitOn_append_cons_self]
  cases names with
  | nil => decide
  | cons first rest =>
    have hkept : (first :: rest).filter (fun part => part != "" && part != ".") = first :: rest := by
      rw [filter_eq_self]
      intro name hname
      simp [(hnames name hname).1, (hnames name hname).2.1]
    have hchars : ∀ chars ∈ (first :: rest).map String.toList, '/' ∉ chars := by
      intro chars hchars
      obtain ⟨name, hname, rfl⟩ := mem_map.mp hchars
      exact (hnames name hname).2.2.1
    rw [splitOn_intercalate _ hchars (by simp), map_append, filter_append, map_map]
    have htexts : (first :: rest).map (String.ofList ∘ String.toList) = first :: rest := by simp
    rw [htexts, hkept]
    rfl

theorem mem_intercalate {c separator : Char} {texts : List (List Char)} (hc : c ∈ [separator].intercalate texts) :
    c = separator ∨ ∃ text ∈ texts, c ∈ text := by
  induction texts with
  | nil => simp at hc
  | cons text texts ih =>
    cases texts with
    | nil => exact .inr ⟨text, mem_cons_self, by simpa using hc⟩
    | cons next texts =>
      rw [intercalate_cons_cons, mem_append, mem_append] at hc
      rcases hc with (htext | hseparator) | hrest
      · exact .inr ⟨text, mem_cons_self, htext⟩
      · exact .inl (mem_singleton.mp hseparator)
      · rcases ih hrest with hseparator | ⟨later, hlater, hmem⟩
        · exact .inl hseparator
        · exact .inr ⟨later, mem_cons_of_mem _ hlater, hmem⟩

theorem contains_nul_absoluteText (hnames : ∀ name ∈ names, ProperName name) : (absoluteText names).toList.contains '\x00' = false := by
  rw [contains_eq_mem, decide_eq_false_iff_not, absoluteText, String.toList_ofList]
  intro hnul
  rcases mem_cons.mp hnul with hslash | hmem
  · exact absurd hslash (by decide)
  · rcases mem_intercalate hmem with hslash | ⟨chars, hchars, hnul⟩
    · exact absurd hslash (by decide)
    · obtain ⟨name, hname, rfl⟩ := mem_map.mp hchars
      exact (hnames name hname).2.2.2 hnul

theorem resolve_absoluteText (tree : Tree) (cwd : Place) (hnames : ∀ name ∈ names, ProperName name) :
    resolve tree cwd (absoluteText names) = some (realpath tree [] names) := by
  simp only [resolve, contains_nul_absoluteText hnames, isAbsolute_absoluteText, pathNames_absoluteText hnames]
  simp

end

/-! ## Where the workspace works -/

section

variable {tree : Tree} {depth : Nat} {access : Access} {lexical entry place : Place}

def entryPlace (tree : Tree) (lexical : Place) : Place :=
  realpath tree [] lexical.dropLast ++ lexical.getLast?.toList

/-- At the file for a write, in the destination's directory for a move, else at the entry. -/
def ends (tree : Tree) (depth : Nat) : Access → Place → Place
  | .write, lexical => realpath tree [] lexical
  | .moveTo _ source, lexical =>
    if follow tree depth lexical = some .directory then realpath tree [] lexical ++ source.getLast?.toList
    else entryPlace tree lexical
  | _, lexical => entryPlace tree lexical

theorem entryAt_eq (hentry : entryAt tree depth lexical = some entry) : entry = entryPlace tree lexical := by
  unfold entryAt at hentry
  cases hlast : lexical.getLast? with
  | none =>
    rw [hlast] at hentry
    rw [List.getLast?_eq_none_iff.mp hlast]
    exact (Option.some.inj hentry).symm
  | some name =>
    simp only [hlast, Option.map_eq_some_iff, Option.filter_eq_some_iff] at hentry
    obtain ⟨holder, ⟨hlocate, -⟩, rfl⟩ := hentry
    rw [entryPlace, realpath_of_locate hlocate, hlast]
    rfl

theorem moveTarget_eq {source dest target : Place} (htarget : moveTarget tree depth source dest = some target) :
    target = if follow tree depth dest = some .directory then realpath tree [] dest ++ source.getLast?.toList
      else entryPlace tree dest := by
  unfold moveTarget at htarget
  by_cases hdirectory : follow tree depth dest = some .directory
  · rw [if_pos hdirectory] at htarget ⊢
    split at htarget
    next => nomatch htarget
    next =>
      obtain ⟨holder, hholder, hname⟩ := Option.bind_eq_some_iff.mp htarget
      obtain ⟨name, hlast, hsome⟩ := Option.bind_eq_some_iff.mp hname
      split at hsome
      next => nomatch hsome
      next =>
        rw [realpath_of_locate hholder, hlast]
        exact (Option.some.inj hsome).symm
  · rw [if_neg hdirectory] at htarget ⊢
    exact entryAt_eq htarget

theorem moved_eq {overwrite : Bool} {source dest : Place} {pair : Place × Place} (hmoved : moved tree depth overwrite source dest = some pair) :
    entryAt tree depth source = some pair.1 ∧ moveTarget tree depth source dest = some pair.2 := by
  unfold moved at hmoved
  split at hmoved
  next => nomatch hmoved
  next =>
    obtain ⟨entry, hentry, hmoved⟩ := Option.bind_eq_some_iff.mp hmoved
    obtain ⟨node, -, hmoved⟩ := Option.bind_eq_some_iff.mp hmoved
    obtain ⟨target, htarget, hmoved⟩ := Option.bind_eq_some_iff.mp hmoved
    split at hmoved
    next => nomatch hmoved
    next =>
      obtain rfl := Option.some.inj hmoved
      exact ⟨hentry, htarget⟩

theorem place_eq_ends (hplace : access.place tree depth lexical = some place) : place = ends tree depth access lexical := by
  cases access with
  | write =>
    obtain ⟨hlocate, -⟩ := Option.filter_eq_some_iff.mp hplace
    exact (realpath_of_locateMaking hlocate).symm
  | remove =>
    obtain ⟨hentry, -⟩ := Option.filter_eq_some_iff.mp hplace
    exact entryAt_eq hentry
  | delete recursive =>
    simp only [Access.place] at hplace
    split at hplace
    next =>
      cases recursive with
      | false => nomatch hplace
      | true =>
        obtain ⟨hentry, -⟩ := Option.filter_eq_some_iff.mp hplace
        exact entryAt_eq hentry
    next =>
      obtain ⟨hentry, -⟩ := Option.filter_eq_some_iff.mp hplace
      exact entryAt_eq hentry
  | moveFrom overwrite dest =>
    obtain ⟨pair, hpair, rfl⟩ := Option.map_eq_some_iff.mp hplace
    exact entryAt_eq (moved_eq hpair).1
  | moveTo overwrite source =>
    obtain ⟨pair, hpair, rfl⟩ := Option.map_eq_some_iff.mp hplace
    exact moveTarget_eq (moved_eq hpair).2

end

/-! ## The check and the call -/

section

variable {tree : Tree} {depth : Nat} {cwd : Place} {root : ProperPlace} {access : Access} {path : String}

def written (tree : Tree) (root : ProperPlace) (path : String) : Place := realpath tree [] (joined root.1 path)

/-- A call ends below the place checked, or inside every root. -/
def StaysWithin (tree : Tree) (depth : Nat) (cwd : Place) (root : ProperPlace) (access : Access) (path : String) : Prop :=
  path.toList.contains '\x00' = false →
    ∀ lexical place, candidate root.1 path = some lexical → access.place tree depth lexical = some place →
      written tree root path <+: ends tree depth access lexical ∨
        ∀ text allowed, resolve tree cwd text = some allowed → realpath tree [] allowed <+: lexical →
          allowed <+: ends tree depth access lexical

theorem exists_of_mem_mapM {α β : Type} {f : α → Option β} {texts : List α} {places : List β} {place : β}
    (hplaces : texts.mapM f = some places) (hmem : place ∈ places) : ∃ text ∈ texts, f text = some place := by
  induction texts generalizing places with
  | nil =>
    rw [mapM_nil] at hplaces
    obtain rfl := Option.some.inj hplaces
    nomatch hmem
  | cons text texts ih =>
    rw [mapM_cons] at hplaces
    obtain ⟨first, hfirst, hplaces⟩ := Option.bind_eq_some_iff.mp hplaces
    obtain ⟨rest, hrest, hplaces⟩ := Option.bind_eq_some_iff.mp hplaces
    obtain rfl := Option.some.inj hplaces
    rcases mem_cons.mp hmem with rfl | hlater
    · exact ⟨text, mem_cons_self, hfirst⟩
    · obtain ⟨later, hlater, hsome⟩ := ih hrest hlater
      exact ⟨later, mem_cons_of_mem _ hlater, hsome⟩

/-- What the check approves and the workspace touches is inside a root. -/
def Confined (tree : Tree) (depth : Nat) (cwd : Place) (root : ProperPlace) (access : Access) (path : String) : Prop :=
  ∀ (session : FileBackedSession) (allowedRoots : List Place) (place : Place), session.workspaceRoot = root →
    session.isParallelWorker = true → session.allowedRoots tree cwd = some allowedRoots →
    session.checkEditArea tree cwd path = some .approved →
    (FsWorkspace.build tree root.1 allowedRoots).place tree depth access path = some place →
    ∃ allowed ∈ allowedRoots, allowed <+: place

theorem approved_iff {session : FileBackedSession} {allowedRoots : List Place} (hroot : session.workspaceRoot = root)
    (hworker : session.isParallelWorker = true) (hroots : session.allowedRoots tree cwd = some allowedRoots) :
    session.checkEditArea tree cwd path = some .approved ↔
      path.toList.contains '\x00' = false ∧ ∃ allowed ∈ allowedRoots, allowed <+: written tree root path := by
  simp only [FileBackedSession.checkEditArea, hworker, if_true, hroots, Option.map_some, hroot, resolveBelow, written]
  cases hnul : path.toList.contains '\x00' with
  | true => cases allowedRoots <;> simp
  | false =>
    cases allowedRoots with
    | nil => simp
    | cons first rest =>
      by_cases hfirst : first <+: realpath tree [] (joined root.1 path)
      · simp [hfirst]
      · simp [hfirst]

theorem place_eq_some {workspace : FsWorkspace} {place : Place} (hplace : workspace.place tree depth access path = some place) :
    path.toList.contains '\x00' = false ∧ ∃ lexical, candidate workspace.root path = some lexical ∧
      (∃ allowed ∈ workspace.allowedRoots, allowed <+: lexical) ∧ access.place tree depth lexical = some place := by
  unfold FsWorkspace.place at hplace
  cases hnul : path.toList.contains '\x00' with
  | true =>
    rw [hnul] at hplace
    nomatch hplace
  | false =>
    rw [hnul] at hplace
    obtain ⟨lexical, habs, hplace⟩ := Option.bind_eq_some_iff.mp hplace
    obtain ⟨hcandidate, hany⟩ := Option.filter_eq_some_iff.mp habs
    obtain ⟨allowed, hmem, hprefixed⟩ := any_eq_true.mp hany
    exact ⟨rfl, lexical, hcandidate, ⟨allowed, hmem, isPrefixOf_iff_prefix.mp hprefixed⟩, hplace⟩

theorem confined_of_staysWithin (hstays : StaysWithin tree depth cwd root access path) : Confined tree depth cwd root access path := by
  intro session allowedRoots place hroot hworker hroots happroved hplace
  obtain ⟨hnul, allowed, hallowed, hwritten⟩ := (approved_iff hroot hworker hroots).mp happroved
  obtain ⟨-, lexical, hcandidate, ⟨built, hbuilt, hlexical⟩, hplace⟩ := place_eq_some hplace
  have hends := place_eq_ends hplace
  rcases hstays hnul lexical place hcandidate hplace with habove | hinside
  · exact ⟨allowed, hallowed, hends ▸ hwritten.trans habove⟩
  · have hne : allowedRoots.isEmpty = false := by
      cases allowedRoots with
      | nil => nomatch hallowed
      | cons first rest => rfl
    simp only [FsWorkspace.build, hne, Bool.false_eq_true, if_false] at hbuilt
    obtain ⟨other, hother, rfl⟩ := mem_map.mp hbuilt
    obtain ⟨text, -, htext⟩ := exists_of_mem_mapM hroots hother
    exact ⟨other, hother, hends ▸ hinside text other htext hlexical⟩

def workerPayload (first second : String) : Payload where
  entries := [("parallel_worker", .bool true), ("allowed_roots", .list [.str first, .str second])]
  nodup := by simp

theorem staysWithin_of_confined (hconfined : Confined tree depth cwd root access path) : StaysWithin tree depth cwd root access path := by
  intro hnul lexical place hcandidate hplace
  by_contra hneither
  obtain ⟨hwritten, hinside⟩ := not_or.mp hneither
  push Not at hinside
  obtain ⟨text, allowed, htext, hlexical, hallowed⟩ := hinside
  -- the place that the check looks at and the root that lets the normal form pass, and no other root
  let session : FileBackedSession :=
    { payload := workerPayload (absoluteText (joined root.1 path)) text, workerArtifactDirEnv := none,
      workspaceRoot := root }
  have hself := resolve_absoluteText tree cwd (joined_proper root hnul)
  have hroots : session.allowedRoots tree cwd = some [written tree root path, allowed] := by
    have hstrings : session.payload.strings? "allowed_roots" = some [absoluteText (joined root.1 path), text] := rfl
    simp only [FileBackedSession.allowedRoots, Payload.allowedRoots, hstrings, Option.getD_some, mapM_cons,
      mapM_nil, hself, htext]
    rfl
  have happroved : session.checkEditArea tree cwd path = some .approved :=
    (approved_iff rfl rfl hroots).mpr ⟨hnul, _, mem_cons_self, prefix_refl _⟩
  have hat : (FsWorkspace.build tree root.1 [written tree root path, allowed]).place tree depth access path = some place := by
    have habs : (FsWorkspace.build tree root.1 [written tree root path, allowed]).abs path = some lexical := by
      refine Option.filter_eq_some_iff.mpr ⟨hcandidate, any_eq_true.mpr ⟨realpath tree [] allowed, ?_, ?_⟩⟩
      · simp [FsWorkspace.build]
      · exact isPrefixOf_iff_prefix.mpr hlexical
    simp only [FsWorkspace.place, hnul, habs, Option.bind_some, Bool.false_eq_true, if_false]
    exact hplace
  obtain ⟨root', hroot', hbelow⟩ := hconfined session _ place rfl rfl hroots happroved hat
  rw [place_eq_ends hplace] at hbelow
  rcases mem_cons.mp hroot' with rfl | hroot'
  · exact hwritten hbelow
  · rw [mem_singleton.mp hroot'] at hbelow
    exact hallowed hbelow

end

/-! ## Ordinary paths, and two ways out -/

section

variable {tree : Tree} {depth : Nat} {cwd : Place} {root : ProperPlace} {access : Access} {path : String}

variable {names : List String}

end

/-- With two links, one into a directory below, one to the directory beside. -/
def linkedTree : Tree where
  entries :=
    [([], .directory), (["ws"], .directory), (["ws", "own"], .directory), (["ws", "own", "deep"], .directory),
     (["ws", "own", "deep", "sub"], .directory), (["ws", "own", "back"], .link ⟨false, ["deep", "sub"]⟩),
     (["ws", "own", "out"], .link ⟨false, ["..", "other"]⟩), (["ws", "other"], .directory),
     (["ws", "other", "entry"], .link ⟨false, ["..", "own", "f"]⟩)]
  root := rfl
  held := by decide

def linkedSession : FileBackedSession where
  payload := workerPayload "/ws/own" "/ws/own"
  workerArtifactDirEnv := none
  workspaceRoot := ⟨["ws"], by decide⟩

theorem linkedSession_roots : linkedSession.allowedRoots linkedTree [] = some [["ws", "own"], ["ws", "own"]] := by
  decide +kernel

end RalphWorkflow.Mcp

/-! ## The two sessions of one payload

A `FileBackedSession` and the `AgentSession` built of the same payload hold the same capabilities. They differ on who is a parallel worker, and on
every path that a worker may not touch. -/

namespace RalphWorkflow.Mcp

open Lib Lib.FileTree Workspace AgentSession


section

variable {tree : Tree} {cwd : Place} {session : FileBackedSession} {agent : AgentSession}

theorem ofPayload_eq_some {payload : Payload} (hagent : ofPayload tree cwd payload = some agent) :
    payload.allowedRoots tree cwd = some agent.allowedRoots ∧ agent.capabilities = payload.capabilities ∧
      agent.parallelWorker = payload.parallelWorker ∧ agent.editAreaResult = none := by
  obtain ⟨allowedRoots, hroots, rfl⟩ := Option.map_eq_some_iff.mp hagent
  exact ⟨hroots, rfl, rfl, rfl⟩

theorem checkCapability_eq (hagent : ofPayload tree cwd session.payload = some agent) (lower : String → String) (capability : String) :
    session.checkCapability lower capability = agent.checkCapability lower capability := by
  obtain ⟨-, hcapabilities, -⟩ := ofPayload_eq_some hagent
  simp only [FileBackedSession.checkCapability, checkCapability, hcapabilities]

theorem isParallelWorker_eq_iff (hagent : ofPayload tree cwd session.payload = some agent) :
    session.isParallelWorker = agent.isParallelWorker ↔
      session.payload.parallelWorker = true ∨ session.workerArtifactDir = none := by
  obtain ⟨-, -, hworker, -⟩ := ofPayload_eq_some hagent
  simp only [FileBackedSession.isParallelWorker, isParallelWorker, hworker]
  cases session.payload.parallelWorker <;> simp

theorem checkEditArea_of_agent (hagent : ofPayload tree cwd session.payload = some agent) (path : String) :
    agent.checkEditArea path = .approved := by
  obtain ⟨-, -, -, hresult⟩ := ofPayload_eq_some hagent
  simp only [checkEditArea, hresult, Option.getD_none]

def InsideRoots (tree : Tree) (cwd : Place) (session : FileBackedSession) (path : String) : Prop :=
  ∃ allowedRoots resolved, session.allowedRoots tree cwd = some allowedRoots ∧
    resolveBelow tree session.workspaceRoot.1 path = some resolved ∧ ∃ root ∈ allowedRoots, root <+: resolved

theorem checkEditArea_worker (hworker : session.isParallelWorker = true) (path : String) :
    session.checkEditArea tree cwd path = some .approved ↔ InsideRoots tree cwd session path := by
  simp only [FileBackedSession.checkEditArea, hworker, if_true, InsideRoots]
  cases hroots : session.allowedRoots tree cwd with
  | none => simp
  | some allowedRoots =>
    cases hresolved : resolveBelow tree session.workspaceRoot.1 path with
    | none => cases allowedRoots <;> simp
    | some resolved =>
      cases allowedRoots with
      | nil => simp
      | cons root roots =>
        by_cases hroot : root <+: resolved
        · simp [hroot]
        · simp [hroot]

theorem checkEditArea_of_not_worker (hworker : session.isParallelWorker = false) (path : String) :
    session.checkEditArea tree cwd path = some .approved := by
  simp [FileBackedSession.checkEditArea, hworker]

/-- A worker asks for a path inside its roots, or no artifact directory makes the session one. -/
def SamePolicy (tree : Tree) (cwd : Place) (session : FileBackedSession) (path : String) : Prop :=
  if session.payload.parallelWorker then InsideRoots tree cwd session path else session.workerArtifactDir = none

theorem sessions_agree_iff (hagent : ofPayload tree cwd session.payload = some agent)
    (lower : String → String) (capability path : String) :
    (session.checkCapability lower capability = agent.checkCapability lower capability ∧ session.isParallelWorker = agent.isParallelWorker ∧
        session.checkEditArea tree cwd path = some (agent.checkEditArea path)) ↔
      SamePolicy tree cwd session path := by
  rw [checkEditArea_of_agent hagent, isParallelWorker_eq_iff hagent, SamePolicy]
  have hcapability := checkCapability_eq hagent lower capability
  cases hflag : session.payload.parallelWorker with
  | true =>
    have hworker : session.isParallelWorker = true := by simp [FileBackedSession.isParallelWorker, hflag]
    rw [checkEditArea_worker hworker]
    simp [hcapability]
  | false =>
    constructor
    · rintro ⟨-, hsame, -⟩
      simpa using hsame
    · intro hdir
      have hdir' : session.workerArtifactDir = none := by simpa using hdir
      have hworker : session.isParallelWorker = false := by simp [FileBackedSession.isParallelWorker, hflag, hdir']
      exact ⟨hcapability, .inr hdir', checkEditArea_of_not_worker hworker path⟩

end

/-! ## A worker confined by one session only -/

def twoDirectories : Tree where
  entries := [([], .directory), (["ws"], .directory), (["ws", "a"], .directory), (["ws", "b"], .directory)]
  root := rfl
  held := by decide

def confinedPayload : Payload where
  entries := [("parallel_worker", .bool true), ("allowed_roots", .list [.str "/ws/a"])]
  nodup := by decide

def confinedSession : FileBackedSession where
  payload := confinedPayload
  workerArtifactDirEnv := none
  workspaceRoot := ⟨["ws"], by decide⟩

def confinedAgent : AgentSession where
  capabilities := []
  parallelWorker := true
  editAreaResult := none
  workerArtifactDir := none
  allowedRoots := [["ws", "a"]]

theorem confinedAgent_built : ofPayload twoDirectories [] confinedSession.payload = some confinedAgent := by
  have hroots : confinedPayload.allowedRoots twoDirectories [] = some [["ws", "a"]] := by decide +kernel
  simp only [ofPayload, confinedSession, hroots, Option.map_some]
  rfl

/-- On its own path both sessions answer alike. -/
theorem sessions_agree_own_path : confinedSession.checkEditArea twoDirectories [] "a/f" = some (confinedAgent.checkEditArea "a/f") :=
  ((sessions_agree_iff confinedAgent_built id "WebSearch" "a/f").mpr
    ((checkEditArea_worker rfl "a/f").mp (by decide +kernel))).2.2

/-- The session file's worker is refused `b/f`, the same worker in an agent session is not. -/
theorem refused_path_approved : confinedSession.checkEditArea twoDirectories [] "b/f" = some .denied ∧
      (ofPayload twoDirectories [] confinedSession.payload).map (·.checkEditArea "b/f") =
        some .approved := by
  decide +kernel

/-! ## The workers of one plan -/

open Pipeline FanOut List

/-- `session_file` of the worker process of a unit. -/
structure WorksOn (tree : Tree) (root : ProperPlace) (unit : WorkUnit) (session : FileBackedSession) : Prop where
  workspace : session.workspaceRoot = root
  worker : session.payload.parallelWorker = true
  roots : ∃ places, forSameWorkspaceWorker tree root.1 unit.allowedDirectories (workerNamespace root.1 unit) = some places ∧
    session.payload.strings? "allowed_roots" = some (places.map absoluteText)

/-- Below the root: the declared directories and the namespace, as they are spelled. -/
def declared (unit : WorkUnit) : List Place := [".agent", "workers", unit.unitId] :: unit.allowedDirectories.map pathNames

section

variable {tree : Tree} {cwd : Place} {root : ProperPlace} {session : FileBackedSession} {unit u v : WorkUnit} {path : String}
  {plan : WorkUnitsPlan}

theorem unitId_proper (h : isUnitId unit.unitId = true) : ProperName unit.unitId := by
  simp only [isUnitId, Bool.and_eq_true, all_eq_true, decide_eq_true_eq] at h
  obtain ⟨⟨hlength, -⟩, hall⟩ := h
  have hout : ∀ c ∈ ['/', '\x00', '.'], c ∉ unit.unitId.toList := fun c hc hmem => by
    have hletter := hall c hmem
    simp only [mem_cons, not_mem_nil, or_false] at hc
    rcases hc with rfl | rfl | rfl <;> exact absurd hletter (by decide)
  refine ⟨fun heq => ?_, fun heq => ?_, hout _ (by simp), hout _ (by simp)⟩
  · rw [heq] at hlength
    exact absurd hlength (by decide)
  · exact hout '.' (by simp) (by rw [heq]; decide)

theorem pathParts_of_relative (h : isAbsolute path = false) : pathParts path = pathNames path := by
  unfold isAbsolute at h
  unfold pathParts pathNames
  cases htext : path.toList with
  | nil => rfl
  | cons c rest =>
    rw [htext] at h
    have hc : c ≠ '/' := fun heq => by simp [heq] at h
    simp [hc.symm]

/-- A worker's session approves what is below a declared place, when no link leads to the declared places. -/
theorem approved_declared (hworks : WorksOn tree root unit session) (hid : isUnitId unit.unitId = true)
    (hrelative : ∀ directory ∈ unit.allowedDirectories, isAbsolute directory = false) (hroot : realpath tree [] root.1 = root.1)
    (hplain : ∀ place ∈ declared unit, realpath tree [] (root.1 ++ place) = root.1 ++ place)
    (happroved : session.checkEditArea tree cwd path = some .approved) : ∃ place ∈ declared unit, root.1 ++ place <+: written tree root path := by
  obtain ⟨hsame, hworker, places, hplaces, htexts⟩ := hworks
  have hparallel : session.isParallelWorker = true := by simp [FileBackedSession.isParallelWorker, hworker]
  obtain ⟨allowedRoots, hroots⟩ : ∃ allowedRoots, session.allowedRoots tree cwd = some allowedRoots := by
    rw [FileBackedSession.checkEditArea, if_pos hparallel] at happroved
    obtain ⟨allowedRoots, hroots, -⟩ := Option.map_eq_some_iff.mp happroved
    exact ⟨allowedRoots, hroots⟩
  obtain ⟨-, allowed, hallowed, hbelow⟩ := (approved_iff hsame hparallel hroots).mp happroved
  simp only [FileBackedSession.allowedRoots, Payload.allowedRoots, htexts, Option.getD_some] at hroots
  obtain ⟨text, htext, hresolved⟩ := exists_of_mem_mapM hroots hallowed
  obtain ⟨found, hfound, rfl⟩ := mem_map.mp htext
  -- a root of the scope is a declared place, with names that can be written down
  obtain ⟨place, hplace, rfl, hproper⟩ : ∃ place ∈ declared unit, found = root.1 ++ place ∧ ∀ name ∈ place, ProperName name := by
    rw [forSameWorkspaceWorker, hroot] at hplaces
    obtain ⟨own, hown, rfl⟩ := Option.map_eq_some_iff.mp hplaces
    rcases mem_append.mp hfound with hmem | hmem
    · obtain ⟨directory, hdirectory, hsome⟩ := exists_of_mem_mapM hown hmem
      split at hsome
      · nomatch hsome
      obtain ⟨hbelow, -⟩ := Option.filter_eq_some_iff.mp hsome
      unfold resolveBelow at hbelow
      split at hbelow
      · nomatch hbelow
      rename_i hnul
      have hmem : pathNames directory ∈ declared unit := mem_cons_of_mem _ (mem_map_of_mem hdirectory)
      simp only [joined, hrelative directory hdirectory, Bool.false_eq_true, if_false, hplain _ hmem, Option.some.injEq] at hbelow
      exact ⟨_, hmem, hbelow.symm, fun name hname => pathNames_proper (by simpa using hnul) hname⟩
    · refine ⟨_, mem_cons_self, (mem_singleton.mp hmem).trans (hplain _ mem_cons_self), ?_⟩
      simpa using ⟨by decide, by decide, unitId_proper hid⟩
  rw [resolve_absoluteText tree cwd (by simpa [or_imp, forall_and] using ⟨root.2, hproper⟩), hplain _ hplace] at hresolved
  exact ⟨place, hplace, Option.some.inj hresolved ▸ hbelow⟩

theorem declared_apart (hvalid : validateForSameWorkspace plan.workUnits = .ok ()) (hu : u ∈ plan.workUnits) (hv : v ∈ plan.workUnits)
    (hids : u.unitId ≠ v.unitId) {a b : Place} (ha : a ∈ declared u) (hb : b ∈ declared v) : ¬ a <+: b := by
  obtain ⟨_, hareas, hoverlap⟩ := (bind_eq_ok_iff _ _ _).mp hvalid
  -- no declared directory begins with the directory of the namespaces
  have hfirst : ∀ w ∈ plan.workUnits, ∀ directory ∈ w.allowedDirectories,
      ∃ first rest, pathNames directory = first :: rest ∧ first ≠ ".agent" := by
    intro w hw directory hdirectory
    obtain ⟨first, rest, hparts, hfree⟩ := checkReserved_ok (checkEditAreas_ok ((forM_eq_ok_iff _ _).mp hareas w hw) hdirectory)
    rw [pathParts_of_relative (relative_of_built plan hw hdirectory).1] at hparts
    exact ⟨first, rest, hparts, fun heq => hfree (heq ▸ by decide)⟩
  rcases mem_cons.mp ha with rfl | ha <;> rcases mem_cons.mp hb with rfl | hb
  · simpa using hids
  · obtain ⟨directory, hdirectory, rfl⟩ := mem_map.mp hb
    obtain ⟨first, rest, hparts, hne⟩ := hfirst v hv directory hdirectory
    simp [hparts, hne.symm]
  · obtain ⟨directory, hdirectory, rfl⟩ := mem_map.mp ha
    obtain ⟨first, rest, hparts, hne⟩ := hfirst u hu directory hdirectory
    simp [hparts, hne]
  · obtain ⟨directory, hdirectory, rfl⟩ := mem_map.mp ha
    obtain ⟨other, hother, rfl⟩ := mem_map.mp hb
    have happart := (apart_of_checked hoverlap hu hv hids directory hdirectory other hother).1
    rwa [Encloses, pathParts_of_relative (relative_of_built plan hu hdirectory).1,
      pathParts_of_relative (relative_of_built plan hv hother).1] at happart

/-- No place is approved for two workers of an accepted plan, where no link leads to what they declare. -/
theorem workers_apart (plan : WorkUnitsPlan) (hvalid : validateForSameWorkspace plan.workUnits = .ok ())
    (hids : ∀ unit ∈ plan.workUnits, isUnitId unit.unitId = true) (tree : Tree) (root : ProperPlace) (hroot : realpath tree [] root.1 = root.1)
    (hplain : ∀ unit ∈ plan.workUnits, ∀ place ∈ declared unit, realpath tree [] (root.1 ++ place) = root.1 ++ place) :
    plan.workUnits.Pairwise fun u v => ∀ (first second : FileBackedSession) (cwd : Place) (path other : String),
      WorksOn tree root u first → WorksOn tree root v second → first.checkEditArea tree cwd path = some .approved →
      second.checkEditArea tree cwd other = some .approved → written tree root path ≠ written tree root other := by
  have hunique : (ids plan.workUnits).Nodup := ((validateGraph_iff _).mp plan.graph).unique
  refine (pairwise_map.mp hunique).imp_of_mem fun {u v} hu hv hne first second cwd path other hfirst hsecond hpath hother hsame => ?_
  have hrelative : ∀ unit ∈ plan.workUnits, ∀ directory ∈ unit.allowedDirectories, isAbsolute directory = false :=
    fun unit hunit directory hdirectory => (relative_of_built plan hunit hdirectory).1
  obtain ⟨a, ha, habove⟩ := approved_declared hfirst (hids u hu) (hrelative u hu) hroot (hplain u hu) hpath
  obtain ⟨b, hb, hbelow⟩ := approved_declared hsecond (hids v hv) (hrelative v hv) hroot (hplain v hv) hother
  rw [hsame] at habove
  rcases prefix_or_prefix_of_prefix habove hbelow with hprefix | hprefix
  · exact declared_apart hvalid hu hv hne ha hb ((prefix_append_right_inj _).mp hprefix)
  · exact declared_apart hvalid hv hu hne.symm hb ha ((prefix_append_right_inj _).mp hprefix)

end

def workerOf (directory own : String) : FileBackedSession := ⟨workerPayload directory own, none, ⟨["ws"], by decide⟩⟩

def onePerDirectory : WorkUnitsPlan where
  workUnits := [⟨"1", ["a"], []⟩, ⟨"2", ["b"], []⟩]
  built := by decide
  graph := by decide

theorem onePerDirectory_apart : written twoDirectories ⟨["ws"], by decide⟩ "a/f" ≠ written twoDirectories ⟨["ws"], by decide⟩ "b/f" :=
  (pairwise_cons.mp (workers_apart onePerDirectory (by decide) (by decide) twoDirectories ⟨["ws"], by decide⟩ (by decide) (by decide))).1 _
    (mem_singleton_self _) (workerOf "/ws/a" "/ws/.agent/workers/1") (workerOf "/ws/b" "/ws/.agent/workers/2") [] "a/f" "b/f"
    ⟨rfl, rfl, _, rfl, rfl⟩ ⟨rfl, rfl, _, rfl, rfl⟩ (by decide +kernel) (by decide +kernel)

end RalphWorkflow.Mcp
