import RalphWorkflow.Pipeline.ConflictResolution.Driver
import RalphWorkflow.Proof.Resolution.Turns

/-! Whatever the runner does and whatever the worktree holds, `_run_rounds` answers yes only on the evidence of its last round, or where
there was nothing to do but to stage. -/
namespace RalphWorkflow.Resolution
open Lib Pipeline.ConflictResolution List

variable {stop : ConflictStop} {session : ResolutionSession} {path : String} {tree : Worktree}

/-! ## Kinds of paths -/

def sight (stop : ConflictStop) (path : String) : ConflictSight :=
  classifyStageMap (stop.entries path) (stop.entry.binary path) (marked stop.read stop.entry path)

def Staged (stop : ConflictStop) (path : String) : Prop := stop.added = true ∧ sight stop path = .mechanical

theorem mem_pathsOfKind {kind : ConflictSight} : path ∈ pathsOfKind kind stop.kinds ↔ path ∈ stop.conflictedFiles ∧ sight stop path = kind := by
  have hget : stop.kinds.get? path = if path ∈ stop.conflictedFiles then some (sight stop path) else none :=
    Dict.get?_ofList_map (sight stop) stop.conflictedFiles path
  have hmem : path ∈ pathsOfKind kind stop.kinds ↔ stop.kinds.get? path = some kind := by
    unfold pathsOfKind
    rw [mem_map, Dict.get?_eq_some_iff]
    constructor
    · rintro ⟨entry, hentry, rfl⟩
      obtain ⟨hentry, hkind⟩ := mem_filter.mp hentry
      exact of_decide_eq_true hkind ▸ hentry
    · exact fun hentry => ⟨(path, kind), mem_filter.mpr ⟨hentry, decide_eq_true rfl⟩, rfl⟩
  rw [hmem, hget]
  by_cases hconflicted : path ∈ stop.conflictedFiles
  · simp [hconflicted]
  · simp [hconflicted]

theorem mem_reachable : path ∈ stop.reachable ↔ path ∈ stop.conflictedFiles ∧ sight stop path ≠ .outOfReach := by
  unfold ConflictStop.reachable
  rw [mem_filter, Bool.not_eq_true', ← Bool.not_eq_true, contains_iff_mem]
  refine and_congr_right fun hconflicted => not_congr ?_
  exact mem_pathsOfKind.trans (and_iff_right hconflicted)

theorem mem_staged : path ∈ stop.staged ↔ path ∈ stop.conflictedFiles ∧ Staged stop path := by
  have hkind : path ∈ mechanicalPaths stop.kinds ↔ path ∈ stop.conflictedFiles ∧ sight stop path = .mechanical :=
    mem_pathsOfKind
  unfold ConflictStop.staged stageMechanicalConflicts Staged
  by_cases hempty : (mechanicalPaths stop.kinds).isEmpty = true
  · rw [if_pos hempty]
    rw [isEmpty_iff.mp hempty] at hkind
    exact ⟨fun h => absurd h not_mem_nil, fun h => absurd (hkind.mpr ⟨h.1, h.2.2⟩) not_mem_nil⟩
  · rw [if_neg hempty]
    by_cases hadded : stop.added = true
    · rw [if_pos hadded, hkind]
      simp [hadded]
    · rw [if_neg hadded]
      exact ⟨fun h => absurd h not_mem_nil, fun h => absurd h.2.1 hadded⟩

theorem mem_remaining : path ∈ stop.remaining ↔ path ∈ stop.conflictedFiles ∧ sight stop path ≠ .outOfReach ∧ ¬ Staged stop path := by
  unfold ConflictStop.remaining
  rw [mem_filter, Bool.not_eq_true', ← Bool.not_eq_true, contains_iff_mem, mem_reachable, mem_staged]
  tauto

theorem mem_decisions : path ∈ stop.decisions ↔ path ∈ stop.conflictedFiles ∧ sight stop path = .agentDecision := by
  unfold ConflictStop.decisions
  rw [mem_filter, contains_iff_mem, mem_reachable]
  have hkind : path ∈ declaredDecisionPaths stop.kinds ↔ path ∈ stop.conflictedFiles ∧ sight stop path = .agentDecision :=
    mem_pathsOfKind
  rw [hkind]
  constructor
  · exact And.left
  · rintro ⟨hconflicted, hdecision⟩
    exact ⟨⟨hconflicted, hdecision⟩, hconflicted, by rw [hdecision]; exact ConflictSight.noConfusion⟩

theorem reach_of_empty (h : (outOfReachPaths stop.kinds).isEmpty = true) : ∀ path ∈ stop.conflictedFiles, sight stop path ≠ .outOfReach := by
  intro path hconflicted hsight
  have hmem : path ∈ outOfReachPaths stop.kinds := mem_pathsOfKind.mpr ⟨hconflicted, hsight⟩
  exact ne_nil_of_mem hmem (isEmpty_iff.mp h)

/-! ## What a worktree shows -/

/-- A path without markers that was neither emptied nor, unless it was to be decided, deleted since the entry. -/
structure Clean (stop : ConflictStop) (tree : Worktree) (path : String) : Prop where
  unmarked : marked stop.read tree path = false
  filled : stop.entry.present path = true → stop.entry.effectivelyEmpty path = false → tree.effectivelyEmpty path = false
  there : stop.entry.present path = true → sight stop path ≠ .agentDecision → tree.present path = true

theorem foldl_addOnce (names seen : List String) (path : String) : path ∈ names.foldl addOnce seen ↔ path ∈ seen ∨ path ∈ names := by
  induction names generalizing seen with
  | nil => simp
  | cons name names ih =>
    rw [foldl_cons, ih, mem_addOnce, mem_cons]
    tauto

theorem mem_stillUnresolved : path ∈ stop.stillUnresolved tree ↔ path ∈ stop.remaining ∧ (marked stop.read tree path = true ∨
        (stop.entry.present path = true ∧ stop.entry.effectivelyEmpty path = false) ∧ tree.effectivelyEmpty path = true ∨
        stop.entry.present path = true ∧ path ∉ stop.decisions ∧ tree.present path = false) := by
  unfold ConflictStop.stillUnresolved pathsStillUnresolved
  rw [foldl_addOnce]
  simp only [not_mem_nil, false_or, mem_append, pathsWithConflictMarkers, substantiveAtEntry, presentAtEntry,
    mem_filter, Bool.and_eq_true, Bool.not_eq_true', contains_iff_mem, ← Bool.not_eq_true]
  tauto

theorem clean_of_none_left (h : (stop.stillUnresolved tree).isEmpty = true) (hremaining : path ∈ stop.remaining) : Clean stop tree path := by
  have habsent : path ∉ stop.stillUnresolved tree := fun hmem => ne_nil_of_mem hmem (isEmpty_iff.mp h)
  rw [mem_stillUnresolved] at habsent
  have hleft := not_and.mp habsent hremaining
  rw [not_or, not_or] at hleft
  obtain ⟨hmarked, hemptied, hvanished⟩ := hleft
  refine ⟨Bool.not_eq_true _ ▸ hmarked, fun hpresent hsubstantive => ?_, fun hpresent hdecision => ?_⟩
  · rw [← Bool.not_eq_true]
    exact fun hempty => hemptied ⟨⟨hpresent, hsubstantive⟩, hempty⟩
  · by_contra hgone
    exact hvanished ⟨hpresent, fun hmem => hdecision (mem_decisions.mp hmem).2, Bool.not_eq_true _ ▸ hgone⟩

/-! ## One round of the stop -/

theorem rememberDeadSurface_outOfReachPaths (session : ResolutionSession) (agent : String) :
    (rememberDeadSurface session agent).outOfReachPaths = session.outOfReachPaths := by
  unfold rememberDeadSurface
  split
  · rfl
  · rfl

theorem classify_outOfReachPaths (session : ResolutionSession) (environmental : Bool) (total failedIndex maxRetries : Nat) :
    (classifyFailedResolutionAttempt session environmental total failedIndex maxRetries).outOfReachPaths =
      session.outOfReachPaths := by
  unfold classifyFailedResolutionAttempt
  split
  · rfl
  · split
    · rfl
    · rfl

section OneRound

variable {players : Players Worktree} {round next final : Round Worktree} {attempt : RoundAttempt}

theorem tried_outOfReachPaths : (tried players round).session.outOfReachPaths = round.session.outOfReachPaths := by
  unfold tried
  rw [classify_outOfReachPaths]
  rfl

theorem Goes.outOfReachPaths (hgoes : Goes players round next) : next.session.outOfReachPaths = round.session.outOfReachPaths := by
  cases hgoes with
  | passed hbarred => rfl
  | faulted hfails hreason => exact (rememberDeadSurface_outOfReachPaths _ _).trans tried_outOfReachPaths
  | retried hfails hreason hagain hroom => exact tried_outOfReachPaths
  | spent hfails hreason hover => exact tried_outOfReachPaths

theorem Stops.outOfReachPaths (hstops : Stops players round attempt final) : final.session.outOfReachPaths = round.session.outOfReachPaths := by
  cases hstops with
  | succeeded hfree hsuccess => rfl
  | repaired hfree hfailed hrepairs => exact tried_outOfReachPaths

structure Backed (attempt : RoundAttempt) (log : List (RoundEvent Worktree)) : Prop where
  succeeded : attempt.succeeded = true →
    ∃ position invocation, .invoked position invocation ∈ log ∧ invocation.returned = .success
  agentRan : attempt.agentRan = true → attempt.succeeded = true ∨
    ∃ position invocation, .invoked position invocation ∈ log ∧ invocation.activity = true

theorem runOneRound_spec (players : Players Worktree) (session : ResolutionSession) (htotal : 0 < players.total) :
    ∃ attempt final, players.runOneRound session = some (attempt, final) ∧
      final.session.outOfReachPaths = session.outOfReachPaths ∧ Backed attempt final.log := by
  obtain ⟨first, hfirst, -, -, hordered⟩ := start_ordered players session htotal
  obtain ⟨attempt, final, hpasses⟩ := passes_end hordered (start_weight players session)
  obtain ⟨last, hlast, ⟨hrecorded, hpaths⟩, hends⟩ := passes_invariant
    (fun round => Recorded players round ∧ round.session.outOfReachPaths = (players.start session).session.outOfReachPaths)
    (fun _ _ hordered hmore hinv hgoes => ⟨hinv.1.goes hordered hmore hgoes, hgoes.outOfReachPaths.trans hinv.2⟩) hordered
    ⟨start_recorded players session, rfl⟩ hpasses
  have hstart : (players.start session).session.outOfReachPaths = session.outOfReachPaths := by
    unfold Players.start
    dsimp only
    split
    · rfl
    · rfl
  obtain ⟨-, hsucceeded, hagentRan⟩ := hends.reports hrecorded
  refine ⟨attempt, final, (if_neg (Nat.ne_of_gt htotal)).trans hpasses, ?_, hsucceeded, hagentRan⟩
  rw [← hstart, ← hpaths]
  cases hends with
  | exhausted hall => rfl
  | stopped hmore hstops => exact hstops.outOfReachPaths

end OneRound

/-! ## The verdict -/

structure Proves (stop : ConflictStop) (index : Nat) (report : RoundReport) : Prop where
  ran : ∃ session final, (stop.players index).runOneRound session = some (report.attempt, final) ∧ final.log = report.log
  invoked : ∃ position invocation, .invoked position invocation ∈ report.log
  clean : ∀ path ∈ stop.conflictedFiles, ¬ Staged stop path → Clean stop (stop.rounds index).after path
  credited : (∃ position invocation, .invoked position invocation ∈ report.log ∧ invocation.returned = .success) ∨
    (∀ path ∈ stop.conflictedFiles, sight stop path ≠ .agentDecision) ∧
      ∃ position invocation, .invoked position invocation ∈ report.log ∧ invocation.activity = true

structure Credited (stop : ConflictStop) (reports : List RoundReport) : Prop where
  reach : ∀ path ∈ stop.conflictedFiles, sight stop path ≠ .outOfReach
  evidence : (∀ path ∈ stop.conflictedFiles, Staged stop path) ∨
    ∃ report, reports.head? = some report ∧ Proves stop reports.length report

theorem resetRoundReporting_outOfReachPaths (session : ResolutionSession) :
    (resetRoundReporting session).outOfReachPaths = session.outOfReachPaths := by
  unfold resetRoundReporting
  split
  · rfl
  · rfl

theorem proves_of_route {index : Nat} {session : ResolutionSession} {attempt : RoundAttempt} {final : Round Worktree}
    (hrun : (stop.players index).runOneRound session = some (attempt, final)) (hbacked : Backed attempt final.log)
    (hreach : ∀ path ∈ stop.conflictedFiles, sight stop path ≠ .outOfReach)
    (hroute : routeAfterRound (attempt.succeeded || attempt.invoked && attempt.agentRan && stop.decisions.isEmpty)
      (stop.stillUnresolved (stop.rounds index).after) index stop.roundCap = .resolved) :
    Proves stop index ⟨attempt, final.log, stop.stillUnresolved (stop.rounds index).after⟩ := by
  have hevidence : (attempt.succeeded || attempt.invoked && attempt.agentRan && stop.decisions.isEmpty) = true ∧
      (stop.stillUnresolved (stop.rounds index).after).isEmpty = true := by
    rw [← Bool.and_eq_true]
    by_contra hnone
    unfold routeAfterRound at hroute
    rw [if_neg hnone] at hroute
    split at hroute
    · cases hroute
    · cases hroute
  obtain ⟨hworked, hnone_left⟩ := hevidence
  have hcredited : (∃ position invocation, .invoked position invocation ∈ final.log ∧ invocation.returned = .success) ∨
      (∀ path ∈ stop.conflictedFiles, sight stop path ≠ .agentDecision) ∧
        ∃ position invocation, .invoked position invocation ∈ final.log ∧ invocation.activity = true := by
    by_cases hsuccess : attempt.succeeded = true
    · exact .inl (hbacked.succeeded hsuccess)
    · rw [Bool.or_eq_true, Bool.and_eq_true, Bool.and_eq_true] at hworked
      obtain ⟨⟨-, hran⟩, hdecisions⟩ := hworked.resolve_left hsuccess
      refine .inr ⟨fun path hconflicted hsight => ?_, (hbacked.agentRan hran).resolve_left hsuccess⟩
      have hmem : path ∈ stop.decisions := mem_decisions.mpr ⟨hconflicted, hsight⟩
      exact ne_nil_of_mem hmem (isEmpty_iff.mp hdecisions)
  refine ⟨⟨session, final, hrun, rfl⟩, ?_, fun path hconflicted hstaged => ?_, hcredited⟩
  · rcases hcredited with ⟨position, invocation, hmem, -⟩ | ⟨-, position, invocation, hmem, -⟩
    · exact ⟨position, invocation, hmem⟩
    · exact ⟨position, invocation, hmem⟩
  · exact clean_of_none_left hnone_left (mem_remaining.mpr ⟨hconflicted, hreach path hconflicted, hstaged⟩)

theorem roundsFrom_credits (hcandidates : 0 < stop.candidates.length) (left index : Nat) (session : ResolutionSession)
    (reports : List RoundReport) (hindex : index = reports.length + 1)
    (hpaths : session.outOfReachPaths = outOfReachPaths stop.kinds) :
    ∃ result, stop.roundsFrom left index session reports = some result ∧ result.reports.length ≤ reports.length + left ∧
      (result.resolved = true → Credited stop result.reports) := by
  induction left generalizing index session reports with
  | zero => exact ⟨_, rfl, Nat.le_refl _, fun h => absurd h Bool.false_ne_true⟩
  | succ left ih =>
    rw [ConflictStop.roundsFrom]
    dsimp only
    split
    · exact ⟨_, rfl, Nat.le_add_right _ _, fun h => absurd h Bool.false_ne_true⟩
    split
    · exact ⟨_, rfl, Nat.le_add_right _ _, fun h => absurd h Bool.false_ne_true⟩
    obtain ⟨attempt, final, hrun, hkept, hbacked⟩ :=
      runOneRound_spec (stop.players index) (resetRoundReporting session) hcandidates
    rw [hrun]
    dsimp only
    have hlast : final.session.outOfReachPaths = outOfReachPaths stop.kinds :=
      hkept.trans ((resetRoundReporting_outOfReachPaths session).trans hpaths)
    split
    case isTrue hroute =>
      split
      case isTrue hempty =>
        rw [hlast] at hempty
        have hreach := reach_of_empty hempty
        refine ⟨_, rfl, by simp only [length_cons]; omega, fun _ => ⟨hreach, .inr ⟨_, rfl, ?_⟩⟩⟩
        rw [length_cons, ← hindex]
        exact proves_of_route hrun hbacked hreach hroute
      case isFalse hunreachable =>
        exact ⟨_, rfl, by simp only [length_cons]; omega, fun h => absurd h Bool.false_ne_true⟩
    case isFalse hroute =>
      split
      case isTrue hidle => exact ⟨_, rfl, by simp only [length_cons]; omega, fun h => absurd h Bool.false_ne_true⟩
      case isFalse hidle =>
        refine (ih (index + 1) _ _ (by rw [length_cons, hindex]) ?_).imp fun result hresult =>
          ⟨hresult.1, ?_, hresult.2.2⟩
        · exact hlast
        · have hlength := hresult.2.1
          rw [length_cons] at hlength
          omega

theorem prepare_cases (stop : ConflictStop) (session : ResolutionSession) : (stop.prepareConflictedPaths session).early = some false ∨
      (stop.prepareConflictedPaths session).early = some true ∧ (∀ path ∈ stop.conflictedFiles, sight stop path ≠ .outOfReach) ∧
        (∀ path ∈ stop.conflictedFiles, Staged stop path) ∨
      (stop.prepareConflictedPaths session).early = none ∧
        (stop.prepareConflictedPaths session).session.outOfReachPaths = outOfReachPaths stop.kinds := by
  unfold ConflictStop.prepareConflictedPaths
  dsimp only
  split
  · exact .inl rfl
  split
  · exact .inl rfl
  split
  · exact .inl rfl
  split
  · exact .inr (.inr ⟨rfl, rfl⟩)
  rename_i hremaining
  split
  · exact .inl rfl
  rename_i hunreachable
  have hreach := reach_of_empty (by rwa [Bool.not_eq_true', Bool.not_eq_false] at hunreachable)
  refine .inr (.inl ⟨rfl, hreach, fun path hconflicted => ?_⟩)
  rw [Bool.not_eq_true', Bool.not_eq_false, List.isEmpty_iff] at hremaining
  by_contra hstaged
  exact List.ne_nil_of_mem (mem_remaining.mpr ⟨hconflicted, hreach path hconflicted, hstaged⟩) hremaining

/-- `_run_rounds` ends within its rounds, and answers yes only on evidence. -/
theorem runRounds_credits (stop : ConflictStop) (session : ResolutionSession) :
    ∃ result, stop.runRounds session = some result ∧ result.reports.length ≤ stop.roundCap ∧
      (result.resolved = true → Credited stop result.reports) := by
  unfold ConflictStop.runRounds
  dsimp only
  rcases prepare_cases stop (beginResolutionStop session) with hearly | ⟨hearly, hreach, hstaged⟩ | ⟨hearly, hpaths⟩
  · rw [hearly]
    exact ⟨_, rfl, Nat.zero_le _, fun h => absurd h Bool.false_ne_true⟩
  · rw [hearly]
    exact ⟨_, rfl, Nat.zero_le _, fun _ => ⟨hreach, .inl hstaged⟩⟩
  · rw [hearly]
    dsimp only
    by_cases hempty : stop.candidates.isEmpty = true
    · rw [if_pos hempty]
      exact ⟨_, rfl, Nat.zero_le _, fun h => absurd h Bool.false_ne_true⟩
    · rw [if_neg hempty]
      have hcandidates : 0 < stop.candidates.length :=
        length_pos_iff.mpr fun hnil => hempty (isEmpty_iff.mpr hnil)
      refine (roundsFrom_credits hcandidates stop.roundCap 1 _ [] rfl ?_).imp fun result hresult =>
        ⟨hresult.1, ?_, hresult.2.2⟩
      · exact hpaths
      · have hlength := hresult.2.1
        rwa [length_nil, Nat.zero_add] at hlength

/-! ## A staged path is not read again -/

/-- Two files: sides that differ, and one blob with different modes and a line like a marker. -/
def entryTree : Worktree where
  file := fun path =>
    if path = "merge.py" then .holds "<<<<<<< ours".toUTF8.toList
    else if path = "fixture.txt" then .holds "<<<<<<< sample".toUTF8.toList
    else .missing

def repairedTree : Worktree where
  file := fun path => if path = "merge.py" then .holds "x = 1".toUTF8.toList else entryTree.file path

def blob (mode name : String) : Option StageEntry := some ⟨mode, name⟩

def mixedStop : ConflictStop where
  conflictedFiles := ["merge.py", "fixture.txt"]
  entries := fun path =>
    if path = "merge.py" then { ours := blob "100644" "a1", theirs := blob "100644" "b2" }
    else { ours := blob "100644" "c3", theirs := blob "100755" "c3" }
  entry := entryTree
  added := true
  -- One line of ASCII.
  read := fun content => some [content.map fun byte => Char.ofNat byte.toNat]
  candidates := ["claude"]
  maxRetries := 1
  roundCap := 2
  rounds := fun _ => { behaviour := fun _ _ => { returned := .success, activity := true, checkout := repairedTree }, after := repairedTree }

/-- The stop counts as resolved after one round, with a file that looks marked and one that was not staged. -/
theorem staged_path_unread : (mixedStop.runRounds {}).map (fun result => (result.resolved, result.reports.length)) = some (true, 1) ∧
      "fixture.txt" ∈ mixedStop.conflictedFiles ∧ marked mixedStop.read (mixedStop.rounds 1).after "fixture.txt" = true ∧
      "merge.py" ∈ mixedStop.conflictedFiles ∧ "merge.py" ∉ mixedStop.staged := by
  decide +kernel

end RalphWorkflow.Resolution
