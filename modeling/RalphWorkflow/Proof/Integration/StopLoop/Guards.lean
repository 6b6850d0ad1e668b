import RalphWorkflow.Pipeline.ConflictResolution.RebaseLoop

/-! One function continues, after the index query or a skip. An attempt is followed by a marker scan of its stop before the pass
comes to that function. -/
/-! ## What the loop over the stops of a rebase asks

Conditions on the log, and the functions that are quiet: they neither continue the rebase, nor attempt a resolution, nor begin a
pass.
-/

namespace RalphWorkflow.Integration

open Lib Lib.Effect Git Pipeline.ConflictResolution Emits


/-! ## What the log says -/

def isPass : Act → Bool
  | .pass => true
  | _ => false

def continues : Act → Bool
  | .asked .rebaseContinue _ => true
  | _ => false

def attempts : Act → Bool
  | .asked (.resolver _ _) _ => true
  | .asked (.tryDeterministicResolution _) _ => true
  | _ => false

def asksResolver : Act → Bool
  | .asked (.resolver _ _) _ => true
  | _ => false

def justClean : List Act → Bool
  | .asked .indexConflicts (.ok false) :: _ => true
  | _ => false

/-- An emptied replay has just been skipped, and the rebase is still in progress. -/
def afterSkip : List Act → Bool
  | .asked .rebaseInProgress (.ok true) :: .asked .rebaseSkip (.ok _) :: _ => true
  | _ => false

def AttemptedOn (paths : List String) : List Act → Prop
  | [] => True
  | .pass :: _ => True
  | .asked (.resolver _ stop) _ :: _ => stop.conflictedFiles = paths
  | .asked (.tryDeterministicResolution stop) _ :: _ => stop.conflictedFiles = paths
  | .asked _ _ :: rest => AttemptedOn paths rest

/-- Since the newest attempt of the pass, a marker scan of its stop's paths has reported none. -/
def AttemptProved : List Act → Prop
  | [] => True
  | .pass :: _ => True
  | .asked (.resolver _ _) _ :: _ => False
  | .asked (.tryDeterministicResolution _) _ :: _ => False
  | .asked (.pathsWithConflictMarkers paths) (.ok []) :: rest => AttemptedOn paths rest ∨ AttemptProved rest
  | .asked _ _ :: rest => AttemptProved rest

def Guarded : List Act → Prop
  | [] => True
  | act :: older => (continues act = true → (justClean older = true ∨ afterSkip older = true) ∧ AttemptProved older) ∧ Guarded older

def passes (log : List Act) : Nat := log.countP isPass

def resolverCalls (log : List Act) : Nat := log.countP asksResolver

/-! ## Quiet entries -/

def Quiet (act : Act) : Prop := isPass act = false ∧ continues act = false ∧ attempts act = false

variable {act : Act} {log : List Act}

theorem guarded_other (hact : continues act = false) (h : Guarded log) : Guarded (act :: log) :=
  ⟨fun hcontinues => absurd hcontinues (by simp [hact]), h⟩

theorem guarded_quiet (hact : Quiet act) (h : Guarded log) : Guarded (act :: log) :=
  guarded_other hact.2.1 h

theorem attemptedOn_quiet (paths : List String) (hact : Quiet act) (h : AttemptedOn paths log) : AttemptedOn paths (act :: log) := by
  obtain ⟨hpass, -, hattempts⟩ := hact
  cases act with
  | pass => cases hpass
  | asked query answer => cases query <;> first | exact h | cases hattempts

theorem attemptProved_quiet (hact : Quiet act) (h : AttemptProved log) : AttemptProved (act :: log) := by
  obtain ⟨hpass, -, hattempts⟩ := hact
  cases act with
  | pass => cases hpass
  | asked query answer =>
    cases query with
    | resolver target stop => cases hattempts
    | tryDeterministicResolution stop => cases hattempts
    | pathsWithConflictMarkers paths =>
      match answer with
      | .error exc => exact h
      | .ok [] => exact .inr h
      | .ok (path :: rest) => exact h
    | _ => exact h

variable {answers : Answers}

theorem triple_ask {query : Query} {P : List Act → Prop} {Q : query.Answer → List Act → Prop} {E : Exc → List Act → Prop}
    (hok : ∀ log answer, P log → Q answer (.asked query (.ok answer) :: log))
    (herror : ∀ log exc, P log → E exc (.asked query (.error exc) :: log)) : Triple P (ask answers query) Q E := by
  intro log hlog
  unfold ask
  cases answers log query with
  | ok answer => exact hok log answer hlog
  | error exc => exact herror log exc hlog

theorem emits_ask {R : Act → Prop} {query : Query} (h : ∀ answer, R (.asked query answer)) : Emits R (ask answers query) :=
  fun _ hI => triple_ask (fun log _ hlog => hI _ log (h _) hlog) fun log _ hlog => hI _ log (h _) hlog

/-! ## Quiet functions -/

theorem readRebaseStateSha_quiet (relatives : List String) : Emits Quiet (readRebaseStateSha answers relatives) := by
  induction relatives with
  | nil => exact Emits.pure none
  | cons relative rest ih =>
    refine bind (emits_ask fun _ => ⟨rfl, rfl, rfl⟩) fun result => ?_
    split
    · exact Emits.pure none
    · refine bind (emits_ask fun _ => ⟨rfl, rfl, rfl⟩) fun text => ?_
      cases text with
      | none => exact ih
      | some text =>
        dsimp only
        split
        · exact ih
        · exact Emits.pure _

theorem currentRebaseIdentity_quiet : Emits Quiet (currentRebaseIdentity answers) :=
  bind (readRebaseStateSha_quiet _) fun _ => bind (readRebaseStateSha_quiet _) fun _ => Emits.pure _

theorem readReplayProgress_quiet (files : List (String × String)) : Emits Quiet (readReplayProgress answers files) := by
  induction files with
  | nil => exact Emits.pure none
  | cons file rest ih =>
    refine bind (emits_ask fun _ => ⟨rfl, rfl, rfl⟩) fun current => ?_
    refine bind (emits_ask fun _ => ⟨rfl, rfl, rfl⟩) fun total => ?_
    split
    · split
      · exact Emits.pure _
      · exact ih
    · exact ih

theorem revParseRebaseHead_quiet : Emits Quiet (revParseRebaseHead answers) :=
  bind (emits_ask fun _ => ⟨rfl, rfl, rfl⟩) fun _ => Emits.pure _

theorem loadProgressForRebase_quiet (featureSha targetSha : Option String) : Emits Quiet (loadProgressForRebase answers featureSha targetSha) := by
  refine bind (emits_ask fun _ => ⟨rfl, rfl, rfl⟩) fun progress => ?_
  cases progress with
  | none => exact Emits.pure none
  | some progress =>
    dsimp only
    split
    · exact Emits.pure _
    · exact bind (emits_ask fun _ => ⟨rfl, rfl, rfl⟩) fun _ => Emits.pure none

variable (answers) in
theorem landedShasAtEntry_quiet : Emits Quiet (landedShasAtEntry answers) := by
  refine bind currentRebaseIdentity_quiet fun identity => ?_
  refine bind (loadProgressForRebase_quiet _ _) fun progress => ?_
  cases progress with
  | none => exact Emits.pure []
  | some progress =>
    have hrestarted : Emits Quiet (if progress.landedShas = [] then (pure false : Loop Bool) else isAtTheFirstReplay answers) := by
      split
      · exact Emits.pure false
      · exact bind (readReplayProgress_quiet _) fun _ => Emits.pure _
    refine bind hrestarted fun restarted => ?_
    split
    · exact bind (emits_ask fun _ => ⟨rfl, rfl, rfl⟩) fun _ => Emits.pure []
    · exact Emits.pure _

section

variable (stop : RebaseStop)

theorem recordLandedStop_quiet : Emits Quiet (recordLandedStop answers stop) := by
  refine bind currentRebaseIdentity_quiet fun identity => ?_
  split
  · exact bind (loadProgressForRebase_quiet _ _) fun _ => emits_ask fun _ => ⟨rfl, rfl, rfl⟩
  · exact emits_ask fun _ => ⟨rfl, rfl, rfl⟩

theorem readStop_quiet (stopIndex : Nat) (stopCap : Int) : Emits Quiet (readStop answers stopIndex stopCap) := by
  refine bind revParseRebaseHead_quiet fun sha => ?_
  split
  · exact Emits.pure none
  · refine bind (emits_ask fun _ => ⟨rfl, rfl, rfl⟩) fun conflicted => ?_
    split
    · exact Emits.pure none
    · refine bind (readReplayProgress_quiet _) fun _ => ?_
      refine bind (bind (emits_ask fun _ => ⟨rfl, rfl, rfl⟩) fun _ => Emits.pure _) fun _ => ?_
      exact Emits.pure _

theorem touchedNothingUnexpected_quiet (before : List String) : Emits Quiet (touchedNothingUnexpected answers stop before) := by
  refine bind (emits_ask fun _ => ⟨rfl, rfl, rfl⟩) fun after => ?_
  cases after with
  | none => exact Emits.pure false
  | some after =>
    dsimp only
    split
    · exact Emits.pure true
    · exact emits_ask fun _ => ⟨rfl, rfl, rfl⟩

theorem advancedToANewStop_quiet : Emits Quiet (advancedToANewStop answers stop) := by
  refine bind (emits_ask fun _ => ⟨rfl, rfl, rfl⟩) fun inProgress => ?_
  split
  · exact Emits.pure false
  · exact bind revParseRebaseHead_quiet fun _ => Emits.pure _

theorem replayProducedNothing_quiet : Emits Quiet (replayProducedNothing answers stop) := by
  refine bind (emits_ask fun _ => ⟨rfl, rfl, rfl⟩) fun result => ?_
  split
  · exact Emits.pure false
  · exact Emits.pure _

theorem handleContinuation_quiet (exc : Exc) : Emits Quiet (handleContinuation answers stop exc) := by
  have hadvanced : Emits Quiet (do
      let advanced ← advancedToANewStop answers stop
      if advanced then do
        recordLandedStop answers stop
        pure true
      else pure false) := by
    refine bind (advancedToANewStop_quiet stop) fun advanced => ?_
    split
    · exact bind (recordLandedStop_quiet stop) fun _ => Emits.pure true
    · exact Emits.pure false
  cases exc with
  | emptyReplay => exact Emits.pure false
  | noRebaseInProgress => exact bind (recordLandedStop_quiet stop) fun _ => Emits.pure true
  | conflictRemaining => exact hadvanced
  | rebaseContinuation text => exact hadvanced
  | rebaseVerification text => exact throw _
  | other text => exact throw _

theorem stopIsGenuinelyStaged_quiet : Emits Quiet (stopIsGenuinelyStaged answers) := by
  refine bind (emits_ask fun _ => ⟨rfl, rfl, rfl⟩) fun inProgress => ?_
  split
  · exact Emits.pure false
  · refine bind revParseRebaseHead_quiet fun head => ?_
    split
    · exact Emits.pure false
    · refine bind (emits_ask fun _ => ⟨rfl, rfl, rfl⟩) fun unmerged => ?_
      split
      · exact Emits.pure false
      · refine bind (emits_ask fun _ => ⟨rfl, rfl, rfl⟩) fun staged => ?_
        refine bind (emits_ask fun _ => ⟨rfl, rfl, rfl⟩) fun inPaths => ?_
        exact bind (emits_ask fun _ => ⟨rfl, rfl, rfl⟩) fun inIndex => Emits.pure _

theorem stageAndProve_quiet : Emits Quiet (stageAndProve answers stop) := by
  refine bind (emits_ask fun _ => ⟨rfl, rfl, rfl⟩) fun staged => ?_
  split
  · exact Emits.pure false
  · refine bind (emits_ask fun _ => ⟨rfl, rfl, rfl⟩) fun inPaths => ?_
    refine bind (emits_ask fun _ => ⟨rfl, rfl, rfl⟩) fun inIndex => ?_
    split
    · exact Emits.pure false
    · exact bind (emits_ask fun _ => ⟨rfl, rfl, rfl⟩) fun remaining => Emits.pure _

end

theorem verifyRebaseCompletedAt_quiet (upstream : String) : Emits Quiet (verifyRebaseCompletedAt answers upstream) := by
  refine bind (emits_ask fun _ => ⟨rfl, rfl, rfl⟩) fun inProgress => ?_
  split
  · exact Emits.pure false
  · refine bind (tryCatch (emits_ask fun _ => ⟨rfl, rfl, rfl⟩) fun exc => ?_) fun conflicts => ?_
    · split
      · exact throw _
      · exact throw _
    · split
      · exact Emits.pure false
      · refine bind (emits_ask fun _ => ⟨rfl, rfl, rfl⟩) fun detached => ?_
        split
        · exact throw _
        · refine bind (emits_ask fun _ => ⟨rfl, rfl, rfl⟩) fun known => ?_
          split
          · exact throw _
          · refine bind (emits_ask fun _ => ⟨rfl, rfl, rfl⟩) fun result => ?_
            split
            · exact Emits.pure true
            · split
              · exact Emits.pure false
              · exact throw _

end RalphWorkflow.Integration

namespace RalphWorkflow.Integration

open Lib Lib.Effect Git Pipeline.ConflictResolution Emits Triple


variable {answers : Answers}

/-! ## Continuing -/

/-- The log is guarded, and it may be continued as far as the attempts of the pass go. -/
def Safe (log : List Act) : Prop := Guarded log ∧ AttemptProved log

theorem Emits.keepsGuarded {α : Type} {x : Loop α} (h : Emits Quiet x) : Keeps Guarded x := h _ fun _ _ => guarded_quiet

theorem Emits.keepsSafe {α : Type} {x : Loop α} (h : Emits Quiet x) : Keeps Safe x :=
  h _ fun _ _ hact hlog => ⟨guarded_quiet hact hlog.1, attemptProved_quiet hact hlog.2⟩

variable (answers) in
theorem ask_continue_keeps :
    Triple (fun log => Safe log ∧ (justClean log = true ∨ afterSkip log = true)) (ask answers .rebaseContinue) (fun _ => Safe)
      fun _ => Safe :=
  triple_ask (fun _ _ hlog => ⟨⟨fun _ => ⟨hlog.2, hlog.1.2⟩, hlog.1.1⟩, hlog.1.2⟩)
    fun _ _ hlog => ⟨⟨fun _ => ⟨hlog.2, hlog.1.2⟩, hlog.1.1⟩, hlog.1.2⟩

theorem skipEmptied_keeps (left : Nat) : Keeps Safe (skipEmptied answers left) := by
  induction left with
  | zero => exact Keeps.throw _
  | succ left ih =>
    have hskip : Triple Safe (ask answers .rebaseSkip)
        (fun _ log => Safe log ∧ ∃ answer older, log = .asked .rebaseSkip (.ok answer) :: older) fun _ => Safe :=
      triple_ask (fun log answer hlog => ⟨⟨guarded_quiet ⟨rfl, rfl, rfl⟩ hlog.1, hlog.2⟩, answer, log, rfl⟩)
        fun log _ hlog => ⟨guarded_quiet ⟨rfl, rfl, rfl⟩ hlog.1, hlog.2⟩
    have hpaused : Triple (fun log => Safe log ∧ ∃ answer older, log = .asked .rebaseSkip (.ok answer) :: older)
        (ask answers .rebaseInProgress) (fun inProgress log => Safe log ∧ (inProgress = true → afterSkip log = true))
        fun _ => Safe := by
      refine triple_ask ?_ ?_
      · rintro log inProgress ⟨hlog, answer, older, rfl⟩
        refine ⟨⟨guarded_quiet ⟨rfl, rfl, rfl⟩ hlog.1, hlog.2⟩, ?_⟩
        rintro rfl
        rfl
      · rintro log exc ⟨hlog, -⟩
        exact ⟨guarded_quiet ⟨rfl, rfl, rfl⟩ hlog.1, hlog.2⟩
    refine Triple.bind hskip fun skipped => Triple.bind hpaused fun inProgress => ?_
    split
    · exact Triple.pure fun _ hlog => hlog.1
    · split
      · exact Triple.throw fun _ hlog => hlog.1
      · rename_i hinProgress _
        have hcontinue := (ask_continue_keeps answers).consequence
          (fun log (hlog : Safe log ∧ (inProgress = true → afterSkip log = true)) => ⟨hlog.1, .inr (hlog.2 (by simpa using hinProgress))⟩) (fun _ _ h => h) fun _ _ h => h
        refine Triple.bind hcontinue fun result => ?_
        split
        · exact Keeps.pure ()
        · split
          · exact Keeps.throw _
          · refine Keeps.bind (Emits.keepsSafe (emits_ask fun _ => ⟨rfl, rfl, rfl⟩)) fun inProgress => ?_
            split
            · exact Keeps.pure ()
            · exact ih

theorem continueRebaseAt_keeps (skipEmpty : Bool) : Keeps Safe (continueRebaseAt answers skipEmpty) := by
  have hconflicts : Triple Safe (ask answers .indexConflicts)
      (fun conflicts log => Safe log ∧ (conflicts = false → justClean log = true)) fun _ => Safe := by
    refine triple_ask ?_ fun log _ hlog => ⟨guarded_quiet ⟨rfl, rfl, rfl⟩ hlog.1, hlog.2⟩
    intro log conflicts hlog
    refine ⟨⟨guarded_quiet ⟨rfl, rfl, rfl⟩ hlog.1, hlog.2⟩, ?_⟩
    rintro rfl
    rfl
  refine Keeps.bind (Emits.keepsSafe (emits_ask fun _ => ⟨rfl, rfl, rfl⟩)) fun inProgress => ?_
  split
  · exact Keeps.throw _
  · refine Triple.bind hconflicts fun conflicts => ?_
    split
    · exact Triple.throw fun _ hlog => hlog.1
    · rename_i hclean
      have hcontinue := (ask_continue_keeps answers).consequence
        (fun log (hlog : Safe log ∧ (conflicts = false → justClean log = true)) => ⟨hlog.1, .inl (hlog.2 (by simpa using hclean))⟩) (fun _ _ h => h) fun _ _ h => h
      refine Triple.bind hcontinue fun result => ?_
      split
      · exact Keeps.pure ()
      · have hpaused : Keeps Safe (if isEmptyRebaseStop result then ask answers .rebaseInProgress else (pure false : Loop Bool)) := by
          split
          · exact Emits.keepsSafe (emits_ask fun _ => ⟨rfl, rfl, rfl⟩)
          · exact Keeps.pure false
        refine Keeps.bind hpaused fun paused => ?_
        split
        · exact Keeps.throw _
        · split
          · exact Keeps.throw _
          · exact skipEmptied_keeps _

theorem attemptContinue_keeps (skipEmpty : Bool) : Keeps Safe (attemptContinue answers skipEmpty) :=
  Keeps.tryCatch (Keeps.bind (continueRebaseAt_keeps skipEmpty) fun _ => Keeps.pure none) fun _ => Keeps.pure _

theorem continuePast_keeps (stop : RebaseStop) : Keeps Safe (continuePast answers stop) := by
  refine Keeps.bind (attemptContinue_keeps false) fun exc => ?_
  cases exc with
  | some exc => exact Emits.keepsSafe (handleContinuation_quiet stop exc)
  | none =>
    refine Keeps.bind (Emits.keepsSafe (replayProducedNothing_quiet stop)) fun nothing => ?_
    split
    · exact Keeps.pure false
    · exact Keeps.bind (Emits.keepsSafe (recordLandedStop_quiet stop)) fun _ => Keeps.pure true

theorem continueAlreadyStagedStop_keeps : Keeps Safe (continueAlreadyStagedStop answers) := by
  refine Keeps.bind (Emits.keepsSafe stopIsGenuinelyStaged_quiet) fun staged => ?_
  split
  · exact Keeps.pure false
  · refine Keeps.bind (attemptContinue_keeps true) fun exc => ?_
    split
    · exact Keeps.pure true
    · exact Keeps.pure true
    · split
      · exact Keeps.pure false
      · exact Keeps.throw _

/-! ## Attempts -/

def Attempting (stop : RebaseStop) (log : List Act) : Prop := Guarded log ∧ AttemptedOn stop.conflictedFiles log

theorem Emits.keepsAttempting {α : Type} {x : Loop α} {stop : RebaseStop} (h : Emits Quiet x) : Keeps (Attempting stop) x :=
  h _ fun _ _ hact hlog => ⟨guarded_quiet hact hlog.1, attemptedOn_quiet _ hact hlog.2⟩

theorem stageAndProve_proves (stop : RebaseStop) : Triple (Attempting stop) (stageAndProve answers stop)
      (fun proved log => Guarded log ∧ (proved = true → AttemptProved log)) fun _ => Guarded := by
  have hscan : Triple (Attempting stop) (ask answers (.pathsWithConflictMarkers stop.conflictedFiles))
      (fun inPaths log => Guarded log ∧ (inPaths = [] → AttemptProved log)) fun _ => Guarded := by
    refine triple_ask ?_ fun log _ hlog => guarded_quiet ⟨rfl, rfl, rfl⟩ hlog.1
    intro log inPaths hlog
    refine ⟨guarded_quiet ⟨rfl, rfl, rfl⟩ hlog.1, ?_⟩
    rintro rfl
    exact .inl hlog.2
  have hkeeps : ∀ (p : Prop) (query : Query), (∀ answer, Quiet (.asked query answer)) →
      Triple (fun log => Guarded log ∧ (p → AttemptProved log)) (ask answers query)
        (fun _ log => Guarded log ∧ (p → AttemptProved log)) fun _ => Guarded := by
    intro p query hquery
    refine triple_ask ?_ fun log _ hlog => guarded_quiet (hquery _) hlog.1
    exact fun log _ hlog => ⟨guarded_quiet (hquery _) hlog.1, fun hp => attemptProved_quiet (hquery _) (hlog.2 hp)⟩
  have hstage := (Emits.keepsAttempting
    (@emits_ask answers _ (.stagePaths stop.conflictedFiles) fun _ => ⟨rfl, rfl, rfl⟩)).consequence
    (fun _ h => h) (fun _ _ h => h) fun _ log (h : Attempting stop log) => h.1
  refine Triple.bind hstage fun staged => ?_
  split
  · exact Triple.pure fun log hlog => ⟨hlog.1, fun h => by cases h⟩
  · refine Triple.bind hscan fun inPaths => ?_
    refine Triple.bind (hkeeps _ .stagedConflictMarkerPaths fun _ => ⟨rfl, rfl, rfl⟩) fun inIndex => ?_
    split
    · exact Triple.pure fun log hlog => ⟨hlog.1, fun h => by cases h⟩
    · rename_i hclean
      refine Triple.bind (hkeeps _ .unmergedPaths fun _ => ⟨rfl, rfl, rfl⟩) fun remaining => ?_
      have hnone : inPaths = [] := (List.append_eq_nil_iff.mp (not_not.mp hclean)).1
      exact Triple.pure fun log hlog => ⟨hlog.1, fun _ => hlog.2 hnone⟩

theorem both_proves {P : List Act → Prop} {x y : Loop Bool}
    (hx : Triple P x (fun ok log => Guarded log ∧ (ok = true → AttemptProved log)) fun _ => Guarded) (hy : Keeps Safe y) :
    Triple P (both x y) (fun ok log => Guarded log ∧ (ok = true → AttemptProved log)) fun _ => Guarded := by
  refine Triple.bind hx fun ok => ?_
  split
  · rename_i hok
    exact consequence hy (fun log hlog => ⟨hlog.1, hlog.2 hok⟩) (fun _ log hlog => ⟨hlog.1, fun _ => hlog.2⟩)
      fun _ log hlog => hlog.1
  · exact Triple.pure fun log hlog => ⟨hlog.1, fun h => by cases h⟩

theorem both_keeps {I : List Act → Prop} {x y : Loop Bool} (hx : Keeps I x) (hy : Keeps I y) : Keeps I (both x y) := by
  refine Keeps.bind hx fun ok => ?_
  split
  · exact hy
  · exact Keeps.pure false

theorem resolveByResolver_guarded (target : String) (stop : RebaseStop) (before : List String) :
    Keeps Guarded (resolveByResolver answers target stop before) := by
  have hresolver : Triple Guarded (ask answers (.resolver target stop)) (fun _ => Attempting stop) fun _ => Guarded :=
    triple_ask (fun log _ hlog => ⟨guarded_other rfl hlog, rfl⟩) fun log _ hlog => guarded_other rfl hlog
  refine Triple.bind hresolver fun resolved => ?_
  split
  · exact Triple.pure fun log hlog => hlog.1
  · refine Triple.bind (R := fun _ => Attempting stop) ?_ fun unexpected => ?_
    · exact consequence (Emits.keepsAttempting (touchedNothingUnexpected_quiet stop before)) (fun _ h => h)
        (fun _ _ h => h) fun _ _ h => h.1
    · split
      · refine consequence (both_proves (stageAndProve_proves stop) (both_keeps ?_ (continuePast_keeps stop)))
          (fun _ h => h) (fun _ _ h => h.1) fun _ _ h => h
        exact Emits.keepsSafe (emits_ask fun _ => ⟨rfl, rfl, rfl⟩)
      · exact Triple.pure fun log hlog => hlog.1

theorem resolveStop_guarded (target : String) (stop : RebaseStop) : Keeps Guarded (resolveStop answers target stop) := by
  have hattempt : Triple Guarded (ask answers (.tryDeterministicResolution stop)) (fun _ => Attempting stop) fun _ => Guarded :=
    triple_ask (fun log _ hlog => ⟨guarded_other rfl hlog, rfl⟩) fun log _ hlog => guarded_other rfl hlog
  refine Keeps.bind (Emits.keepsGuarded (emits_ask fun _ => ⟨rfl, rfl, rfl⟩)) fun before => ?_
  cases before with
  | none => exact Keeps.pure false
  | some before =>
    refine Triple.bind hattempt fun attempted => ?_
    refine Triple.bind (R := fun _ => Guarded) ?_ fun landed => ?_
    · split
      · exact consequence (both_proves (stageAndProve_proves stop) (continuePast_keeps stop)) (fun _ h => h)
          (fun _ _ h => h.1) fun _ _ h => h
      · exact Triple.pure fun log hlog => hlog.1
    · split
      · exact Keeps.pure true
      · exact resolveByResolver_guarded target stop before

theorem resolveOneStop_guarded (target : String) (stopIndex : Nat) (stopCap : Int) (entryLanded skipped : List String) :
    Triple Safe (resolveOneStop answers target stopIndex stopCap entryLanded skipped) (fun _ => Guarded) fun _ => Guarded := by
  have hweaken : ∀ {α : Type} {x : Loop α}, Keeps Safe x → Triple Safe x (fun _ => Guarded) fun _ => Guarded :=
    fun h => consequence h (fun _ h => h) (fun _ _ h => h.1) fun _ _ h => h.1
  refine Triple.bind (R := fun _ => Safe) ?_ fun stop => ?_
  · exact consequence (Emits.keepsSafe (readStop_quiet _ _)) (fun _ h => h) (fun _ _ h => h) fun _ _ h => h.1
  · cases stop with
    | none => exact hweaken (Keeps.bind continueAlreadyStagedStop_keeps fun _ => Keeps.pure _)
    | some stop =>
      dsimp only
      split
      · exact hweaken (Keeps.bind (continuePast_keeps stop) fun _ => Keeps.pure _)
      · exact consequence (Keeps.bind (resolveStop_guarded target stop) fun _ => Keeps.pure _) (fun _ h => h.1)
          (fun _ _ h => h) fun _ _ h => h

end RalphWorkflow.Integration
