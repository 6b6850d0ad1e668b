import Mathlib.Data.List.Perm.Subperm
import RalphWorkflow.Proof.Integration.StopLoop.Guards

/-! Every pass spends a stop or passes over a landed stop of the sidecar that was not passed over before. -/
/-! ## Passes and calls of the resolver

A pass asks the resolver once at most, and one that passes over a landed stop of the sidecar does not ask it.
-/

namespace RalphWorkflow.Integration

open Lib Lib.Effect Git Pipeline.ConflictResolution List Emits Triple


variable {answers : Answers}

/-! ## Counting -/

/-- Neither a pass begins nor the resolver is asked. -/
def Uncounted (act : Act) : Prop := isPass act = false ∧ asksResolver act = false

theorem Emits.uncounted {α : Type} {x : Loop α} (h : Emits Quiet x) : Emits Uncounted x := by
  refine h.mono ?_
  rintro act ⟨hpass, -, hattempts⟩
  refine ⟨hpass, ?_⟩
  cases act with
  | pass => rfl
  | asked query answer => cases query <;> first | rfl | cases hattempts

def Counts (begun calls : Nat) (log : List Act) : Prop := passes log = begun ∧ resolverCalls log ≤ calls

theorem counts_uncounted {begun calls : Nat} {act : Act} {log : List Act} (hact : Uncounted act) (h : Counts begun calls log) :
    Counts begun calls (act :: log) := by
  have hpasses : passes (act :: log) = passes log := countP_cons_of_neg (by simp [hact.1])
  have hcalls : resolverCalls (act :: log) = resolverCalls log := countP_cons_of_neg (by simp [hact.2])
  exact ⟨hpasses.trans h.1, hcalls.trans_le h.2⟩

theorem Emits.keepsCounts {α : Type} {x : Loop α} (h : Emits Uncounted x) (begun calls : Nat) : Keeps (Counts begun calls) x :=
  h _ fun _ _ => counts_uncounted

theorem skipEmptied_uncounted (left : Nat) : Emits Uncounted (skipEmptied answers left) := by
  induction left with
  | zero => exact Emits.throw _
  | succ left ih =>
    refine bind (emits_ask fun _ => ⟨rfl, rfl⟩) fun skipped => ?_
    refine bind (emits_ask fun _ => ⟨rfl, rfl⟩) fun inProgress => ?_
    split
    · exact Emits.pure ()
    · split
      · exact Emits.throw _
      · refine bind (emits_ask fun _ => ⟨rfl, rfl⟩) fun result => ?_
        split
        · exact Emits.pure ()
        · split
          · exact Emits.throw _
          · refine bind (emits_ask fun _ => ⟨rfl, rfl⟩) fun inProgress => ?_
            split
            · exact Emits.pure ()
            · exact ih

theorem attemptContinue_uncounted (skipEmpty : Bool) : Emits Uncounted (attemptContinue answers skipEmpty) := by
  have hcontinue : Emits Uncounted (continueRebaseAt answers skipEmpty) := by
    refine bind (emits_ask fun _ => ⟨rfl, rfl⟩) fun inProgress => ?_
    split
    · exact Emits.throw _
    · refine bind (emits_ask fun _ => ⟨rfl, rfl⟩) fun conflicts => ?_
      split
      · exact Emits.throw _
      · refine bind (emits_ask fun _ => ⟨rfl, rfl⟩) fun result => ?_
        split
        · exact Emits.pure ()
        · refine bind ?_ fun paused => ?_
          · split
            · exact emits_ask fun _ => ⟨rfl, rfl⟩
            · exact Emits.pure false
          · split
            · exact Emits.throw _
            · split
              · exact Emits.throw _
              · exact skipEmptied_uncounted _
  exact tryCatch (bind hcontinue fun _ => Emits.pure none) fun _ => Emits.pure _

theorem continuePast_uncounted (stop : RebaseStop) : Emits Uncounted (continuePast answers stop) := by
  refine bind (attemptContinue_uncounted false) fun exc => ?_
  cases exc with
  | some exc => exact uncounted (handleContinuation_quiet stop exc)
  | none =>
    refine bind (uncounted (replayProducedNothing_quiet stop)) fun nothing => ?_
    split
    · exact Emits.pure false
    · exact bind (uncounted (recordLandedStop_quiet stop)) fun _ => Emits.pure true

theorem continueAlreadyStagedStop_uncounted : Emits Uncounted (continueAlreadyStagedStop answers) := by
  refine bind (uncounted stopIsGenuinelyStaged_quiet) fun staged => ?_
  split
  · exact Emits.pure false
  · refine bind (attemptContinue_uncounted true) fun exc => ?_
    split
    · exact Emits.pure true
    · exact Emits.pure true
    · split
      · exact Emits.pure false
      · exact Emits.throw _

theorem both_uncounted {x y : Loop Bool} (hx : Emits Uncounted x) (hy : Emits Uncounted y) : Emits Uncounted (both x y) :=
  fun I hI => both_keeps (hx I hI) (hy I hI)

theorem resolveStop_counts (target : String) (stop : RebaseStop) (begun calls : Nat) :
    Triple (Counts begun calls) (resolveStop answers target stop) (fun _ => Counts begun (calls + 1))
      fun _ => Counts begun (calls + 1) := by
  have hmore : ∀ log, Counts begun calls log → Counts begun (calls + 1) log :=
    fun log hlog => ⟨hlog.1, Nat.le_succ_of_le hlog.2⟩
  have hquery : ∀ {α : Type} {x : Loop α}, Emits Uncounted x →
      Triple (Counts begun calls) x (fun _ => Counts begun calls) fun _ => Counts begun (calls + 1) :=
    fun h => consequence (keepsCounts h begun calls) (fun _ h => h) (fun _ _ h => h) fun _ => hmore
  have hproved : Emits Uncounted (stageAndProve answers stop) := uncounted (stageAndProve_quiet stop)
  have hresolver : Triple (Counts begun calls) (ask answers (.resolver target stop)) (fun _ => Counts begun (calls + 1))
      fun _ => Counts begun (calls + 1) := by
    have hcount : ∀ log answer, Counts begun calls log → Counts begun (calls + 1) (.asked (.resolver target stop) answer :: log) := by
      intro log answer hlog
      have hpasses : passes (.asked (.resolver target stop) answer :: log) = passes log := countP_cons_of_neg Bool.false_ne_true
      have hcalls : resolverCalls (.asked (.resolver target stop) answer :: log) = resolverCalls log + 1 := countP_cons_of_pos rfl
      exact ⟨hpasses.trans hlog.1, by rw [hcalls]; exact Nat.succ_le_succ hlog.2⟩
    exact triple_ask (fun log answer hlog => hcount log _ hlog) fun log exc hlog => hcount log _ hlog
  refine Triple.bind (hquery (emits_ask fun _ => ⟨rfl, rfl⟩)) fun before => ?_
  cases before with
  | none => exact Triple.pure hmore
  | some before =>
    refine Triple.bind (hquery (emits_ask fun _ => ⟨rfl, rfl⟩)) fun attempted => ?_
    refine Triple.bind (R := fun _ => Counts begun calls) ?_ fun landed => ?_
    · split
      · exact hquery (both_uncounted hproved (continuePast_uncounted stop))
      · exact Triple.pure fun _ hlog => hlog
    · split
      · exact Triple.pure hmore
      · refine Triple.bind hresolver fun resolved => ?_
        split
        · exact Triple.pure fun _ hlog => hlog
        · refine keepsCounts (both_uncounted (uncounted (touchedNothingUnexpected_quiet stop before)) ?_) _ _
          exact both_uncounted hproved (both_uncounted (emits_ask fun _ => ⟨rfl, rfl⟩) (continuePast_uncounted stop))

theorem resolveOneStop_counts (target : String) (stopIndex : Nat) (stopCap : Int) (entryLanded skipped : List String) (begun calls : Nat) :
    Triple (Counts begun calls) (resolveOneStop answers target stopIndex stopCap entryLanded skipped)
      (fun outcome log => (outcome.2 = skipped ∧ Counts begun (calls + 1) log) ∨
        ∃ sha, outcome.2 = sha :: skipped ∧ sha ∈ entryLanded ∧ sha ∉ skipped ∧ Counts begun calls log)
      fun _ => Counts begun (calls + 1) := by
  have hmore : ∀ log, Counts begun calls log → Counts begun (calls + 1) log :=
    fun log hlog => ⟨hlog.1, Nat.le_succ_of_le hlog.2⟩
  have hquery : ∀ {α : Type} {x : Loop α}, Emits Uncounted x →
      Triple (Counts begun calls) x (fun _ => Counts begun calls) fun _ => Counts begun (calls + 1) :=
    fun h => consequence (keepsCounts h begun calls) (fun _ h => h) (fun _ _ h => h) fun _ => hmore
  refine Triple.bind (hquery (uncounted (readStop_quiet _ _))) fun stop => ?_
  cases stop with
  | none =>
    refine Triple.bind (hquery continueAlreadyStagedStop_uncounted) fun continued => ?_
    exact Triple.pure fun log hlog => .inl ⟨rfl, hmore log hlog⟩
  | some stop =>
    dsimp only
    split
    · rename_i hskip
      refine Triple.bind (hquery (continuePast_uncounted stop)) fun continued => ?_
      exact Triple.pure fun log hlog => .inr ⟨stop.sha, rfl, hskip.1, hskip.2, hlog⟩
    · refine Triple.bind (resolveStop_counts target stop begun calls) fun landed => ?_
      exact Triple.pure fun log hlog => .inl ⟨rfl, hlog⟩

end RalphWorkflow.Integration

namespace RalphWorkflow.Integration

open Lib Lib.Effect Git Pipeline.ConflictResolution List Emits Triple


variable {answers : Answers}

/-! ## Completion -/

/-- At last no rebase is in progress, nothing is unmerged, and HEAD descends from the commit. -/
def Completed (base : String) (log : List Act) : Prop :=
  ∃ result older, result.returncode = 0 ∧
    log = .asked (.isAncestor base) (.ok result) :: .asked (.commitKnown base) (.ok true) ::
      .asked .headDetached (.ok false) :: .asked .indexConflicts (.ok false) :: .asked .rebaseInProgress (.ok false) :: older

theorem verifyRebaseCompletedAt_completed (base : String) :
    Triple (fun _ => True) (verifyRebaseCompletedAt answers base) (fun completed log => completed = true → Completed base log)
      fun _ _ => True := by
  have hask : ∀ (P : List Act → Prop) (query : Query), Triple P (ask answers query)
      (fun answer log => ∃ older, P older ∧ log = .asked query (.ok answer) :: older) fun _ _ => True :=
    fun P query => triple_ask (fun log _ hlog => ⟨log, hlog, rfl⟩) fun _ _ _ => trivial
  have hfalse : ∀ {P : List Act → Prop}, Triple P (pure false : Loop Bool)
      (fun completed log => completed = true → Completed base log) fun _ _ => True :=
    fun {P} => Triple.pure fun _ _ h => by cases h
  have hthrow : ∀ {α : Type} {P : List Act → Prop} {Q : α → List Act → Prop} (exc : Exc), Triple P (throw exc : Loop α) Q fun _ _ => True :=
    fun exc => Triple.throw fun _ _ => trivial
  refine Triple.bind (hask _ .rebaseInProgress) fun inProgress => ?_
  split
  · exact hfalse
  · rename_i hover
    refine Triple.bind (Triple.tryCatch (hask _ .indexConflicts) fun exc => ?_) fun conflicts => ?_
    · split
      · exact hthrow _
      · exact hthrow _
    · split
      · exact hfalse
      · rename_i hclean
        refine Triple.bind (hask _ .headDetached) fun detached => ?_
        split
        · exact hthrow _
        · rename_i hattached
          refine Triple.bind (hask _ (.commitKnown base)) fun known => ?_
          split
          · exact hthrow _
          · rename_i hknown
            refine Triple.bind (hask _ (.isAncestor base)) fun result => ?_
            split
            · rename_i hancestor
              refine Triple.pure ?_
              rintro log ⟨_, ⟨_, ⟨_, ⟨_, ⟨older, -, rfl⟩, rfl⟩, rfl⟩, rfl⟩, rfl⟩ -
              refine ⟨result, older, hancestor, ?_⟩
              rw [Bool.not_eq_false] at hknown
              rw [Bool.not_eq_true] at hover hclean hattached
              rw [hknown, hattached, hclean, hover]
            · split
              · exact hfalse
              · exact hthrow _

/-! ## The loop -/

/-- The resolver is asked at most as often as the cap says, and once when the cap is not positive. -/
def stopLimit (stopCap : Int) : Nat := (max 1 stopCap).toNat

def WithinBounds (limit landed : Nat) (log : List Act) : Prop :=
  Guarded log ∧ passes log ≤ limit + landed ∧ resolverCalls log ≤ limit

def AtHead (spent : Nat) (skipped : List String) (log : List Act) : Prop :=
  Guarded log ∧ Counts (spent + skipped.length) spent log

variable {spent : Nat} {skipped : List String}

theorem AtHead.within {limit landed : Nat} {log : List Act} (h : AtHead spent skipped log)
    (hspent : spent ≤ limit) (hskipped : skipped.length ≤ landed) : WithinBounds limit landed log := by
  obtain ⟨hguarded, hpasses, hcalls⟩ := h
  exact ⟨hguarded, by omega, by omega⟩

theorem Emits.keepsAtHead {α : Type} {x : Loop α} (h : Emits Quiet x) (spent : Nat) (skipped : List String) : Keeps (AtHead spent skipped) x :=
  consequence (and (keepsGuarded h) (keepsCounts (uncounted h) _ _)) (fun _ h => h)
    (fun _ _ h => h) fun _ _ h => h

theorem verify_ends {limit landed : Nat} (base : String) (hspent : spent ≤ limit) (hskipped : skipped.length ≤ landed) :
    Triple (AtHead spent skipped) (some <$> verifyRebaseCompletedAt answers base)
      (fun result log => WithinBounds limit landed log ∧ ∃ resolved, result = some resolved ∧ (resolved = true → Completed base log))
      fun _ => WithinBounds limit landed := by
  refine map (consequence (and
    (keepsAtHead (verifyRebaseCompletedAt_quiet base) spent skipped) (verifyRebaseCompletedAt_completed base))
    (fun log hlog => ⟨hlog, trivial⟩) ?_ ?_)
  · rintro completed log ⟨hlog, hcompleted⟩
    exact ⟨hlog.within hspent hskipped, completed, rfl, hcompleted⟩
  · rintro exc log ⟨hlog, -⟩
    exact hlog.within hspent hskipped

theorem routeAfterStop_resolution {resolved : Bool} {stopCap : Int}
    (h : routeAfterStop spent resolved stopCap = .resolution) : spent < stopLimit stopCap := by
  unfold routeAfterStop at h
  split at h
  · cases h
  · split at h
    · cases h
    · unfold stopLimit
      omega

inductive AfterPass (entryLanded : List String) (spent : Nat) (skipped skippedNow : List String) (log : List Act) : Prop
  | spent (hsame : skippedNow = skipped) (h : AtHead (spent + 1) skipped log)
  | skipped (sha : String) (heq : skippedNow = sha :: skipped) (hmem : sha ∈ entryLanded) (hfresh : sha ∉ skipped)
      (h : AtHead spent (sha :: skipped) log)

theorem beginPass_spec (spent : Nat) (skipped : List String) :
    Triple (AtHead spent skipped) beginPass (fun _ log => Safe log ∧ Counts (spent + skipped.length + 1) spent log)
      fun _ _ => False := by
  rintro log ⟨hguarded, hpasses, hcalls⟩
  refine ⟨⟨guarded_other rfl hguarded, trivial⟩, ?_, ?_⟩
  · exact (countP_cons_of_pos rfl).trans (congrArg (· + 1) hpasses)
  · exact (countP_cons_of_neg Bool.false_ne_true).trans_le hcalls

theorem resolveOneStop_spec (target : String) (stopIndex : Nat) (stopCap : Int) (entryLanded skipped : List String) (spent : Nat) :
    Triple (fun log => Safe log ∧ Counts (spent + skipped.length + 1) spent log)
      (resolveOneStop answers target stopIndex stopCap entryLanded skipped)
      (fun outcome => AfterPass entryLanded spent skipped outcome.2) fun _ => AtHead (spent + 1) skipped := by
  have hspent : ∀ log, Guarded log → Counts (spent + skipped.length + 1) (spent + 1) log → AtHead (spent + 1) skipped log := by
    intro log hguarded hcounts
    refine ⟨hguarded, ?_⟩
    rw [show spent + 1 + skipped.length = spent + skipped.length + 1 by omega]
    exact hcounts
  refine consequence (and (resolveOneStop_guarded target stopIndex stopCap entryLanded skipped)
    (resolveOneStop_counts target stopIndex stopCap entryLanded skipped (spent + skipped.length + 1) spent))
    (fun _ h => h) ?_ ?_
  · rintro ⟨landed, skippedNow⟩ log ⟨hguarded, ⟨hsame, hcounts⟩ | ⟨sha, heq, hmem, hfresh, hcounts⟩⟩
    · exact .spent hsame (hspent log hguarded hcounts)
    · exact .skipped sha heq hmem hfresh ⟨hguarded, hcounts⟩
  · rintro exc log ⟨hguarded, hcounts⟩
    exact hspent log hguarded hcounts

theorem AfterPass.room {entryLanded skippedNow : List String} {log : List Act}
    (h : AfterPass entryLanded spent skipped skippedNow log) (hnodup : skipped.Nodup) (hsub : skipped ⊆ entryLanded) :
    skippedNow.Nodup ∧ skippedNow ⊆ entryLanded ∧ skippedNow.length ≤ entryLanded.length := by
  cases h with
  | spent hsame h =>
    subst hsame
    exact ⟨hnodup, hsub, (hnodup.subperm hsub).length_le⟩
  | skipped sha heq hmem hfresh h =>
    subst heq
    have hnodupNow : (sha :: skipped).Nodup := nodup_cons.mpr ⟨hfresh, hnodup⟩
    have hsubNow : sha :: skipped ⊆ entryLanded := cons_subset.mpr ⟨hmem, hsub⟩
    exact ⟨hnodupNow, hsubNow, (hnodupNow.subperm hsubNow).length_le⟩

theorem AfterPass.within {entryLanded skippedNow : List String} {limit : Nat} {log : List Act}
    (h : AfterPass entryLanded spent skipped skippedNow log) (hspent : spent < limit) (hnodup : skipped.Nodup)
    (hsub : skipped ⊆ entryLanded) : WithinBounds limit entryLanded.length log := by
  have hroom := (h.room hnodup hsub).2.2
  cases h with
  | spent hsame h =>
    subst hsame
    exact h.within hspent hroom
  | skipped sha heq hmem hfresh h =>
    subst heq
    exact h.within (Nat.le_of_lt hspent) hroom

theorem resolveLoop_spec (target base : String) (stopCap : Int) (entryLanded : List String) (fuel spent : Nat)
    (skipped : List String) (hspent : spent < stopLimit stopCap) (hnodup : skipped.Nodup) (hsub : skipped ⊆ entryLanded)
    (hfuel : stopLimit stopCap - spent + (entryLanded.length - skipped.length) ≤ fuel) :
    Triple (AtHead spent skipped) (resolveLoop answers target base stopCap entryLanded fuel spent skipped)
      (fun result log => WithinBounds (stopLimit stopCap) entryLanded.length log ∧
        ∃ resolved, result = some resolved ∧ (resolved = true → Completed base log))
      fun _ => WithinBounds (stopLimit stopCap) entryLanded.length := by
  induction fuel generalizing spent skipped with
  | zero => omega
  | succ fuel ih =>
    have hlength : skipped.length ≤ entryLanded.length := (hnodup.subperm hsub).length_le
    have hgiveUp : ∀ {P : List Act → Prop}, (∀ log, P log → WithinBounds (stopLimit stopCap) entryLanded.length log) →
        Triple P (pure (some false) : Loop (Option Bool))
          (fun result log => WithinBounds (stopLimit stopCap) entryLanded.length log ∧
            ∃ resolved, result = some resolved ∧ (resolved = true → Completed base log))
          fun _ => WithinBounds (stopLimit stopCap) entryLanded.length :=
      fun h => Triple.pure fun log hlog => ⟨h log hlog, false, rfl, fun h => by cases h⟩
    have hask : Triple (AtHead spent skipped) (ask answers .rebaseInProgress) (fun _ => AtHead spent skipped)
        fun _ => WithinBounds (stopLimit stopCap) entryLanded.length :=
      consequence (keepsAtHead (emits_ask fun _ => ⟨rfl, rfl, rfl⟩) spent skipped) (fun _ h => h)
        (fun _ _ h => h) fun _ _ h => h.within (Nat.le_of_lt hspent) hlength
    refine Triple.bind hask fun inProgress => ?_
    split
    · exact verify_ends base (Nat.le_of_lt hspent) hlength
    · refine Triple.bind (consequence (beginPass_spec spent skipped) (fun _ h => h) (fun _ _ h => h)
        fun _ _ h => h.elim) fun _ => ?_
      refine Triple.bind (consequence (resolveOneStop_spec target (spent + 1) stopCap entryLanded skipped spent)
        (fun _ h => h) (fun _ _ h => h) fun _ _ h => h.within hspent hlength) fun outcome => ?_
      obtain ⟨landed, skippedNow⟩ := outcome
      dsimp only
      split
      · exact hgiveUp fun log hlog => hlog.within hspent hnodup hsub
      · split
        · -- A landed stop of the sidecar was passed over.
          rename_i hlonger
          intro log hlog
          obtain ⟨hnodupNow, hsubNow, hroom⟩ := hlog.room hnodup hsub
          refine ih spent skippedNow hspent hnodupNow hsubNow (by omega) log ?_
          cases hlog with
          | spent hsame h => exact absurd hlonger (by simp [hsame])
          | skipped sha heq hmem hfresh h =>
            rw [heq]
            exact h
        · -- A stop was spent.
          rename_i hsame
          have hspend : Triple (AfterPass entryLanded spent skipped skippedNow) (ask answers .rebaseInProgress)
              (fun _ log => skippedNow = skipped ∧ AtHead (spent + 1) skipped log)
              fun _ => WithinBounds (stopLimit stopCap) entryLanded.length := by
            intro log hlog
            cases hlog with
            | spent heq h =>
              exact (keepsAtHead (emits_ask fun _ => ⟨rfl, rfl, rfl⟩) (spent + 1) skipped log h).imp
                (fun _ _ h => ⟨heq, h⟩) fun _ _ h => h.within hspent hlength
            | skipped sha heq hmem hfresh h => exact absurd (by simp [heq]) hsame
          refine Triple.bind hspend fun inProgress => ?_
          split
          · exact consequence (verify_ends base hspent hlength) (fun _ h => h.2) (fun _ _ h => h) fun _ _ h => h
          · exact hgiveUp fun log hlog => hlog.2.within hspent hlength
          · rename_i hroute
            rintro log ⟨heq, hlog⟩
            subst heq
            exact ih (spent + 1) skippedNow (routeAfterStop_resolution hroute) hnodup hsub (by omega) log hlog

/-! ## The whole run -/

def landedAtEntry (answers : Answers) : List String :=
  match (do
    let _ ← rebaseBaseSha answers
    landedShasAtEntry answers) [] with
  | .ok landed _ => landed.dedup
  | .error _ _ => []

/-- The commit the replay was pinned onto at entry, and the target when it could not be read. -/
def pinnedBase (answers : Answers) (target : String) : String :=
  match rebaseBaseSha answers [] with
  | .ok onto _ => onto.getD target
  | .error _ _ => target

theorem resolveStops_spec (target : String) (stopCap : Int) (fuel : Nat) (hfuel : stopLimit stopCap + (landedAtEntry answers).length ≤ fuel) :
    Triple (fun log => log = []) (resolveStops answers target stopCap fuel)
      (fun result log => WithinBounds (stopLimit stopCap) (landedAtEntry answers).length log ∧
        ∃ resolved, result = some resolved ∧ (resolved = true → Completed (pinnedBase answers target) log))
      fun _ => WithinBounds (stopLimit stopCap) (landedAtEntry answers).length := by
  have hlimit : 0 < stopLimit stopCap := by
    unfold stopLimit
    omega
  have hwithin : ∀ log, AtHead 0 [] log → WithinBounds (stopLimit stopCap) (landedAtEntry answers).length log :=
    fun log hlog => hlog.within (Nat.zero_le _) (Nat.zero_le _)
  have hbase : Triple (fun log => log = []) (rebaseBaseSha answers) (fun onto log => rebaseBaseSha answers [] = .ok onto log ∧ AtHead 0 [] log)
      fun _ => WithinBounds (stopLimit stopCap) (landedAtEntry answers).length := by
    rintro log rfl
    have hkeeps := keepsAtHead (@readRebaseStateSha_quiet answers ["rebase-merge/onto", "rebase-apply/onto"])
      0 [] [] ⟨trivial, rfl, Nat.le_refl 0⟩
    change Ends _ _ (rebaseBaseSha answers []) at hkeeps
    cases hresult : rebaseBaseSha answers [] with
    | ok onto log =>
      rw [hresult] at hkeeps
      exact ⟨rfl, hkeeps⟩
    | error exc log =>
      rw [hresult] at hkeeps
      exact hwithin log hkeeps
  refine Triple.bind hbase fun onto => ?_
  have hlanded : Triple (fun log => rebaseBaseSha answers [] = .ok onto log ∧ AtHead 0 [] log) (landedShasAtEntry answers)
      (fun landed log => (landedAtEntry answers = landed.dedup ∧ pinnedBase answers target = onto.getD target) ∧ AtHead 0 [] log)
      fun _ => WithinBounds (stopLimit stopCap) (landedAtEntry answers).length := by
    rintro log ⟨honto, hlog⟩
    have hkeeps := keepsAtHead (landedShasAtEntry_quiet answers) 0 [] log hlog
    have hentry : landedAtEntry answers = (match landedShasAtEntry answers log with | .ok landed _ => landed.dedup | .error _ _ => []) := by
      unfold landedAtEntry
      change (match EStateM.bind (rebaseBaseSha answers) (fun _ => landedShasAtEntry answers) [] with
        | .ok landed _ => landed.dedup | .error _ _ => []) = _
      unfold EStateM.bind
      rw [honto]
    have hpinned : pinnedBase answers target = onto.getD target := by
      unfold pinnedBase
      rw [honto]
    cases hresult : landedShasAtEntry answers log with
    | ok landed log =>
      rw [hresult] at hkeeps hentry
      exact ⟨⟨hentry, hpinned⟩, hkeeps⟩
    | error exc log =>
      rw [hresult] at hkeeps
      exact hwithin log hkeeps
  refine Triple.bind hlanded fun landed => ?_
  rintro log ⟨⟨hentry, hpinned⟩, hlog⟩
  rw [hentry] at hfuel ⊢
  rw [hpinned]
  exact resolveLoop_spec target (onto.getD target) stopCap landed.dedup fuel 0 [] hlimit nodup_nil
    (nil_subset _) (by simpa using hfuel) log hlog

/-- The loop never raises and returns within the caps; it continues from a guarded log, and succeeds with the replay complete. -/
theorem rebase_stop_loop_bounded (answers : Answers) (target : String) (stopCap : Int) (session : Option Int) (fuel : Nat)
    (hfuel : stopLimit (configuredStopCap session stopCap) + (landedAtEntry answers).length ≤ fuel) :
    ∃ resolved log, resolveRebaseInProgress answers target stopCap session fuel [] = .ok (some resolved) log ∧
      passes log ≤ stopLimit (configuredStopCap session stopCap) + (landedAtEntry answers).length ∧
      resolverCalls log ≤ stopLimit (configuredStopCap session stopCap) ∧
      Guarded log ∧
      (resolved = true → Completed (pinnedBase answers target) log) := by
  have hends : Triple (fun log => log = []) (resolveRebaseInProgress answers target stopCap session fuel)
      (fun result log => WithinBounds (stopLimit (configuredStopCap session stopCap)) (landedAtEntry answers).length log ∧
        ∃ resolved, result = some resolved ∧ (resolved = true → Completed (pinnedBase answers target) log))
      fun _ _ => False :=
    Triple.tryCatch (resolveStops_spec target _ fuel hfuel) fun exc =>
      Triple.pure fun log hlog => ⟨hlog, false, rfl, fun h => by cases h⟩
  have hrun := hends [] rfl
  cases hresult : resolveRebaseInProgress answers target stopCap session fuel [] with
  | ok result log =>
    rw [hresult] at hrun
    obtain ⟨⟨hguarded, hpasses, hcalls⟩, resolved, rfl, hcompleted⟩ := hrun
    exact ⟨resolved, log, rfl, hpasses, hcalls, hguarded, hcompleted⟩
  | error exc log =>
    rw [hresult] at hrun
    exact hrun.elim

def benign : (query : Query) → query.Answer
  | .rebaseInProgress => false
  | .indexConflicts => false
  | .headDetached => false
  | .commitKnown _ => true
  | .rebaseContinue => {}
  | .rebaseSkip => {}
  | .isAncestor _ => {}
  | .revParseRebaseHead => { stdout := "c1" }
  | .rebaseHeadSubject => { stdout := "work" }
  | .replayedSubjects => { stdout := "work" }
  | .statePath relative => { stdout := relative }
  | .conflictedFiles => ["a.txt"]
  | .stateText _ => some "onto"
  | .stateInt _ => none
  | .loadProgress => none
  | .clearProgress => ()
  | .saveProgress _ => ()
  | .worktreeDirtyPaths => some []
  | .revertUnrequestedPaths _ => true
  | .tryDeterministicResolution _ => false
  | .resolver _ _ => true
  | .stagePaths _ => true
  | .removeOrtResidue _ => true
  | .pathsWithConflictMarkers _ => []
  | .stagedConflictMarkerPaths => []
  | .stagedPaths => []
  | .unmergedPaths => []

def oneStop : Answers := fun log query =>
  match query with
  | .rebaseInProgress => .ok (!log.any continues)
  | query => .ok (benign query)

theorem one_stop_is_resolved : stopLimit (configuredStopCap none 10) + (landedAtEntry oneStop).length = 10 ∧
      ∃ resolved log, resolveRebaseInProgress oneStop "main" 10 none 10 [] = .ok (some resolved) log ∧
        passes log ≤ stopLimit (configuredStopCap none 10) + (landedAtEntry oneStop).length ∧
        resolverCalls log ≤ stopLimit (configuredStopCap none 10) ∧ Guarded log ∧
        (resolved = true → Completed (pinnedBase oneStop "main") log) :=
  ⟨by decide +kernel, rebase_stop_loop_bounded oneStop "main" 10 none 10 (by decide +kernel)⟩

/-- A staged stop whose replay came out empty, and so does the one after it. -/
def emptiedReplay : Answers := fun log query =>
  match query with
  | .rebaseInProgress => .ok (decide (log.countP continues < 2))
  | .conflictedFiles => .ok []
  | .rebaseContinue => .ok (if log.any continues then {} else { returncode := 1, stdout := "nothing to commit" })
  | .rebaseSkip => .ok { returncode := 1, stdout := "nothing to commit" }
  | query => .ok (benign query)

def unreadableOnto : Answers := fun log query =>
  match query with
  | .rebaseInProgress => .ok (!log.any continues)
  | .statePath _ => .ok { returncode := 128 }
  | query => .ok (benign query)

/-- Every continuation came right after nothing was found unmerged. -/
def alwaysJustClean : List Act → Bool
  | [] => true
  | act :: older => (!continues act || justClean older) && alwaysJustClean older

def finalLog (answers : Answers) : List Act :=
  match resolveRebaseInProgress answers "main" 10 none 10 [] with
  | .ok _ log => log
  | .error _ log => log

def asksAncestor (revision : String) : Act → Bool
  | .asked (.isAncestor asked) _ => asked = revision
  | _ => false

def succeeds (answers : Answers) : Bool :=
  match resolveRebaseInProgress answers "main" 10 none 10 [] with
  | .ok resolved _ => resolved = some true
  | .error _ _ => false

/-- After a skip the rebase goes on without a look at the index, and success is reported on the target's name. -/
theorem skip_continues_and_fallback_base : alwaysJustClean (finalLog emptiedReplay) = false ∧ succeeds unreadableOnto = true ∧
      (finalLog unreadableOnto).any (asksAncestor "onto") = false :=
  ⟨by decide +kernel, by decide +kernel, by decide +kernel⟩

end RalphWorkflow.Integration
