import RalphWorkflow.Pipeline.AutoIntegrate.Attempt

/-! An attempt clears its record in five places. The one before which nothing in progress is proved is safe however git behaves; the
others are safe exactly as long as no call that leads to them ends with an operation in progress. -/
namespace RalphWorkflow.Integration
open Lib.Effect Pipeline.AutoIntegrate List

/-! ## Calls that endanger the record -/

def propagates : AttemptCall → Bool
  | .rebaseInProgress .abort | .rebaseInProgress .guard | .abortRebase | .mergeState | .setResolving | .postFeatureSha => false
  | .gitDir _ | .headMatches _ | .deleteBackupRef _ => false
  | _ => true

def raisesException {α : Type} : Except Failure α → Bool
  | .error (.exception _) => true
  | _ => false

def interrupted {α : Type} : Except Failure α → Bool
  | .error .interrupt => true
  | _ => false

/-- In an operation a caught exception, a failed read of HEAD, or the end after the landing clears the record. -/
def endangers (event : Event) : Bool :=
  !event.inFlight.idle &&
    if event.call = .deleteBackupRef .landed then !interrupted event.result
    else (propagates event.call || event.call = .postFeatureSha) && raisesException event.result

/-! ## States of an attempt -/

structure Fine (w : World) : Prop where
  clears : ∀ ops ∈ w.clears, ops.idle = true
  calls : ∀ event ∈ w.log, endangers event = false

def Broken (w : World) : Prop := (∃ ops ∈ w.clears, ops.idle = false) ∧ ∃ event ∈ w.log, endangers event = true

structure Held (w : World) : Prop where
  fine : Fine w
  record : w.record.isSome = true

structure Rested (w : World) : Prop where
  fine : Fine w
  idle : w.inFlight.idle = true

/-- The next thing that happens is that the record is cleared with an operation in progress. -/
structure Pending (w : World) : Prop where
  call : ∃ event ∈ w.log, endangers event = true
  busy : w.inFlight.idle = false
  record : w.record.isSome = true

structure Owned (w : World) : Prop where
  fine : Fine w
  record : w.inFlight.idle = false → w.record.isSome = true

def Escaped (exc : AttemptExc) (w : World) : Prop :=
  match exc with
  | .exception _ => Rested w ∨ Pending w
  | _ => Owned w

variable {w : World} {call : AttemptCall} {P : World → Prop} {E : AttemptExc → World → Prop}

theorem Held.owned (h : Held w) : Owned w := ⟨h.fine, fun _ => h.record⟩

theorem Rested.owned (h : Rested w) : Owned w :=
  ⟨h.fine, fun hbusy => absurd h.idle (by simp [hbusy])⟩

theorem Rested.escaped (h : Rested w) (exc : AttemptExc) : Escaped exc w := by
  cases exc with
  | exception text => exact .inl h
  | terminalStateViolation => exact h.owned
  | interrupt => exact h.owned

theorem broken_mono (s t : World) (h : s ≤ t) (hs : Broken s) : Broken t := by
  obtain ⟨⟨ops, hops, hbusy⟩, event, hevent, hendangers⟩ := hs
  exact ⟨⟨ops, h.1.subset hops, hbusy⟩, event, h.2.subset hevent, hendangers⟩

/-! ## One call -/

def callEvent (w : World) (call : AttemptCall) (reply : Reply call.Answer) : Event :=
  { call, result := reply.result, inFlight := if call.moves then reply.inFlight else w.inFlight }

theorem fine_after {reply : Reply call.Answer} (hw : Fine w) (hevent : endangers (callEvent w call reply) = false)
    (hclear : call = .reconcileTarget → w.inFlight.idle = true) : Fine (w.after call reply) := by
  constructor
  · intro ops hops
    unfold World.after at hops
    dsimp only at hops
    split at hops
    · rename_i hcond
      rcases mem_cons.mp hops with rfl | hops
      · exact hclear hcond.1
      · exact hw.clears ops hops
    · exact hw.clears ops hops
  · intro event hmem
    rcases mem_cons.mp hmem with rfl | hmem
    · exact hevent
    · exact hw.calls event hmem

theorem held_after {reply : Reply call.Answer} (hw : Held w)
    (hevent : endangers (callEvent w call reply) = false) (hcall : call ≠ .reconcileTarget) : Held (w.after call reply) := by
  refine ⟨fine_after hw.fine hevent fun h => absurd h hcall, ?_⟩
  unfold World.after
  dsimp only
  rw [if_neg hcall]
  exact hw.record

theorem pending_after {reply : Reply call.Answer} (hw : Held w)
    (hevent : endangers (callEvent w call reply) = true) (hcall : call ≠ .reconcileTarget) : Pending (w.after call reply) := by
  refine ⟨⟨callEvent w call reply, mem_cons_self, hevent⟩, ?_, ?_⟩
  · unfold endangers at hevent
    rw [Bool.and_eq_true_iff, Bool.not_eq_true'] at hevent
    exact hevent.1
  · unfold World.after
    dsimp only
    rw [if_neg hcall]
    exact hw.record

theorem rested_after {reply : Reply call.Answer} (hw : Rested w) (hcall : call.moves = false) : Rested (w.after call reply) := by
  have hops : (callEvent w call reply).inFlight = w.inFlight := if_neg (by simp [hcall])
  refine ⟨fine_after hw.fine ?_ fun _ => hw.idle, ?_⟩
  · unfold endangers
    rw [hops, hw.idle]
    rfl
  · show (callEvent w call reply).inFlight.idle = true
    rw [hops]
    exact hw.idle

theorem perform_ends {behaviour : Behaviour} {Q : call.Answer → World → Prop}
    (hok : ∀ w answer reply, P w → reply.result = .ok answer → Q answer (w.after call reply) ∨ Broken (w.after call reply))
    (herror : ∀ w failure reply, P w → reply.result = .error failure →
      E failure.raised (w.after call reply) ∨ Broken (w.after call reply)) : Guards Broken P (perform behaviour call) Q E := by
  intro w hw
  dsimp only [perform]
  cases hresult : (behaviour w.log call).result with
  | ok answer => exact hok w answer _ hw hresult
  | error failure => exact herror w failure _ hw hresult

theorem endangers_callEvent (hcall : call ≠ .deleteBackupRef .landed) (w : World) (reply : Reply call.Answer) :
    endangers (callEvent w call reply) = (!(callEvent w call reply).inFlight.idle &&
        ((propagates call || call = .postFeatureSha) && raisesException reply.result)) :=
  congrArg (!(callEvent w call reply).inFlight.idle && ·) (if_neg hcall)

theorem perform_raises {behaviour : Behaviour} {Q : call.Answer → World → Prop} (h : Guards Broken P (perform behaviour call) Q E) :
    Guards Broken P (perform behaviour call) Q fun exc w => E exc w ∧ exc ≠ .terminalStateViolation := by
  intro w hw
  have hends := h w hw
  change Ends _ _ ((perform behaviour call).run w) at hends ⊢
  dsimp only [perform] at hends ⊢
  cases hresult : (behaviour w.log call).result with
  | ok answer =>
    rw [hresult] at hends
    exact hends
  | error failure =>
    rw [hresult] at hends
    refine hends.imp_left fun h => ⟨h, ?_⟩
    cases failure with
    | exception text => exact AttemptExc.noConfusion
    | interrupt => exact AttemptExc.noConfusion

theorem endangers_ok {reply : Reply call.Answer} {answer : call.Answer}
    (hcall : call ≠ .deleteBackupRef .landed) (h : reply.result = .ok answer) : endangers (callEvent w call reply) = false := by
  rw [endangers_callEvent hcall, h]
  simp [raisesException]

theorem endangers_interrupt {reply : Reply call.Answer} (h : reply.result = .error .interrupt) : endangers (callEvent w call reply) = false := by
  by_cases hcall : call = .deleteBackupRef .landed
  · unfold endangers callEvent
    dsimp only
    rw [h, if_pos hcall]
    simp [interrupted]
  · rw [endangers_callEvent hcall, h]
    simp [raisesException]

theorem perform_held {behaviour : Behaviour} (hcall : call ≠ .deleteBackupRef .landed)
    (hreconcile : call ≠ .reconcileTarget) (hpropagates : propagates call = true) :
    Guards Broken Held (perform behaviour call) (fun _ => Held) Escaped := by
  refine perform_ends (fun w answer reply hw hok => .inl (held_after hw (endangers_ok hcall hok) hreconcile)) ?_
  intro w failure reply hw herror
  cases failure with
  | interrupt => exact .inl (held_after hw (endangers_interrupt herror) hreconcile).owned
  | exception text =>
    cases hevent : endangers (callEvent w call reply) with
    | true => exact .inl (.inr (pending_after hw hevent hreconcile))
    | false =>
      refine .inl (.inl ⟨(held_after hw hevent hreconcile).fine, ?_⟩)
      rw [endangers_callEvent hcall, hpropagates, herror] at hevent
      show (callEvent w call reply).inFlight.idle = true
      simpa [raisesException] using hevent

theorem perform_contained {behaviour : Behaviour} (hcall : call ≠ .deleteBackupRef .landed)
    (hreconcile : call ≠ .reconcileTarget) (hpost : call ≠ .postFeatureSha) (hpropagates : propagates call = false) :
    Guards Broken Held (perform behaviour call) (fun _ => Held) fun _ => Held := by
  refine perform_ends (fun w answer reply hw hok => .inl (held_after hw (endangers_ok hcall hok) hreconcile)) ?_
  intro w failure reply hw herror
  refine .inl (held_after hw ?_ hreconcile)
  rw [endangers_callEvent hcall, hpropagates]
  simp [hpost]

theorem perform_rested {behaviour : Behaviour} (hmoves : call.moves = false) :
    Guards Broken Rested (perform behaviour call) (fun _ => Rested) fun _ => Rested :=
  perform_ends (fun _ _ _ hw _ => .inl (rested_after hw hmoves)) fun _ _ _ hw _ => .inl (rested_after hw hmoves)

/-! ## Containment -/

theorem Guards.seq {α β : Type} {x : Attempt α} {f : α → Attempt β} {R : α → World → Prop} {Q : β → World → Prop} (hx : Guards Broken P x R E) (hf : ∀ a, Guards Broken (R a) (f a) Q E) :
    Guards Broken P (x >>= f) Q E :=
  Guards.bind broken_mono hx hf

theorem contained_spec {α : Type} {I : World → Prop} {Q : α → World → Prop} {default : α} {x : Attempt α}
    (h : Guards Broken P x Q fun _ => I) (hdefault : ∀ w, I w → Q default w) (howned : ∀ w, I w → Owned w) :
    Guards Broken P (contained default x) Q fun exc w => Escaped exc w ∧ exc = .interrupt := by
  refine Guards.tryCatch broken_mono h fun exc => ?_
  cases exc with
  | interrupt => exact Guards.throw fun w hw => ⟨howned w hw, rfl⟩
  | exception text => exact Guards.pure hdefault
  | terminalStateViolation => exact Guards.pure hdefault

theorem look_spec : Guards Broken P operationsInFlight (fun ops w => P w ∧ ops = w.inFlight) E :=
  fun _ hw => .inl ⟨hw, rfl⟩

theorem put_held (h : ∀ w, P w → Fine w) (record : IntegrationRecord) : Guards Broken P (putRecord record) (fun _ => Held) E :=
  fun w hw => .inl ⟨⟨(h w hw).clears, (h w hw).calls⟩, rfl⟩

theorem clear_spec : Guards Broken (fun w => Rested w ∨ Pending w) clearRecord (fun _ => Rested) E := by
  intro w hw
  show Rested w.cleared ∨ Broken w.cleared
  unfold World.cleared
  rcases hw with hw | hw
  · left
    split
    · exact hw
    · refine ⟨⟨?_, hw.fine.calls⟩, hw.idle⟩
      intro ops hops
      rcases mem_cons.mp hops with rfl | hops
      · exact hw.idle
      · exact hw.fine.clears ops hops
  · right
    obtain ⟨record, hrecord⟩ := Option.isSome_iff_exists.mp hw.record
    rw [hrecord]
    exact ⟨⟨w.inFlight, mem_cons_self, hw.busy⟩, hw.call⟩

/-! ## Steady invariants -/

structure Steady (I : World → Prop) : Prop where
  owned : ∀ w, I w → Owned w
  performs : ∀ (behaviour : Behaviour) (call : AttemptCall), call.moves = false → call ≠ .reconcileTarget →
    propagates call = true → Guards Broken I (perform behaviour call) (fun _ => I) fun exc w =>
      Escaped exc w ∧ exc ≠ .terminalStateViolation
  contains : ∀ (behaviour : Behaviour) (call : AttemptCall), call.moves = false → call ≠ .deleteBackupRef .landed →
    call ≠ .postFeatureSha → propagates call = false →
      Guards Broken I (perform behaviour call) (fun _ => I) fun _ => I

theorem held_steady : Steady Held where
  owned := fun _ hw => hw.owned
  performs := by
    intro behaviour call _ hreconcile hpropagates
    refine perform_raises (perform_held (fun h => ?_) hreconcile hpropagates)
    subst h
    cases hpropagates
  contains := by
    intro behaviour call _ hlanded hpost hpropagates
    refine perform_contained hlanded (fun h => ?_) hpost hpropagates
    subst h
    cases hpropagates

theorem rested_steady : Steady Rested where
  owned := fun _ hw => hw.owned
  performs := fun _ _ hmoves _ _ =>
    perform_raises ((perform_rested hmoves).consequence (fun _ h => h) (fun _ _ h => h) fun exc _ h => h.escaped exc)
  contains := fun _ _ hmoves _ _ _ => perform_rested hmoves

variable {behaviour : Behaviour} {I : World → Prop}

theorem postAttemptVerify_keeps (hI : Steady I) (check : Check) (expectedHead owns : Bool) :
    Guards Broken I (postAttemptVerify behaviour check expectedHead owns) (fun _ => I)
      fun exc w => Escaped exc w ∧ (exc = .terminalStateViolation → I w) := by
  have hcontained : ∀ call, call.moves = false → call ≠ .deleteBackupRef .landed → call ≠ .postFeatureSha →
      propagates call = false → ∀ default, Guards Broken I (contained default (perform behaviour call)) (fun _ => I)
        fun exc w => Escaped exc w ∧ (exc = .terminalStateViolation → I w) := by
    intro call hmoves hlanded hpost hpropagates default
    exact (contained_spec (hI.contains behaviour call hmoves hlanded hpost hpropagates) (fun _ h => h) hI.owned).consequence
      (fun _ h => h) (fun _ _ h => h) fun exc w h => ⟨h.1, fun heq => by rw [h.2] at heq; cases heq⟩
  have hviolation : ∀ {α : Type} {P : World → Prop} {Q : α → World → Prop}, (∀ w, P w → I w) →
      Guards Broken P (throw .terminalStateViolation : Attempt α) Q
        fun exc w => Escaped exc w ∧ (exc = .terminalStateViolation → I w) :=
    fun h => Guards.throw fun w hw => ⟨hI.owned w (h w hw), fun _ => h w hw⟩
  have hmarkers : Guards Broken I (verifyMarkers behaviour check owns) (fun _ => I)
      fun exc w => Escaped exc w ∧ (exc = .terminalStateViolation → I w) := by
    unfold verifyMarkers
    split
    · exact Guards.pure fun _ hw => hw
    · refine Guards.seq ((hI.performs behaviour (.markers check) rfl (by simp) rfl).consequence (fun _ h => h)
        (fun _ _ h => h) fun exc w h => ⟨h.1, fun heq => absurd heq h.2⟩) fun others => ?_
      refine Guards.seq look_spec fun ops => ?_
      split
      · exact hviolation fun _ h => h.1
      · exact Guards.pure fun _ h => h.1
  refine Guards.seq (hcontained (.gitDir check) rfl (by simp) (by simp) rfl false) fun readable => ?_
  split
  · refine Guards.seq hmarkers fun _ => ?_
    unfold verifyHead
    split
    · refine Guards.seq (hcontained (.headMatches check) rfl (by simp) (by simp) rfl false) fun same => ?_
      split
      · exact Guards.pure fun _ hw => hw
      · exact hviolation fun _ h => h
    · exact Guards.pure fun _ hw => hw
  · exact Guards.pure fun _ hw => hw

theorem verifyAndCleanupBackup_ended (hI : Steady I) (expectedHead owns : Bool) :
    Guards Broken I (verifyAndCleanupBackup behaviour .ended expectedHead owns) (fun _ => I) Escaped := by
  refine Guards.seq ((postAttemptVerify_keeps hI .ended expectedHead owns).consequence (fun _ h => h) (fun _ _ h => h)
    fun _ _ h => h.1) fun _ => ?_
  exact (contained_spec (hI.contains behaviour (.deleteBackupRef .ended) rfl (by simp) (by simp) rfl) (fun _ h => h)
    hI.owned).consequence (fun _ h => h) (fun _ _ h => h) fun _ _ h => h.1

theorem verifyAndCleanupBackup_landed (expectedHead owns : Bool) :
    Guards Broken Held (verifyAndCleanupBackup behaviour .landed expectedHead owns) (fun _ w => Rested w ∨ Pending w) Escaped := by
  refine Guards.seq ((postAttemptVerify_keeps held_steady .landed expectedHead owns).consequence (fun _ h => h)
    (fun _ _ h => h) fun _ _ h => h.1) fun _ => ?_
  have hdelete : Guards Broken Held (perform behaviour (.deleteBackupRef .landed)) (fun _ w => Rested w ∨ Pending w)
      fun exc w => (exc = .interrupt ∧ Owned w) ∨ (exc ≠ .interrupt ∧ (Rested w ∨ Pending w)) := by
    have hended : ∀ w (reply : Reply Unit), Held w → interrupted reply.result = false →
        Rested (w.after (.deleteBackupRef .landed) reply) ∨ Pending (w.after (.deleteBackupRef .landed) reply) := by
      intro w reply hw hinterrupted
      cases hevent : endangers (callEvent w (.deleteBackupRef .landed) reply) with
      | true => exact .inr (pending_after hw hevent (by simp))
      | false =>
        refine .inl ⟨(held_after hw hevent (by simp)).fine, ?_⟩
        have hidle : (!(callEvent w (.deleteBackupRef .landed) reply).inFlight.idle && !interrupted reply.result) = false := hevent
        rw [hinterrupted] at hidle
        show (callEvent w (.deleteBackupRef .landed) reply).inFlight.idle = true
        simpa using hidle
    refine perform_ends (fun w answer reply hw hok => .inl (hended w reply hw (by rw [hok]; rfl))) ?_
    intro w failure reply hw herror
    cases failure with
    | interrupt => exact .inl (.inl ⟨rfl, (held_after hw (endangers_interrupt herror) (by simp)).owned⟩)
    | exception text =>
      exact .inl (.inr ⟨fun h => (by cases h), hended w reply hw (by rw [herror]; rfl)⟩)
  refine Guards.tryCatch broken_mono hdelete fun exc => ?_
  split
  · rename_i hinterrupt
    subst hinterrupt
    exact Guards.throw fun w hw => hw.elim (fun h => h.2) fun h => absurd rfl h.1
  · rename_i hcaught
    exact Guards.pure fun w hw => hw.elim (fun h => absurd h.1 hcaught) fun h => h.2

/-! ## Rebase or merge -/

def Kept (w : World) : Prop := Held w ∨ Rested w

theorem clearRecordIfNoInflightOp_spec : Guards Broken Held (clearRecordIfNoInflightOp behaviour) (fun _ => Kept) Escaped := by
  have hquery : ∀ call, call.moves = false → call ≠ .deleteBackupRef .landed → call ≠ .postFeatureSha →
      propagates call = false → ∀ P : World → Prop, (∀ w reply, P w → P (w.after call reply)) →
        Guards Broken (fun w => Held w ∧ P w) (perform behaviour call) (fun _ w => Held w ∧ P w) fun _ => Held := by
    intro call hmoves hlanded hpost hpropagates P hP w hw
    have hends := held_steady.contains behaviour call hmoves hlanded hpost hpropagates w hw.1
    change Ends _ _ ((perform behaviour call).run w) at hends ⊢
    dsimp only [perform] at hends ⊢
    cases hresult : (behaviour w.log call).result with
    | ok answer =>
      rw [hresult] at hends
      exact hends.imp_left fun h => ⟨h, hP w _ hw.2⟩
    | error failure =>
      rw [hresult] at hends
      exact hends
  have hclean : Guards Broken Held (do
      let none ← mergeStateIsNone behaviour
      if none then do
        let paused ← rebaseInProgress behaviour .guard
        pure !paused
      else pure false) (fun clean w => Held w ∧ (clean = true → w.inFlight.idle = true)) fun _ => Held := by
    refine Guards.seq (R := fun none w => Held w ∧ (none = true → w.inFlight.merge = false)) ?_ fun none => ?_
    · refine Guards.seq (held_steady.contains behaviour .mergeState rfl (by simp) (by simp) rfl) fun readable => ?_
      refine Guards.seq look_spec fun ops => Guards.pure ?_
      rintro w ⟨hw, rfl⟩
      refine ⟨hw, fun hnone => ?_⟩
      simpa using (Bool.and_eq_true_iff.mp hnone).2
    · split
      · rename_i hnone
        refine Guards.seq (R := fun paused w => (Held w ∧ w.inFlight.merge = false) ∧ paused = w.inFlight.rebase) ?_
          fun paused => Guards.pure ?_
        · refine Guards.seq ((hquery (.rebaseInProgress .guard) rfl (by simp) (by simp) rfl (fun w => w.inFlight.merge = false)
            fun _ _ h => h).consequence (fun _ h => ⟨h.1, h.2 hnone⟩) (fun _ _ h => h) fun _ _ h => h) fun _ => ?_
          refine Guards.seq look_spec fun ops => Guards.pure ?_
          rintro w ⟨hw, rfl⟩
          exact ⟨hw, rfl⟩
        · rintro w ⟨⟨hw, hmerge⟩, rfl⟩
          refine ⟨hw, fun hpaused => ?_⟩
          unfold InFlight.idle
          rw [hmerge]
          simpa using hpaused
      · exact Guards.pure fun w hw => ⟨hw.1, fun h => by cases h⟩
  refine Guards.seq ((contained_spec hclean (fun w hw => ⟨hw, fun h => by cases h⟩) fun _ hw => hw.owned).consequence
    (fun _ h => h) (fun _ _ h => h) fun _ _ h => h.1) fun clean => ?_
  split
  · rename_i hidle
    exact clear_spec.consequence (fun w hw => .inl ⟨hw.1.fine, hw.2 hidle⟩) (fun _ _ h => .inr h) fun _ _ h => h
  · exact Guards.pure fun w hw => .inl hw.1

/-- A direct result leaves the record or nothing in progress, a completed one the record. -/
def RunEnds : RunResult → World → Prop
  | .shortCircuit _ _ _, w => Kept w
  | .completed _ _, w => Held w

theorem endpointMergeResult_spec (outcome : RebaseOutcome) (resolver : Bool) :
    Guards Broken Held (endpointMergeResult behaviour outcome resolver) RunEnds Escaped := by
  refine Guards.seq (perform_held (by simp) (by simp) rfl) fun merge => ?_
  cases merge with
  | none => exact Guards.seq clearRecordIfNoInflightOp_spec fun _ => Guards.pure fun _ hw => hw
  | some merge =>
    dsimp only
    split
    · exact Guards.seq clearRecordIfNoInflightOp_spec fun _ => Guards.pure fun _ hw => hw
    · exact Guards.pure fun _ hw => hw

theorem setResolvingRebase_keeps {J : World → Prop}
    (hcall : ∀ w reply, J w → J (w.after .setResolving reply)) (hput : ∀ w record, J w → J { w with record := some record })
    (resolving : Bool) : Guards Broken J (setResolvingRebase behaviour resolving) (fun _ => J) E := by
  refine Guards.seq (R := fun _ => J) (fun _ hw => .inl hw) fun record => ?_
  cases record with
  | none => exact Guards.pure fun _ hw => hw
  | some current =>
    dsimp only
    split
    · exact Guards.pure fun _ hw => hw
    · refine Guards.seq (R := fun _ => J) ?_ fun written => ?_
      · have hperform : Guards Broken J (perform behaviour .setResolving) (fun _ => J) fun _ => J :=
          perform_ends (fun w _ reply hw _ => .inl (hcall w reply hw)) fun w _ reply hw _ => .inl (hcall w reply hw)
        exact Guards.tryCatch broken_mono (Guards.seq hperform fun _ => Guards.pure fun _ hw => hw)
          fun exc => Guards.pure fun _ hw => hw
      · split
        · refine Guards.seq (R := fun _ => J) (fun w hw => .inl (hput w _ hw)) fun _ => Guards.pure fun _ hw => hw
        · exact Guards.pure fun _ hw => hw

theorem fine_put (h : Fine w) (record : IntegrationRecord) : Fine { w with record := some record } :=
  ⟨h.clears, h.calls⟩

theorem setResolving_fine (h : Fine w) (reply : Reply Unit) : Fine (w.after .setResolving reply) := by
  refine fine_after h ?_ fun heq => by cases heq
  rw [endangers_callEvent (by simp)]
  simp [propagates]

theorem fallbackToEndpointMerge_spec (outcome : RebaseOutcome) (resolver : Bool) :
    Guards Broken Held (fallbackToEndpointMerge behaviour outcome resolver) RunEnds Escaped := by
  have habort : Guards Broken Held (abortRebaseAfterConflict behaviour) (fun _ => Held) Escaped := by
    refine (contained_spec ?_ (fun _ hw => hw) fun _ hw => hw.owned).consequence (fun _ h => h) (fun _ _ h => h)
      fun _ _ h => h.1
    refine Guards.seq (R := fun _ => Held) ?_ fun paused => ?_
    · refine Guards.seq (held_steady.contains behaviour (.rebaseInProgress .abort) rfl (by simp) (by simp) rfl) fun _ => ?_
      exact Guards.seq look_spec fun _ => Guards.pure fun _ hw => hw.1
    · split
      · exact perform_contained (by simp) (by simp) (by simp) rfl
      · exact Guards.pure fun _ hw => hw
  refine Guards.seq (perform_held (by simp) (by simp) rfl) fun keepLanded => ?_
  refine Guards.seq (R := fun _ => Held) ?_ fun _ => ?_
  · split
    · exact Guards.pure fun _ hw => hw
    · exact habort
  · refine Guards.seq (R := fun _ => Held) ?_ fun paused => ?_
    · refine Guards.seq (perform_held (by simp) (by simp) rfl) fun _ => ?_
      exact Guards.seq look_spec fun _ => Guards.pure fun _ hw => hw.1
    · refine Guards.seq (R := fun _ => Held) ?_ fun _ => ?_
      · refine Guards.tryCatch broken_mono (postAttemptVerify_keeps held_steady .fallback false resolver) fun exc => ?_
        split
        · rename_i hviolation
          exact Guards.pure fun _ hw => hw.2 hviolation
        · exact Guards.throw fun _ hw => hw.1
      · split
        · exact Guards.pure fun _ hw => .inl hw
        · exact endpointMergeResult_spec outcome resolver

theorem resolveConflictedRebase_spec : Guards Broken Held (resolveConflictedRebase behaviour) (fun result w => match result with
        | some result => RunEnds result w
        | none => Held w) Escaped := by
  refine Guards.seq (setResolvingRebase_keeps (J := Held) (fun w reply hw => ⟨setResolving_fine hw.fine reply, hw.record⟩)
    (fun w record hw => ⟨fine_put hw.fine record, rfl⟩) true) fun flagged => ?_
  split
  · exact Guards.pure fun _ hw => hw
  · have hresolve : Guards Broken Held (settled (perform behaviour .resolveRebase))
        (fun ended w => match ended with
          | .ok _ => Held w
          | .error exc => Escaped exc w) Escaped :=
      Guards.tryCatch broken_mono (Guards.seq (perform_held (by simp) (by simp) rfl) fun _ => Guards.pure fun _ hw => hw)
        fun exc => Guards.pure fun _ hw => hw
    refine Guards.seq hresolve fun ended => ?_
    refine Guards.seq (setResolvingRebase_keeps ?_ ?_ false) fun _ => ?_
    · intro w reply hw
      cases ended with
      | ok result => exact ⟨setResolving_fine hw.fine reply, hw.record⟩
      | error exc =>
        cases exc with
        | exception text =>
          rcases hw with hw | hw
          · exact .inl ⟨setResolving_fine hw.fine reply, hw.idle⟩
          · exact .inr ⟨hw.call.imp fun event h => ⟨mem_cons_of_mem _ h.1, h.2⟩, hw.busy, hw.record⟩
        | terminalStateViolation => exact ⟨setResolving_fine hw.fine reply, hw.record⟩
        | interrupt => exact ⟨setResolving_fine hw.fine reply, hw.record⟩
    · intro w record hw
      cases ended with
      | ok result => exact ⟨fine_put hw.fine record, rfl⟩
      | error exc =>
        cases exc with
        | exception text =>
          rcases hw with hw | hw
          · exact .inl ⟨fine_put hw.fine record, hw.idle⟩
          · exact .inr ⟨hw.call, hw.busy, rfl⟩
        | terminalStateViolation => exact ⟨fine_put hw.fine record, fun _ => rfl⟩
        | interrupt => exact ⟨fine_put hw.fine record, fun _ => rfl⟩
    · cases ended with
      | error exc => exact Guards.throw fun _ hw => hw
      | ok result =>
        obtain ⟨resolved, exhausted⟩ := result
        cases resolved with
        | true => exact Guards.pure fun _ hw => hw
        | false =>
          cases exhausted with
          | some reason => exact Guards.pure fun _ hw => .inl hw
          | none => exact Guards.pure fun _ hw => hw

theorem runRebaseOrMerge_spec (setup : Setup) (preferMerge : Bool) :
    Guards Broken Held (runRebaseOrMerge behaviour setup preferMerge) RunEnds Escaped := by
  unfold runRebaseOrMerge
  split
  · exact endpointMergeResult_spec _ _
  · refine Guards.seq (perform_held (by simp) (by simp) rfl) fun reason => ?_
    cases reason with
    | some reason => exact endpointMergeResult_spec _ _
    | none =>
      refine Guards.seq (perform_held (by simp) (by simp) rfl) fun outcome => ?_
      cases outcome with
      | success => exact Guards.pure fun _ hw => hw
      | noOp reason => exact Guards.pure fun _ hw => hw
      | failed kind => exact fallbackToEndpointMerge_spec _ _
      | conflicts =>
        dsimp only
        split
        · refine Guards.seq resolveConflictedRebase_spec fun result => ?_
          cases result with
          | some result => exact Guards.pure fun _ hw => hw
          | none => exact fallbackToEndpointMerge_spec _ _
        · exact fallbackToEndpointMerge_spec _ _

/-! ## The attempt -/

theorem readPostIntegrationHeadSha_spec : Guards Broken Held (readPostIntegrationHeadSha behaviour) (fun sha w => match sha with
        | some _ => Held w
        | none => Rested w) Escaped := by
  have hread : Guards Broken Held (perform behaviour .postFeatureSha) (fun _ => Held) Escaped := by
    refine perform_ends (fun w answer reply hw hok => .inl (held_after hw (endangers_ok (by simp) hok) (by simp))) ?_
    intro w failure reply hw herror
    cases failure with
    | interrupt => exact .inl (held_after hw (endangers_interrupt herror) (by simp)).owned
    | exception text =>
      cases hevent : endangers (callEvent w .postFeatureSha reply) with
      | true => exact .inl (.inr (pending_after hw hevent (by simp)))
      | false =>
        refine .inl (.inl ⟨(held_after hw hevent (by simp)).fine, ?_⟩)
        rw [endangers_callEvent (by simp), herror] at hevent
        show (callEvent w .postFeatureSha reply).inFlight.idle = true
        simpa [raisesException] using hevent
  refine Guards.tryCatch broken_mono (Guards.seq (perform_raises hread |>.consequence (fun _ h => h) (fun _ _ h => h)
    fun _ _ h => h) fun sha => Guards.pure fun _ hw => hw) fun exc => ?_
  cases exc with
  | interrupt => exact Guards.throw fun _ hw => hw.1
  | terminalStateViolation => exact fun w hw => absurd rfl hw.2
  | exception text =>
    refine Guards.seq (clear_spec.consequence (fun w hw => hw.1) (fun _ _ h => h) fun _ _ h => h) fun _ => ?_
    exact Guards.pure fun _ hw => hw

theorem writeRecord_spec (hI : Steady I) (record : IntegrationRecord) : Guards Broken I (writeRecord behaviour record) (fun _ => Held) Escaped :=
  Guards.seq ((hI.performs behaviour .writeRecord rfl (by simp) rfl).consequence (fun _ h => h) (fun _ _ h => h)
    fun _ _ h => h.1) fun _ => put_held (fun w hw => (hI.owned w hw).fine) record

theorem integrateOnce_spec (setup : Setup) (preferMerge : Bool) {publication : Attempt (Option Publication)}
    {T : World → Prop} (howned : ∀ w, T w → Owned w)
    (hpublication : Guards Broken Rested publication (fun _ => T) Escaped) :
    Guards Broken Rested (integrateOnce behaviour setup preferMerge publication)
      (fun integration w => Owned w ∧ (landedIntegration integration = true → T w)) Escaped := by
  have hfirst : ∀ call, call.moves = false → call ≠ .reconcileTarget → propagates call = true →
      Guards Broken Rested (perform behaviour call) (fun _ => Rested) Escaped :=
    fun call hmoves hreconcile hpropagates =>
      (rested_steady.performs behaviour call hmoves hreconcile hpropagates).consequence (fun _ h => h) (fun _ _ h => h)
        fun _ _ h => h.1
  refine Guards.seq (hfirst .preFeatureSha rfl (by simp) rfl) fun preFeatureSha => ?_
  refine Guards.seq (hfirst .preTargetSha rfl (by simp) rfl) fun preTargetSha => ?_
  refine Guards.seq (writeRecord_spec rested_steady _) fun _ => ?_
  refine Guards.seq (perform_held (by simp) (by simp) rfl) fun _ => ?_
  refine Guards.seq (runRebaseOrMerge_spec setup preferMerge) fun result => ?_
  cases result with
  | shortCircuit action reason exhausted =>
    have hended : Guards Broken Kept (verifyAndCleanupBackup behaviour .ended true setup.resolver) (fun _ => Kept) Escaped :=
      Guards.cases
        ((verifyAndCleanupBackup_ended held_steady _ _).consequence (fun _ h => h) (fun _ _ h => .inl h) fun _ _ h => h)
        ((verifyAndCleanupBackup_ended rested_steady _ _).consequence (fun _ h => h) (fun _ _ h => .inr h) fun _ _ h => h)
    refine Guards.seq hended fun _ => Guards.pure ?_
    exact fun w hw => ⟨hw.elim Held.owned Rested.owned, fun h => by cases h⟩
  | completed action reason =>
    refine Guards.seq readPostIntegrationHeadSha_spec fun sha => ?_
    cases sha with
    | none =>
      refine Guards.seq (verifyAndCleanupBackup_ended rested_steady _ _) fun _ => Guards.pure ?_
      exact fun w hw => ⟨hw.owned, fun h => by cases h⟩
    | some featureSha =>
      refine Guards.seq (writeRecord_spec held_steady _) fun _ => ?_
      refine Guards.seq (perform_held (by simp) (by simp) rfl) fun refused => ?_
      refine Guards.seq (verifyAndCleanupBackup_landed _ _) fun _ => ?_
      refine Guards.seq clear_spec fun _ => ?_
      cases refused with
      | some text => exact Guards.pure fun w hw => ⟨hw.owned, fun h => by cases h⟩
      | none =>
        refine Guards.seq hpublication fun published => Guards.pure ?_
        exact fun w hw => ⟨howned w hw, fun _ => hw⟩

/-! ## Publication -/

def CycleEnds (cycle : PushCycle) (w : World) : Prop :=
  Owned w ∧ ((cycle.success || !cycle.pushed) = false → Rested w)

theorem reintegrate_spec (setup : Setup) : Guards Broken Rested (do
      let integration ← integrateOnce behaviour setup false (pure none)
      pure (landedIntegration integration)) (fun landed w => Owned w ∧ (landed = true → Rested w)) Escaped :=
  Guards.seq (integrateOnce_spec setup false (T := Rested) (fun _ hw => hw.owned) (Guards.pure fun _ hw => hw))
    fun _ => Guards.pure fun _ hw => hw

theorem attemptReconcileAndPush_spec {reintegrate : Attempt Bool}
    (hreintegrate : Guards Broken Rested reintegrate (fun landed w => Owned w ∧ (landed = true → Rested w)) Escaped) :
    Guards Broken Rested (attemptReconcileAndPush behaviour reintegrate) CycleEnds Escaped := by
  have hcall : ∀ call, call.moves = false → Guards Broken Rested (perform behaviour call) (fun _ => Rested) Escaped :=
    fun call hmoves => (perform_rested hmoves).consequence (fun _ h => h) (fun _ _ h => h) fun exc _ h => h.escaped exc
  have hends : ∀ cycle : PushCycle, Guards Broken Rested (pure cycle : Attempt PushCycle) CycleEnds Escaped :=
    fun cycle => Guards.pure fun _ hw => ⟨hw.owned, fun _ => hw⟩
  have hpush : Guards Broken Rested (do
      let landed ← reintegrate
      if landed = false then pure { success := false, pushed := false, status := none }
      else do
        let status ← perform behaviour .pushToRemote
        pure { success := status.success, pushed := status ≠ .missingRemote, status := some status }) CycleEnds Escaped := by
    refine Guards.seq hreintegrate fun landed => ?_
    split
    · exact Guards.pure fun _ hw => ⟨hw.1, fun h => by cases h⟩
    · rename_i hlanded
      refine Guards.seq ((hcall .pushToRemote rfl).consequence (fun w hw => hw.2 (by simpa using hlanded)) (fun _ _ h => h)
        fun _ _ h => h) fun status => hends _
  refine Guards.seq (hcall .refreshFromRemote rfl) fun refresh => ?_
  split
  · exact hends _
  · exact hends _
  · refine Guards.seq (hcall .reconcileTarget rfl) fun reconciliation => ?_
    split
    · exact hpush
    · exact hends _
  · exact hpush

theorem reconcileAfterRejectedPush_spec {reintegrate : Attempt Bool}
    (hreintegrate : Guards Broken Rested reintegrate (fun landed w => Owned w ∧ (landed = true → Rested w)) Escaped)
    (left : Nat) (status : Option PushStatus) :
    Guards Broken Rested (reconcileAfterRejectedPush behaviour reintegrate left status) (fun _ => Owned) Escaped := by
  induction left generalizing status with
  | zero => exact Guards.pure fun _ hw => hw.owned
  | succ left ih =>
    refine Guards.seq (attemptReconcileAndPush_spec hreintegrate) fun cycle => ?_
    split
    · exact Guards.pure fun _ hw => hw.1
    · rename_i hagain
      exact (ih cycle.status).consequence (fun w hw => hw.2 (by simpa using hagain)) (fun _ _ h => h) fun _ _ h => h

theorem publishLanding_spec (setup : Setup) : Guards Broken Rested (publishLanding behaviour setup) (fun _ => Owned) Escaped := by
  refine Guards.seq ((perform_rested rfl).consequence (fun _ h => h) (fun _ _ h => h)
    fun exc _ h => h.escaped exc) fun pushed => ?_
  cases pushed with
  | none => exact Guards.pure fun _ hw => hw.owned
  | some pushed =>
    obtain ⟨status, detail⟩ := pushed
    dsimp only
    split
    · exact Guards.seq (reconcileAfterRejectedPush_spec (reintegrate_spec setup) _ _) fun _ => Guards.pure fun _ hw => hw
    · exact Guards.pure fun _ hw => hw.owned

/-! ## The handler -/

variable (behaviour) in
theorem integrationAttempt_spec (setup : Setup) (preferMerge : Bool) :
    Guards Broken Rested (integrationAttempt behaviour setup preferMerge) (fun _ => Owned) fun _ => Owned := by
  refine Guards.tryCatch broken_mono (Guards.seq (integrateOnce_spec setup preferMerge (fun _ hw => hw)
    (publishLanding_spec setup)) fun _ => Guards.pure fun _ hw => hw.1) fun exc => ?_
  cases exc with
  | exception text => exact Guards.seq clear_spec fun _ => Guards.pure fun _ hw => hw.owned
  | terminalStateViolation => exact Guards.throw fun _ hw => hw
  | interrupt => exact Guards.throw fun _ hw => hw

/-- The state an attempt leaves when it starts with nothing in progress, over whatever record is on disk. -/
def worldAfter (behaviour : Behaviour) (setup : Setup) (preferMerge : Bool) (record : Option IntegrationRecord) : World :=
  resultState ((integrationAttempt behaviour setup preferMerge).run { inFlight := {}, record })

/-- A rebase stops on a conflict, and asking for its landed stops times out. -/
def timeoutAfterConflict : Behaviour := fun _ call =>
  match call with
  | .preFeatureSha => { result := .ok "f1" }
  | .preTargetSha => { result := .ok (some "t1") }
  | .rangeRouting => { result := .ok none }
  | .rebaseOnto => { result := .ok .conflicts, inFlight := { rebase := true } }
  | .landedStops => { result := .error (.exception "git rev-parse timed out") }
  | .writeRecord => { result := .ok () }
  | .createBackupRef => { result := .ok () }
  | _ => { result := .error .interrupt }

def plainSetup : Setup where
  target := "main"
  resolver := false
  stopResolver := false

end RalphWorkflow.Integration
