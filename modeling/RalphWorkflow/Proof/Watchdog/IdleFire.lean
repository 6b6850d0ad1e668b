import RalphWorkflow.Proof.Watchdog.Silence

/-! A silent agent is drained and then fired, as long as a live subagent cannot be fresh without being heard. -/
namespace RalphWorkflow.Agents.IdleWatchdog
open List

variable {w : IdleWatchdog} {t : Tick}

/-! ## Evaluation after evaluation -/

def Fires : IdleWatchdog → List Tick → Prop
  | _, [] => False
  | w, t :: rest => (w.evaluate t).1 = .fire ∨ Fires (w.evaluate t).2 rest

def afterTicks (w : IdleWatchdog) (calls : List Tick) : IdleWatchdog := calls.foldl (fun w t => (w.evaluate t).2) w

theorem fires_append {first second : List Tick} : w.Fires (first ++ second) ↔ w.Fires first ∨ (w.afterTicks first).Fires second := by
  induction first generalizing w with
  | nil => simp [Fires, afterTicks]
  | cons t rest ih => simp only [cons_append, Fires, ih, afterTicks, foldl_cons, or_assoc]

theorem evaluate_standing (hstandard : w.config.profile = .standard) (hquiet : t.Quiet) : (w.evaluate t).2.standing = w.standing := by
  rw [evaluate_of_quiet hstandard hquiet]
  exact evaluateStandard_steady.standing

theorem afterTicks_standing {calls : List Tick} (hstandard : w.config.profile = .standard) (hquiet : ∀ t ∈ calls, t.Quiet) :
    (w.afterTicks calls).standing = w.standing := by
  induction calls generalizing w with
  | nil => rfl
  | cons t rest ih =>
    have hstep : (w.evaluate t).2.standing = w.standing := evaluate_standing hstandard (hquiet t mem_cons_self)
    have hconfig : (w.evaluate t).2.config = w.config := congrArg Standing.config hstep
    have hrest := ih (w := (w.evaluate t).2) (hconfig ▸ hstandard) fun t ht => hquiet t (mem_cons_of_mem _ ht)
    exact hrest.trans hstep

theorem fires_or_drains {calls : List Tick} {startedAt : ℚ} (hsilent : ∀ t ∈ calls, w.Silent t.now) (hdated : w.LivenessDated)
    (hquiet : ∀ t ∈ calls, t.Quiet) (hdrain : w.drainStartedAt = some startedAt) :
    w.Fires calls ∨ (w.afterTicks calls).drainStartedAt = some startedAt := by
  induction calls generalizing w with
  | nil => exact .inr hdrain
  | cons t rest ih =>
    have hnow := hsilent t mem_cons_self
    have hhere := hquiet t mem_cons_self
    have hstanding := evaluate_standing hnow.standard hhere
    have hstep : FiresOrDrains w t (w.evaluate t) := by
      rw [evaluate_of_quiet hnow.standard hhere]
      exact evaluateStandard_drains hnow hdated hhere
    rcases hstep with hfire | ⟨since, hsince, ⟨hnone, -⟩ | ⟨hsame, -⟩⟩
    · exact .inl (.inl hfire)
    · rw [hdrain] at hnone
      cases hnone
    · cases hdrain.symm.trans hsame
      have hrest := ih (fun t ht => (hsilent t (mem_cons_of_mem _ ht)).congr hstanding) (hdated.congr hstanding)
        (fun t ht => hquiet t (mem_cons_of_mem _ ht)) hsince
      exact hrest.imp .inr id

theorem fires_of_dated {first last : Tick} {between : List Tick} (hdrained : w.DrainedSince first.now)
    (hsilent : ∀ t ∈ first :: between ++ [last], w.Silent t.now) (hdated : w.LivenessDated)
    (hquiet : ∀ t ∈ first :: between ++ [last], t.Quiet) (hapart : w.config.drainWindowSeconds ≤ last.now - first.now) :
    w.Fires (first :: between ++ [last]) := by
  have hmem : ∀ t ∈ between, t ∈ first :: between ++ [last] := by
    intro t ht
    simp [ht]
  have hlast : last ∈ first :: between ++ [last] := by simp
  have hstart := hsilent first mem_cons_self
  have hhere := hquiet first mem_cons_self
  have hstanding := evaluate_standing hstart.standard hhere
  have hstep : FiresOrDrains w first (w.evaluate first) := by
    rw [evaluate_of_quiet hstart.standard hhere]
    exact evaluateStandard_drains hstart hdated hhere
  rw [cons_append, Fires, fires_append]
  rcases hstep with hfire | ⟨startedAt, hdrain, hbegan⟩
  · exact .inl hfire
  have hbefore : startedAt ≤ first.now := by
    rcases hbegan with ⟨-, hnow⟩ | ⟨hon, -⟩
    · exact hnow.le
    · exact hdrained startedAt hon
  rcases fires_or_drains (fun t ht => (hsilent t (hmem t ht)).congr hstanding) (hdated.congr hstanding)
    (fun t ht => hquiet t (hmem t ht)) hdrain with hfire | hon
  · exact .inr (.inl hfire)
  have hlater : ((w.evaluate first).2.afterTicks between).standing = w.standing := by
    have hconfig : (w.evaluate first).2.config = w.config := congrArg Standing.config hstanding
    exact (afterTicks_standing (hconfig ▸ hstart.standard) fun t ht => hquiet t (hmem t ht)).trans hstanding
  generalize (w.evaluate first).2.afterTicks between = reached at hon hlater ⊢
  have hconfig : reached.config = w.config := congrArg Standing.config hlater
  have hend : FiresOrDrains reached last (reached.evaluate last) := by
    rw [evaluate_of_quiet (hconfig ▸ hstart.standard) (hquiet last hlast)]
    exact evaluateStandard_drains ((hsilent last hlast).congr hlater) (hdated.congr hlater) (hquiet last hlast)
  rcases hend with hfire | ⟨since, -, ⟨hnone, -⟩ | ⟨hsame, hwindow⟩⟩
  · exact .inr (.inr (.inl hfire))
  · rw [hon] at hnone
    cases hnone
  · cases hon.symm.trans hsame
    rw [hconfig] at hwindow
    have hover : last.now - first.now ≤ last.now - startedAt := sub_le_sub_left hbefore _
    exact absurd (hapart.trans hover) (not_le.mpr hwindow)

/-! ## A live subagent that never reported -/

structure Probe where
  liveSubagentCount : EvidenceSite → Nat
  corroboration : CorroborationSnapshot

def probed (t : Tick) (probe : Probe) : Tick :=
  { t with liveSubagentCount := probe.liveSubagentCount, corroboration := probe.corroboration }

def liveChild : Probe := { liveSubagentCount := fun _ => 1, corroboration := {} }

theorem quiet_probed {probe : Probe} (h : t.Quiet) : (probed t probe).Quiet := ⟨h.active, h.online, h.unread⟩

theorem liveness_fresh (h : w.Silent t.now) (hundated : ¬w.LivenessDated) : (w.subagentLivenessSummary t.now 1).canDefer = true ∧
      (w.subagentLivenessSummary t.now 1).isFresh w.config.activityEvidenceTtlSeconds = true := by
  obtain ⟨ttl, httl, -⟩ := h.unheard
  simp only [LivenessDated, not_or, not_exists, not_and, Bool.not_eq_false, not_not] at hundated
  obtain ⟨hpositive, hmonitor, hnever⟩ := hundated
  have hage : 0 < ttl := not_le.mp (hpositive ttl httl)
  constructor
  · simp [subagentLivenessSummary, hmonitor]
  · rw [httl]
    simp [subagentLivenessSummary, hmonitor, hnever, ChannelEvidenceSummary.isFresh, hage]

theorem evidence_active (h : w.Silent t.now) (hundated : ¬w.LivenessDated) (site : EvidenceSite) :
    w.channelEvidenceActive (probed t liveChild) site = true := by
  obtain ⟨hdefers, hfresh⟩ := liveness_fresh h hundated
  rw [channelEvidenceActive_eq, any_eq_true]
  refine ⟨w.subagentLivenessSummary t.now 1, ?_, ?_⟩
  · simp [lastEvidenceSummary, probed, liveChild, Tick.now]
  · rw [hdefers, hfresh, Bool.and_self]

theorem gate_shut (h : w.Silent t.now) (hundated : ¬w.LivenessDated) (hquiet : t.Quiet) : ¬w.GateOpen (probed t liveChild) := by
  obtain ⟨hdefers, hfresh⟩ := liveness_fresh h hundated
  have hlive : subagentLivenessFresh (w.lastEvidenceSummary t.now 1) w.config.activityEvidenceTtlSeconds = true := by
    unfold subagentLivenessFresh
    rw [any_eq_true]
    refine ⟨w.subagentLivenessSummary t.now 1, by simp [lastEvidenceSummary], ?_⟩
    rw [hdefers, hfresh]
    rfl
  have hkind : w.classifyStuckNow (probed t liveChild) = .thinking ∨ w.classifyStuckNow (probed t liveChild) = .loading := by
    have honline : ¬(probed t liveChild).connectivity = some "offline" := hquiet.online
    have hsummary : subagentLivenessFresh (w.lastEvidenceSummary (probed t liveChild).now ((probed t liveChild).liveSubagentCount .gate))
        w.config.activityEvidenceTtlSeconds = true := hlive
    unfold classifyStuckNow classifyStuck
    rw [h.notWaiting, if_neg Bool.false_ne_true, if_neg honline, hsummary]
    split
    · exact .inl rfl
    · exact .inr rfl
  unfold GateOpen
  rcases hkind with hkind | hkind
  · rw [hkind]
    decide
  · rw [hkind]
    decide

theorem evaluateFinalVerdict_defers (h : w.Silent t.now) (hundated : ¬w.LivenessDated) (hquiet : t.Quiet) :
    (w.evaluateFinalVerdict (probed t liveChild)).1 = .continue := by
  have hactive : ∀ site, ¬(probed t liveChild).classifyQuiet site = .waitingOnChild := by
    intro site
    rw [(quiet_probed hquiet).active site]
    decide
  have hshut : ¬w.GateOpen (probed t liveChild) := gate_shut h hundated hquiet
  unfold evaluateFinalVerdict
  cases w.drainStartedAt with
  | some startedAt =>
    dsimp only
    unfold handleDrainWindow
    rw [if_neg (hactive _)]
    split_ifs
    · rfl
    · exact fireThroughGate_closed (by decide) hshut
  | none =>
    dsimp only
    rw [postToolResultStalled_eq]
    cases w.postToolStallDue (probed t liveChild) with
    | true => exact fireThroughGate_closed (by decide) hshut
    | false =>
      rw [if_neg Bool.false_ne_true]
      dsimp only
      rw [if_neg (hactive _), if_pos (evidence_active h hundated _)]
      rfl

theorem evaluateIdle_defers (h : w.Silent t.now) (hundated : ¬w.LivenessDated) (hquiet : t.Quiet) :
    (w.evaluateIdle (probed t liveChild) (t.now - w.lastActivity)).1 = .continue := by
  have hstuck : w.strictlyStuckDue (probed t liveChild) = false := by
    unfold strictlyStuckDue
    cases w.config.noProgressQuietStrictlyStuckSeconds with
    | none => rfl
    | some limit => cases w.strictlyStuckRunStartedAt <;> rfl
  have hsame : { w with strictlyStuckRunStartedAt := w.strictlyStuckRun (probed t liveChild) }.standing = w.standing := rfl
  obtain ⟨timeout, htimeout, hidle⟩ := h.idle
  unfold evaluateIdle
  rw [htimeout]
  dsimp only
  rw [evaluateStrictlyStuck_eq, hstuck, if_neg Bool.false_ne_true]
  dsimp only
  unfold evaluateQuiet
  rw [(quiet_probed hquiet).active, if_neg (by decide)]
  dsimp only
  rw [if_neg (not_lt.mpr hidle)]
  exact evaluateFinalVerdict_defers (h.congr hsame) (fun hdated => hundated (hdated.congr hsame.symm)) hquiet

theorem evaluate_defers (h : w.Silent t.now) (hundated : ¬w.LivenessDated) (hquiet : t.Quiet)
    (hsession : w.sessionCeilingReached t = false) : (w.evaluate (probed t liveChild)).1 = .continue := by
  rw [evaluate_of_quiet h.standard (quiet_probed hquiet)]
  have hceiling : w.sessionCeilingReached (probed t liveChild) = false := hsession
  obtain ⟨reason, tracker, hreason, hrepetition⟩ := repetitionReason_eq (w := w) (t := probed t liveChild)
  have hsame : { w with repetitionTracker := tracker }.standing = w.standing := rfl
  have hsilent : { w with repetitionTracker := tracker }.Silent t.now := h.congr hsame
  have hnever : ¬{ w with repetitionTracker := tracker }.LivenessDated := fun hdated => hundated (hdated.congr hsame.symm)
  unfold evaluateStandard
  rw [hceiling, if_neg Bool.false_ne_true, hrepetition]
  cases w.repetitionTripped (probed t liveChild) with
  | true => exact fireThroughGate_closed hreason (gate_shut hsilent hnever hquiet)
  | false =>
    have hstart : { w with repetitionTracker := tracker }.noOutputAtStartDue (probed t liveChild) = false := by
      unfold noOutputAtStartDue
      rw [evidence_active hsilent hnever]
      cases w.config.noOutputAtStartSeconds with
      | none => rfl
      | some limit => cases w.lastMeaningfulOutputAt <;> simp
    rw [if_neg Bool.false_ne_true]
    dsimp only
    rw [evaluateNoOutputAtStart_eq, hstart, if_neg Bool.false_ne_true]
    exact evaluateIdle_defers hsilent hnever hquiet

theorem sessionCeilingReached_later {later : Tick} (hle : t.now ≤ later.now) (h : w.sessionCeilingReached later = false) :
    w.sessionCeilingReached t = false := by
  unfold sessionCeilingReached at h ⊢
  cases hlimit : w.config.maxSessionSeconds with
  | none => rfl
  | some limit =>
    rw [hlimit] at h
    have hnot : ¬limit ≤ later.now - w.sessionStartedAt := of_decide_eq_false h
    exact decide_eq_false fun hreached => hnot (hreached.trans (sub_le_sub_right hle _))

theorem sessionCeilingReached_congr {after : IdleWatchdog} (h : after.standing = w.standing) :
    after.sessionCeilingReached t = w.sessionCeilingReached t := by
  obtain ⟨hconfig, -, -, -, hsession, -, -, -, -⟩ := Standing.mk.inj h
  unfold sessionCeilingReached
  rw [hconfig, hsession]

theorem never_fires {calls : List Tick} (hsilent : ∀ t ∈ calls, w.Silent t.now) (hundated : ¬w.LivenessDated)
    (hquiet : ∀ t ∈ calls, t.Quiet) (hsession : ∀ t ∈ calls, w.sessionCeilingReached t = false) :
    ¬w.Fires (calls.map (probed · liveChild)) := by
  induction calls generalizing w with
  | nil => exact id
  | cons t rest ih =>
    have hnow := hsilent t mem_cons_self
    have hhere := hquiet t mem_cons_self
    have hdeferred := evaluate_defers hnow hundated hhere (hsession t mem_cons_self)
    have hstanding := evaluate_standing (t := probed t liveChild) hnow.standard (quiet_probed hhere)
    have hrest := ih (w := (w.evaluate (probed t liveChild)).2)
      (fun t ht => (hsilent t (mem_cons_of_mem _ ht)).congr hstanding)
      (fun hdated => hundated (hdated.congr hstanding.symm)) (fun t ht => hquiet t (mem_cons_of_mem _ ht))
      (fun t ht => (sessionCeilingReached_congr hstanding).trans (hsession t (mem_cons_of_mem _ ht)))
    rw [map_cons, Fires, hdeferred]
    exact not_or.mpr ⟨by decide, hrest⟩

theorem fires_of_session {before : List Tick} {last : Tick} (hstandard : w.config.profile = .standard)
    (hquiet : ∀ t ∈ before ++ [last], t.Quiet) (hsession : w.sessionCeilingReached last = true) :
    w.Fires (before ++ [last]) := by
  have hreached : (w.afterTicks before).standing = w.standing :=
    afterTicks_standing hstandard fun t ht => hquiet t (mem_append_left _ ht)
  have hconfig : (w.afterTicks before).config = w.config := congrArg Standing.config hreached
  have hover : (w.afterTicks before).sessionCeilingReached last = true :=
    (sessionCeilingReached_congr hreached).trans hsession
  rw [fires_append]
  right
  left
  rw [evaluate_of_quiet (hconfig ▸ hstandard) (hquiet last (by simp))]
  unfold evaluateStandard
  rw [if_pos hover]
  exact fireThroughGate_session

/-! ## Bounded and unbounded deferral -/

def ReachedBy (w : IdleWatchdog) (now : ℚ) : Prop :=
  ∃ config hasProcessMonitor created calls, w = (create config hasProcessMonitor created).after calls ∧
    ∀ t, .evaluate t ∈ calls → t.now ≤ now

theorem ReachedBy.drained {now : ℚ} (h : w.ReachedBy now) : w.DrainedSince now := by
  obtain ⟨config, hasProcessMonitor, created, calls, rfl, hlate⟩ := h
  exact after_drained hlate (.of_none rfl)

/-- Two evaluations of a silent agent are sure to fire exactly when liveness is dated or the session over. -/
theorem idle_fire_bounded_iff {first last : Tick} {between : List Tick} (hreached : w.ReachedBy first.now)
    (hsilent : w.Silent first.now) (hquiet : ∀ t ∈ first :: between ++ [last], t.Quiet)
    (hordered : (first :: between ++ [last]).Pairwise fun earlier later => earlier.now ≤ later.now)
    (hapart : w.config.drainWindowSeconds ≤ last.now - first.now) :
    (∀ probes : Nat → Probe, w.Fires ((first :: between ++ [last]).mapIdx fun i t => probed t (probes i))) ↔
      w.LivenessDated ∨ w.sessionCeilingReached last = true := by
  have hfirst : ∀ t ∈ first :: between ++ [last], first.now ≤ t.now := by
    intro t ht
    rcases mem_cons.mp ht with rfl | hrest
    · exact le_rfl
    · exact rel_of_pairwise_cons hordered hrest
  have hlast : ∀ t ∈ first :: between ++ [last], t.now ≤ last.now := by
    intro t ht
    rcases mem_append.mp ht with hbefore | hlast
    · exact (pairwise_append.mp hordered).2.2 t hbefore last (mem_singleton_self _)
    · rw [mem_singleton.mp hlast]
  have hsilence : ∀ t ∈ first :: between ++ [last], w.Silent t.now := fun t ht => hsilent.later (hfirst t ht)
  constructor
  · intro hfires
    by_contra hneither
    obtain ⟨hundated, hsession⟩ := not_or.mp hneither
    have hopen : ∀ t ∈ first :: between ++ [last], w.sessionCeilingReached t = false := fun t ht =>
      sessionCeilingReached_later (hlast t ht) (Bool.eq_false_iff.mpr hsession)
    have hsame : ((first :: between ++ [last]).mapIdx fun _ t => probed t liveChild) = (first :: between ++ [last]).map (probed · liveChild) := by
      rw [mapIdx_eq_iff]
      intro i
      rw [List.getElem?_map]
    exact never_fires hsilence hundated hquiet hopen (hsame ▸ hfires fun _ => liveChild)
  · intro hends probes
    have hmem : ∀ t' ∈ (first :: between ++ [last]).mapIdx fun i t => probed t (probes i),
        ∃ t ∈ first :: between ++ [last], ∃ probe, probed t probe = t' := by
      intro t' ht'
      obtain ⟨i, hi, heq⟩ := mem_mapIdx.mp ht'
      exact ⟨_, getElem_mem hi, _, heq⟩
    have hprobed : ((first :: between ++ [last]).mapIdx fun i t => probed t (probes i)) =
        probed first (probes 0) :: (between.mapIdx fun i t => probed t (probes (i + 1))) ++
          [probed last (probes (between.length + 1))] := by
      rw [cons_append, mapIdx_cons, mapIdx_concat, cons_append]
    rw [hprobed] at hmem ⊢
    have hquieted : ∀ t' ∈ probed first (probes 0) :: (between.mapIdx fun i t => probed t (probes (i + 1))) ++
        [probed last (probes (between.length + 1))], t'.Quiet := by
      intro t' ht'
      obtain ⟨t, ht, probe, rfl⟩ := hmem t' ht'
      exact quiet_probed (hquiet t ht)
    rcases hends with hdated | hsession
    · refine fires_of_dated hreached.drained ?_ hdated hquieted hapart
      intro t' ht'
      obtain ⟨t, ht, probe, rfl⟩ := hmem t' ht'
      exact hsilence t ht
    · exact fires_of_session hsilent.standard hquieted hsession

instance decidableFires : (w : IdleWatchdog) → (calls : List Tick) → Decidable (w.Fires calls)
  | _, [] => .isFalse id
  | w, t :: rest =>
    have := decidableFires (w.evaluate t).2 rest
    inferInstanceAs (Decidable (_ ∨ _))

/-! ## An agent that died with a subagent alive -/

def activeTick (instant : ℚ) : Tick where
  clock := fun _ => instant
  classifyQuiet := fun _ => .active

theorem activeTick_quiet (instant : ℚ) : (activeTick instant).Quiet := ⟨fun _ => rfl, nofun, rfl⟩

/-- The agent spoke one second into its invocation and was never heard again. -/
def fallenSilent (hasProcessMonitor : Bool) : IdleWatchdog :=
  (create { idleTimeoutSeconds := some 300 } hasProcessMonitor 0).after [.recordInvocationStart 0, .recordActivity 1 1]

theorem fallenSilent_reached (hasProcessMonitor : Bool) : (fallenSilent hasProcessMonitor).ReachedBy 5000 :=
  ⟨_, _, _, _, rfl, fun _ ht => by simp at ht⟩

theorem fallenSilent_silent (hasProcessMonitor : Bool) : (fallenSilent hasProcessMonitor).Silent 5000 where
  standard := rfl
  idle := ⟨300, rfl, (by decide +kernel : (300 : ℚ) ≤ 5000 - 1)⟩
  unheard := by
    refine ⟨30, rfl, ?_, ?_, ?_, ?_⟩ <;> exact fun _ h => by cases h
  notWaiting := rfl

/-- Without a process monitor it is fired. -/
theorem idle_fire_bounded_unmonitored : (fallenSilent false).Silent 5000 ∧ ∀ probes : Nat → Probe,
      (fallenSilent false).Fires ([activeTick 5000, activeTick 6000].mapIdx fun i t => probed t (probes i)) :=
  ⟨fallenSilent_silent false,
    (@idle_fire_bounded_iff (fallenSilent false) (activeTick 5000) (activeTick 6000) [] (fallenSilent_reached false)
      (fallenSilent_silent false) (by simp [activeTick_quiet]) (by simp [activeTick, Tick.now]; decide +kernel)
      (by decide +kernel)).mpr (.inl (.inr (.inl rfl)))⟩

/-- With one live subagent that never reported it is not, at the first evaluation or a thousand seconds later. -/
theorem idle_fire_deferred : (fallenSilent true).ReachedBy 5000 ∧ (fallenSilent true).Silent 5000 ∧
      (∀ t ∈ [activeTick 5000, activeTick 6000], t.Quiet) ∧
      (fallenSilent true).config.drainWindowSeconds ≤ (activeTick 6000).now - (activeTick 5000).now ∧
      ¬(fallenSilent true).Fires [probed (activeTick 5000) liveChild, probed (activeTick 6000) liveChild] :=
  ⟨fallenSilent_reached true, fallenSilent_silent true, by simp [activeTick_quiet], by decide +kernel, by decide +kernel⟩

end RalphWorkflow.Agents.IdleWatchdog
