import RalphWorkflow.Agents.IdleWatchdog.SubagentOutput
import RalphWorkflow.Lib.Run

/-! A child whose capture was lost is read from the beginning, and one that is registered anew under a capture that saw a heartbeat
seems to have sent another. A poll that observes no such child counts nothing but what was recorded since. -/
namespace RalphWorkflow.Agents.SubagentOutput
open Lib List

open RegistryBackedSubagentOutputCapture (readLines)

/-! ## Reading one record -/

def InStep (capture : RegistryBackedSubagentOutputCapture) (record : MutableRecord) : Prop :=
  (record.lastProgressAt = none ∨ record.lastProgressAt = capture.lastProgressAt) ∧
    record.lastHeartbeatAt = capture.lastHeartbeatAt

namespace RegistryBackedSubagentOutputCapture

variable (capture : RegistryBackedSubagentOutputCapture) (record : MutableRecord)

@[simp] theorem readProgress_childId : (capture.readProgress record).2.childId = capture.childId := by
  unfold readProgress
  split_ifs <;> rfl

@[simp] theorem readProgress_lastHeartbeatAt : (capture.readProgress record).2.lastHeartbeatAt = capture.lastHeartbeatAt := by
  unfold readProgress
  split_ifs <;> rfl

@[simp] theorem readHeartbeat_childId : (capture.readHeartbeat record).2.childId = capture.childId := by
  unfold readHeartbeat
  split_ifs <;> rfl

@[simp] theorem readHeartbeat_lastProgressAt : (capture.readHeartbeat record).2.lastProgressAt = capture.lastProgressAt := by
  unfold readHeartbeat
  split_ifs <;> rfl

@[simp] theorem readTerminal_childId : (capture.readTerminal record).2.childId = capture.childId := by
  unfold readTerminal
  cases record.terminalState with
  | none => rfl
  | some state => dsimp only; split_ifs <;> rfl

@[simp] theorem readTerminal_lastProgressAt : (capture.readTerminal record).2.lastProgressAt = capture.lastProgressAt := by
  unfold readTerminal
  cases record.terminalState with
  | none => rfl
  | some state => dsimp only; split_ifs <;> rfl

@[simp] theorem readTerminal_lastHeartbeatAt : (capture.readTerminal record).2.lastHeartbeatAt = capture.lastHeartbeatAt := by
  unfold readTerminal
  cases record.terminalState with
  | none => rfl
  | some state => dsimp only; split_ifs <;> rfl

theorem readProgress_new_iff : (record.lastProgressAt ≠ none ∧ (record.lastProgressAt ≠ capture.lastProgressAt ∨
        (some record.lastKnownPhase ≠ capture.lastProgressPhase ∧ record.lastProgressAt ≠ capture.lastProgressAt))) ↔
      ¬(record.lastProgressAt = none ∨ record.lastProgressAt = capture.lastProgressAt) := by
  rw [not_or, or_iff_left_of_imp And.right]

theorem readProgress_lines : (capture.readProgress record).1 = [] ↔
      record.lastProgressAt = none ∨ record.lastProgressAt = capture.lastProgressAt := by
  unfold readProgress
  simp only [readProgress_new_iff]
  by_cases h : record.lastProgressAt = none ∨ record.lastProgressAt = capture.lastProgressAt
  · simp only [h, not_true_eq_false, if_false]
  · simp [h]

theorem readProgress_reads : record.lastProgressAt = none ∨ record.lastProgressAt = (capture.readProgress record).2.lastProgressAt := by
  unfold readProgress
  simp only [readProgress_new_iff]
  by_cases h : record.lastProgressAt = none ∨ record.lastProgressAt = capture.lastProgressAt
  · simp only [h, not_true_eq_false, if_false]
  · simp only [h, not_false_eq_true, if_true, or_true]

theorem readHeartbeat_lines : (capture.readHeartbeat record).1 = [] ↔ record.lastHeartbeatAt = capture.lastHeartbeatAt := by
  unfold readHeartbeat
  split_ifs with h
  · simp [h]
  · simpa using h

theorem readHeartbeat_reads : record.lastHeartbeatAt = (capture.readHeartbeat record).2.lastHeartbeatAt := by
  unfold readHeartbeat
  split_ifs with h
  · rfl
  · simpa using h

theorem readRecord_childId : (capture.readRecord record).2.childId = capture.childId := by
  simp [readRecord]

theorem readRecord_inStep : InStep (capture.readRecord record).2 record := by
  constructor
  · simpa [readRecord] using readProgress_reads capture record
  · simpa [readRecord] using readHeartbeat_reads (capture.readProgress record).2 record

theorem readRecord_lines (halive : record.terminalState = none) : (capture.readRecord record).1 = [] ↔ InStep capture record := by
  have hterminal (k : RegistryBackedSubagentOutputCapture) : (k.readTerminal record).1 = [] := by
    rw [readTerminal, halive]
  simp only [readRecord, append_eq_nil_iff, hterminal, and_true, InStep, readProgress_lines, readHeartbeat_lines,
    readProgress_lastHeartbeatAt]

theorem readLines_childId (registry : ChildLivenessRegistry) (workerId : String) :
    (capture.readLines registry workerId).2.childId = capture.childId := by
  unfold readLines
  split_ifs
  · rfl
  · cases registry.records.get? capture.childId with
    | none => rfl
    | some record => exact readRecord_childId capture record

theorem readLines_of_get? {registry : ChildLivenessRegistry} {record : MutableRecord} (h : registry.records.get? capture.childId = some record) :
    capture.readLines registry capture.childId = capture.readRecord record := by
  simp [readLines, h]

end RegistryBackedSubagentOutputCapture

/-! ## Reading all captures -/

def captureOf (captures : Captures) (workerId : String) : RegistryBackedSubagentOutputCapture :=
  (captures.get? workerId).getD { childId := workerId }

theorem captureOf_set_ne (captures : Captures) {workerId other : String} (capture : RegistryBackedSubagentOutputCapture)
    (h : other ≠ workerId) : captureOf (captures.set workerId capture) other = captureOf captures other := by
  simp [captureOf, h]

section Reading

variable (registry : ChildLivenessRegistry) (tombstones : List String)

theorem readCaptures_total (found : List (String × RegistryBackedSubagentOutputCapture)) (captures : Captures) (total : Nat)
    (hfresh : ∀ e ∈ found, e.2 = { childId := e.1 }) (hnodup : (found.map Prod.fst).Nodup) :
    (readCaptures registry tombstones found captures total).1 =
      total + ((found.filter fun e => e.1 ∉ tombstones).map fun e =>
        (readLines (captureOf captures e.1) registry e.1).1.length).sum := by
  induction found generalizing captures total with
  | nil => rfl
  | cons e rest ih =>
    obtain ⟨workerId, fresh⟩ := e
    rw [forall_mem_cons] at hfresh
    rw [map_cons, nodup_cons] at hnodup
    have hcapture : (captures.get? workerId).getD fresh = captureOf captures workerId := by
      rw [captureOf, ← hfresh.1]
    unfold readCaptures
    by_cases hbarred : workerId ∈ tombstones
    · rw [if_pos hbarred, ih _ _ hfresh.2 hnodup.2, filter_cons_of_neg (by simpa using hbarred)]
    · rw [if_neg hbarred, filter_cons_of_pos (by simpa using hbarred)]
      dsimp only
      rw [ih _ _ hfresh.2 hnodup.2, map_cons, sum_cons, hcapture, Nat.add_assoc]
      congr 3
      apply map_congr_left
      intro other hother
      have hne : other.1 ≠ workerId := by
        intro heq
        have hmem : other.1 ∈ rest.map Prod.fst := mem_map_of_mem (mem_of_mem_filter hother)
        exact hnodup.1 (heq ▸ hmem)
      rw [captureOf_set_ne captures _ hne]

theorem readCaptures_get? (found : List (String × RegistryBackedSubagentOutputCapture)) (captures : Captures) (total : Nat)
    (hfresh : ∀ e ∈ found, e.2 = { childId := e.1 }) (hnodup : (found.map Prod.fst).Nodup) (childId : String) :
    (readCaptures registry tombstones found captures total).2.get? childId =
      if childId ∈ found.map Prod.fst ∧ childId ∉ tombstones then
        some (readLines (captureOf captures childId) registry childId).2
      else captures.get? childId := by
  induction found generalizing captures total with
  | nil => simp [readCaptures]
  | cons e rest ih =>
    obtain ⟨workerId, fresh⟩ := e
    rw [forall_mem_cons] at hfresh
    rw [map_cons, nodup_cons] at hnodup
    have hcapture : (captures.get? workerId).getD fresh = captureOf captures workerId := by
      rw [captureOf, ← hfresh.1]
    unfold readCaptures
    by_cases hbarred : workerId ∈ tombstones
    · rw [if_pos hbarred, ih _ _ hfresh.2 hnodup.2]
      by_cases heq : childId = workerId
      · subst heq
        rw [if_neg fun h => h.2 hbarred, if_neg fun h => h.2 hbarred]
      · simp only [map_cons, mem_cons, heq, false_or]
    · rw [if_neg hbarred]
      dsimp only
      rw [ih _ _ hfresh.2 hnodup.2, hcapture]
      by_cases heq : childId = workerId
      · subst heq
        rw [if_neg fun h => hnodup.1 h.1, if_pos ⟨mem_cons_self, hbarred⟩, Dict.get?_set, if_pos rfl]
      · simp only [map_cons, mem_cons, heq, false_or, captureOf_set_ne captures _ heq, Dict.get?_set, if_false]

end Reading

/-! ## One poll -/

def Advances (s t : World) : Prop := t.poller.watchdog.subagentOutputCount ≠ s.poller.watchdog.subagentOutputCount

instance (s t : World) : Decidable (Advances s t) := inferInstanceAs (Decidable (_ ≠ _))

def World.lines (s : World) (childId : String) : List String :=
  (readLines (captureOf s.poller.captures childId) s.registry childId).1

def World.Counts (s : World) (discovery : Discovery) (childId : String) : Prop :=
  s.Observes discovery childId ∧ s.lines childId ≠ []

theorem mem_discovered {scopePrefix : String} {registry : ChildLivenessRegistry} {now : ℚ} {childId : String}
    (h : childId ∈ (discoverSubagentOutputs scopePrefix registry now).keys) :
    ∃ record, registry.records.get? childId = some record ∧ record.terminalState = none := by
  rw [discoverSubagentOutputs, Dict.keys_map, Dict.mem_keys_iff, Dict.contains_iff] at h
  obtain ⟨record, hrecord⟩ := h
  rw [Dict.get?_filter_eq_some_iff] at hrecord
  simp only [Bool.and_eq_true, Option.isNone_iff_eq_none] at hrecord
  exact ⟨record, hrecord.1, hrecord.2.1.2⟩

theorem World.Observes.living {s : World} {discovery : Discovery} {childId : String} (h : s.Observes discovery childId) :
    ∃ record, s.registry.records.get? childId = some record ∧ record.terminalState = none := by
  have hfound := h.1
  unfold found at hfound
  split_ifs at hfound
  · cases discovery with
    | succeeds => exact mem_discovered hfound
    | strategyRaises => exact absurd hfound not_mem_nil
    | monitorRaises => exact absurd hfound not_mem_nil
  · exact absurd hfound not_mem_nil

theorem found_fresh (s : World) (discovery : Discovery) : ∀ e ∈ (s.found discovery).entries, e.2 = { childId := e.1 } := by
  intro e he
  unfold World.found at he
  split_ifs at he
  · cases discovery with
    | succeeds =>
      obtain ⟨entry, -, rfl⟩ := mem_map.mp he
      rfl
    | strategyRaises => exact absurd he not_mem_nil
    | monitorRaises => exact absurd he not_mem_nil
  · exact absurd he not_mem_nil

theorem mem_standing {p : Poller} {live : List String} {childId : String} (h : childId ∈ live) :
    childId ∈ p.standing live ↔ childId ∈ p.tombstones := by
  simp [Poller.standing, h]

theorem total_pos_iff (s : World) (discovery : Discovery) :
    0 < (readCaptures s.registry (s.poller.standing (s.found discovery).keys) (s.found discovery).entries s.poller.captures
        0).1 ↔ ∃ childId, s.Counts discovery childId := by
  rw [readCaptures_total _ _ _ _ _ (found_fresh s discovery) (s.found discovery).nodup, Nat.zero_add,
    List.sum_pos_iff_exists_pos_nat]
  constructor
  · rintro ⟨length, hlength, hpos⟩
    obtain ⟨e, he, rfl⟩ := List.mem_map.mp hlength
    rw [List.mem_filter, decide_eq_true_eq] at he
    have hkey : e.1 ∈ (s.found discovery).keys := mem_map_of_mem he.1
    refine ⟨e.1, ⟨hkey, fun h => he.2 ((mem_standing hkey).mpr h)⟩, ?_⟩
    exact length_pos_iff.mp hpos
  · rintro ⟨childId, ⟨hkey, hbarred⟩, hlines⟩
    obtain ⟨e, he, rfl⟩ := mem_map.mp hkey
    refine ⟨_, mem_map_of_mem (mem_filter.mpr ⟨he, ?_⟩), length_pos_iff.mpr hlines⟩
    exact decide_eq_true fun h => hbarred ((mem_standing hkey).mp h)

theorem poll_cases (s : World) (discovery : Discovery) :
    (s.poller.pollSubagentOutput s.scopePrefix s.registry discovery s.now = s.poller ∧ s.found discovery = ∅) ∨
      s.poller.pollSubagentOutput s.scopePrefix s.registry discovery s.now =
        s.poller.pollDiscovered s.registry (s.found discovery) s.now := by
  unfold Poller.pollSubagentOutput World.found
  cases s.poller.watchdog.hasProcessMonitor with
  | false => exact .inl ⟨rfl, rfl⟩
  | true =>
    cases discovery with
    | succeeds => exact .inr rfl
    | strategyRaises => exact .inr rfl
    | monitorRaises => exact .inl ⟨rfl, rfl⟩

theorem pollDiscovered_count (p : Poller) (registry : ChildLivenessRegistry) (found : Captures) (now : ℚ) :
    (p.pollDiscovered registry found now).watchdog.subagentOutputCount =
      p.watchdog.subagentOutputCount +
        (readCaptures registry (p.standing found.keys) found.entries p.captures 0).1 := by
  unfold Poller.pollDiscovered
  dsimp only
  split_ifs with h
  · rfl
  · rw [Nat.eq_zero_of_not_pos h]
    rfl

theorem pollDiscovered_captures (p : Poller) (registry : ChildLivenessRegistry) (found : Captures) (now : ℚ) :
    (p.pollDiscovered registry found now).captures =
      (p.settle found.keys (readCaptures registry (p.standing found.keys) found.entries p.captures 0).2
        (p.standing found.keys)).captures := by
  unfold Poller.pollDiscovered
  dsimp only
  split_ifs <;> rfl

theorem advances_poll_iff {s t : World} {discovery : Discovery} (h : step s (.poll discovery) = some t) :
    Advances s t ↔ ∃ childId, s.Counts discovery childId := by
  cases h
  unfold Advances
  dsimp only
  rcases poll_cases s discovery with ⟨hsame, hnone⟩ | hpolled
  · rw [hsame]
    refine iff_of_false (fun h => h rfl) ?_
    rintro ⟨childId, ⟨hkey, -⟩, -⟩
    rw [hnone] at hkey
    exact not_mem_nil hkey
  · rw [hpolled, pollDiscovered_count, ← total_pos_iff]
    omega

/-! ## What the captures have read -/

/-- Every capture has read its record, if nothing was recorded since. -/
structure World.Tracks (s : World) : Prop where
  spoken : ∀ childId record, s.registry.records.get? childId = some record → record.lastHeartbeatAt = none →
    record.lastProgressAt = none
  named : ∀ childId capture, s.poller.captures.get? childId = some capture → capture.childId = childId
  read : ∀ childId capture record, s.poller.captures.get? childId = some capture →
    s.registry.records.get? childId = some record → childId ∉ s.unseen → InStep capture record ∨ record.lastHeartbeatAt = none

namespace World.Tracks

variable {s t : World}

theorem captureOf_childId (h : s.Tracks) (childId : String) : (captureOf s.poller.captures childId).childId = childId := by
  unfold captureOf
  cases hcapture : s.poller.captures.get? childId with
  | none => rfl
  | some capture => exact h.named childId capture hcapture

theorem lines_eq (h : s.Tracks) {childId : String} {record : MutableRecord} (hrecord : s.registry.records.get? childId = some record) :
    readLines (captureOf s.poller.captures childId) s.registry childId =
      (captureOf s.poller.captures childId).readRecord record := by
  have hchild := h.captureOf_childId childId
  have hread := RegistryBackedSubagentOutputCapture.readLines_of_get? (captureOf s.poller.captures childId)
    (hchild.symm ▸ hrecord)
  rwa [hchild] at hread

theorem of_records (h : s.Tracks) (hpoller : t.poller = s.poller) (hunseen : t.unseen = s.unseen)
    (hrecords : ∀ childId record, t.registry.records.get? childId = some record →
      s.registry.records.get? childId = some record ∨ record.lastHeartbeatAt = none ∧ record.lastProgressAt = none) :
    t.Tracks where
  spoken childId record hrecord hsilent :=
    (hrecords childId record hrecord).elim (fun hold => h.spoken childId record hold hsilent) And.right
  named := hpoller ▸ h.named
  read childId capture record hcapture hrecord hseen :=
    (hrecords childId record hrecord).elim
      (fun hold => h.read childId capture record (hpoller ▸ hcapture) hold (hunseen ▸ hseen)) fun hnew => .inr hnew.1

theorem recorded (h : s.Tracks) (childId : String) {change : MutableRecord → MutableRecord}
    (hchange : ∀ record, (change record).lastHeartbeatAt = none →
      record.lastHeartbeatAt = none ∧ (record.lastProgressAt = none → (change record).lastProgressAt = none)) :
    (s.record childId (s.registry.amend childId change)).Tracks := by
  unfold World.record ChildLivenessRegistry.amend Dict.contains
  cases hold : s.registry.records.get? childId with
  | none => exact ⟨h.spoken, h.named, h.read⟩
  | some record =>
    constructor
    · intro other new hnew hsilent
      rw [Dict.get?_set] at hnew
      split_ifs at hnew with heq
      · cases hnew
        obtain ⟨hnone, hkeeps⟩ := hchange record hsilent
        exact hkeeps (h.spoken childId record hold hnone)
      · exact h.spoken other new hnew hsilent
    · exact h.named
    · intro other capture new hcapture hnew hseen
      rw [Option.isSome_some, if_pos rfl, mem_cons, not_or] at hseen
      rw [Dict.get?_set, if_neg hseen.1] at hnew
      exact h.read other capture new hcapture hnew hseen.2

end World.Tracks

theorem settle_get? {p : Poller} {live tombstones : List String} {captures : Captures} {childId : String}
    {capture : RegistryBackedSubagentOutputCapture}
    (h : (p.settle live captures tombstones).captures.get? childId = some capture) :
    childId ∈ live ∧ captures.get? childId = some capture := by
  unfold Poller.settle at h
  dsimp only at h
  rw [Dict.get?_filter_eq_some_iff, decide_eq_true_eq] at h
  exact ⟨h.2, Dict.get?_of_drop h.1⟩

theorem pollDiscovered_get? {s : World} {discovery : Discovery} {childId : String} {capture : RegistryBackedSubagentOutputCapture}
    (h : (s.poller.pollDiscovered s.registry (s.found discovery) s.now).captures.get? childId = some capture) :
    (s.Observes discovery childId ∧ capture = (readLines (captureOf s.poller.captures childId) s.registry childId).2) ∨
      (¬s.Observes discovery childId ∧ s.poller.captures.get? childId = some capture) := by
  rw [pollDiscovered_captures] at h
  obtain ⟨hkey, hread⟩ := settle_get? h
  rw [readCaptures_get? _ _ _ _ _ (found_fresh s discovery) (s.found discovery).nodup] at hread
  by_cases hobserved : s.Observes discovery childId
  · rw [if_pos ⟨hkey, fun h => hobserved.2 ((mem_standing hkey).mp h)⟩] at hread
    exact .inl ⟨hobserved, (Option.some.inj hread).symm⟩
  · rw [if_neg fun h => hobserved ⟨hkey, fun hbarred => h.2 ((mem_standing hkey).mpr hbarred)⟩] at hread
    exact .inr ⟨hobserved, hread⟩

namespace World.Tracks

variable {s t : World}

theorem poll (h : s.Tracks) {discovery : Discovery} (hstep : step s (.poll discovery) = some t) : t.Tracks := by
  cases hstep
  rcases poll_cases s discovery with ⟨hsame, hnone⟩ | hpolled
  · have hunseen : (s.unseen.filter fun childId => ¬s.Observes discovery childId) = s.unseen := by
      refine filter_eq_self.mpr fun childId _ => decide_eq_true fun hobserved => ?_
      have hkey := hobserved.1
      rw [hnone] at hkey
      exact not_mem_nil hkey
    exact h.of_records hsame hunseen fun childId record hrecord => .inl hrecord
  · constructor
    · exact h.spoken
    · intro childId capture hcapture
      dsimp only at hcapture
      rw [hpolled] at hcapture
      obtain ⟨-, rfl⟩ | ⟨-, hkept⟩ := pollDiscovered_get? hcapture
      · rw [RegistryBackedSubagentOutputCapture.readLines_childId, h.captureOf_childId]
      · exact h.named childId capture hkept
    · intro childId capture record hcapture hrecord hseen
      dsimp only at hcapture
      rw [hpolled] at hcapture
      obtain ⟨-, rfl⟩ | ⟨hmissed, hkept⟩ := pollDiscovered_get? hcapture
      · rw [h.lines_eq hrecord]
        exact .inl (RegistryBackedSubagentOutputCapture.readRecord_inStep _ record)
      · refine h.read childId capture record hkept hrecord fun hold => hseen ?_
        exact mem_filter.mpr ⟨hold, decide_eq_true hmissed⟩

theorem step (h : s.Tracks) {move : Move} (hstep : SubagentOutput.step s move = some t) : t.Tracks := by
  cases move with
  | wait seconds =>
    obtain ⟨-, hwaited⟩ := Option.ite_none_right_eq_some.mp hstep
    cases hwaited
    exact h.of_records rfl rfl fun childId record hrecord => .inl hrecord
  | register childId scopePrefix phase =>
    cases hstep
    refine h.of_records rfl rfl fun other record hrecord => ?_
    unfold ChildLivenessRegistry.registerChild at hrecord
    rw [Dict.get?_set] at hrecord
    split_ifs at hrecord
    · cases hrecord
      exact .inr ⟨rfl, rfl⟩
    · exact .inl hrecord
  | heartbeat childId =>
    cases hstep
    exact h.recorded childId fun record hnone => by cases hnone
  | progress childId phase =>
    cases hstep
    exact h.recorded childId fun record hnone => by cases hnone
  | terminal childId state =>
    cases hstep
    exact h.recorded childId fun record hnone => ⟨hnone, id⟩
  | prune =>
    cases hstep
    exact h.of_records rfl rfl fun childId record hrecord => .inl (Dict.get?_filter_eq_some_iff.mp hrecord).1
  | poll discovery => exact h.poll hstep

end World.Tracks

/-! ## What is read twice -/

namespace World

variable (s : World) (childId : String)

def Rediscovered : Prop :=
  s.poller.captures.get? childId = none ∧
    ∃ record, s.registry.records.get? childId = some record ∧ record.lastHeartbeatAt ≠ none

/-- The capture saw a heartbeat of the child, which is registered anew since. -/
def Renewed : Prop :=
  ∃ capture record, s.poller.captures.get? childId = some capture ∧ s.registry.records.get? childId = some record ∧
    capture.lastHeartbeatAt ≠ none ∧ record.lastHeartbeatAt = none

variable {s childId}

theorem Tracks.lines_ne_nil_iff (h : s.Tracks) {discovery : Discovery} (hobserved : s.Observes discovery childId)
    (hseen : childId ∉ s.unseen) : s.lines childId ≠ [] ↔ s.Rediscovered childId ∨ s.Renewed childId := by
  obtain ⟨record, hrecord, halive⟩ := hobserved.living
  have hspoken := h.spoken childId record hrecord
  rw [lines, h.lines_eq hrecord, ne_eq, RegistryBackedSubagentOutputCapture.readRecord_lines _ record halive]
  cases hcapture : s.poller.captures.get? childId with
  | none =>
    have hfresh : captureOf s.poller.captures childId = { childId } := by rw [captureOf, hcapture, Option.getD_none]
    have hrediscovered : s.Rediscovered childId ↔ record.lastHeartbeatAt ≠ none := by
      simp [Rediscovered, hcapture, hrecord]
    have hrenewed : ¬s.Renewed childId := by simp [Renewed, hcapture]
    rw [hfresh, hrediscovered, or_iff_left hrenewed, not_iff_not]
    exact ⟨And.right, fun hsilent => ⟨.inl (hspoken hsilent), hsilent⟩⟩
  | some capture =>
    have hkept : captureOf s.poller.captures childId = capture := by rw [captureOf, hcapture, Option.getD_some]
    have hrediscovered : ¬s.Rediscovered childId := by simp [Rediscovered, hcapture]
    have hrenewed : s.Renewed childId ↔ capture.lastHeartbeatAt ≠ none ∧ record.lastHeartbeatAt = none := by
      simp [Renewed, hcapture, hrecord]
    rw [hkept, or_iff_right hrediscovered, hrenewed]
    by_cases hsilent : record.lastHeartbeatAt = none
    · have hinStep : InStep capture record ↔ capture.lastHeartbeatAt = none :=
        ⟨fun h => h.2.symm.trans hsilent, fun h => ⟨.inl (hspoken hsilent), hsilent.trans h.symm⟩⟩
      rw [hinStep, and_iff_left hsilent]
    · have hinStep : InStep capture record := (h.read childId capture record hcapture hrecord hseen).resolve_right hsilent
      exact iff_of_false (fun hnot => hnot hinStep) fun hboth => hsilent hboth.2

end World

/-! ## Runs -/

/-- A poll advances only for children that recorded an event since the last. -/
def CountsFresh (s : World) (move : Move) (t : World) : Prop :=
  ∀ discovery, move = .poll discovery →
    (Advances s t → s.unseen ≠ []) ∧ ∀ childId, s.Counts discovery childId → childId ∈ s.unseen

/-- A child that a poll observes with nothing new is neither rediscovered nor renewed. -/
def Replayless (s : World) (move : Move) (_ : World) : Prop :=
  ∀ discovery, move = .poll discovery → ∀ childId, s.Observes discovery childId → childId ∉ s.unseen →
    ¬s.Rediscovered childId ∧ ¬s.Renewed childId

theorem countsFresh_iff {s t : World} {move : Move} (h : s.Tracks) (hstep : step s move = some t) : CountsFresh s move t ↔ Replayless s move t := by
  constructor
  · rintro hfresh discovery rfl childId hobserved hseen
    rw [← not_or, ← h.lines_ne_nil_iff hobserved hseen]
    exact fun hlines => hseen ((hfresh discovery rfl).2 childId ⟨hobserved, hlines⟩)
  · rintro hreplayless discovery rfl
    have hcounts : ∀ childId, s.Counts discovery childId → childId ∈ s.unseen := by
      rintro childId ⟨hobserved, hlines⟩
      by_contra hseen
      obtain ⟨hrediscovered, hrenewed⟩ := hreplayless discovery rfl childId hobserved hseen
      exact ((h.lines_ne_nil_iff hobserved hseen).mp hlines).elim hrediscovered hrenewed
    refine ⟨fun hadvances => ?_, hcounts⟩
    obtain ⟨childId, hcounted⟩ := (advances_poll_iff hstep).mp hadvances
    exact ne_nil_of_mem (hcounts childId hcounted)

def World.start (scopePrefix : String) (now progressTtl heartbeatTtl staleLabelTtl exitReconcile : ℚ) (watchdog : IdleWatchdog) : World :=
  { scopePrefix, now, registry := { progressTtl, heartbeatTtl, staleLabelTtl, exitReconcile }, poller := { watchdog } }

theorem tracks_start (scopePrefix : String) (now progressTtl heartbeatTtl staleLabelTtl exitReconcile : ℚ) (watchdog : IdleWatchdog) :
    (World.start scopePrefix now progressTtl heartbeatTtl staleLabelTtl exitReconcile watchdog).Tracks where
  spoken _ _ hrecord := nomatch hrecord
  named _ _ hcapture := nomatch hcapture
  read _ _ _ hcapture := nomatch hcapture

/-- Polls count fresh events only, exactly when none observes, with nothing new, a child renewed. -/
theorem polls_fresh_iff (scopePrefix : String) (now progressTtl heartbeatTtl staleLabelTtl exitReconcile : ℚ)
    (watchdog : IdleWatchdog) (moves : List Move) :
    Run.Throughout step CountsFresh (World.start scopePrefix now progressTtl heartbeatTtl staleLabelTtl exitReconcile watchdog) moves ↔
      Run.Throughout step Replayless
        (World.start scopePrefix now progressTtl heartbeatTtl staleLabelTtl exitReconcile watchdog) moves :=
  Run.Throughout.iff_of_step (fun _ _ _ => countsFresh_iff) (fun _ _ _ h _ => h.step)
    (tracks_start scopePrefix now progressTtl heartbeatTtl staleLabelTtl exitReconcile watchdog)

def heardTwice : List Move :=
  [.register "child" "agent:" "spawned", .heartbeat "child", .poll .succeeds, .poll .strategyRaises, .poll .succeeds]

def listening : World := World.start "agent:" 0 60 60 60 60 (IdleWatchdog.create { idleTimeoutSeconds := none } true 0)

/-- The last poll advances the channel though no child recorded anything since it was observed. -/
theorem heardTwice_replays : ¬Run.Throughout step (fun s _ t => Advances s t → s.unseen ≠ []) listening heardTwice := by
  decide +kernel

example : ¬Run.Throughout step (fun s _ t => Advances s t → s.unseen ≠ []) listening
    [.register "child" "agent:" "spawned", .heartbeat "child", .poll .succeeds, .register "child" "agent:" "spawned",
      .poll .succeeds] := by
  decide +kernel

end RalphWorkflow.Agents.SubagentOutput
