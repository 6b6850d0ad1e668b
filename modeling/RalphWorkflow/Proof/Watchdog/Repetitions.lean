import Mathlib.Data.Finset.Card
import Mathlib.Data.List.Induction
import Mathlib.Data.List.TakeWhile
import RalphWorkflow.Agents.IdleWatchdog
import RalphWorkflow.Lib.Deque

/-! What a repetition tracker kept from before makes no difference once it is out of its windows and counts nothing in a row. And
what it answers after a run of calls is said by the calls alone: its counts and its pruned buffers stand for the records made. -/
namespace RalphWorkflow.Agents
open Lib.Deque (newest push_newest)

namespace RepetitionTracker

def windowed (tracker : RepetitionTracker) : Bool := tracker.windowCount.isSome && tracker.windowSeconds.isSome

def StaleBefore (seconds : Option ℚ) (now : ℚ) (events others : List (String × ℚ)) : Prop :=
  ∃ stale, events = stale ++ others ∧ ∀ event ∈ stale, ∀ window, seconds = some window → event.2 < now - window

/-- One dimension of two trackers, as far as a threshold in a row is set. -/
def SameInARow (threshold : Option Nat) (count other : Nat) (fingerprint another : Option String) : Prop :=
  threshold = none ∨ count = other ∧ (count = 0 ∨ fingerprint = another)

structure Agrees (now : ℚ) (tracker other : RepetitionTracker) : Prop where
  consecutiveThreshold : tracker.consecutiveThreshold = other.consecutiveThreshold
  windowCount : tracker.windowCount = other.windowCount
  windowSeconds : tracker.windowSeconds = other.windowSeconds
  errors : SameInARow other.consecutiveThreshold tracker.consecutive other.consecutive tracker.lastFingerprint
    other.lastFingerprint
  tools : SameInARow other.consecutiveThreshold tracker.toolConsecutive other.toolConsecutive tracker.lastToolFingerprint
    other.lastToolFingerprint
  events : other.windowed = true → StaleBefore other.windowSeconds now tracker.events other.events
  toolEvents : other.windowed = true → StaleBefore other.windowSeconds now tracker.toolEvents other.toolEvents

variable {now later : ℚ} {tracker other : RepetitionTracker} {events others : List (String × ℚ)} {fingerprint : String}

theorem Agrees.prune_eq (h : tracker.Agrees now other) (events : List (String × ℚ)) : tracker.prune events = other.prune events := by
  unfold prune
  rw [h.windowSeconds]

theorem Agrees.appendEvent_eq (h : tracker.Agrees now other) (events : List (String × ℚ)) :
    tracker.appendEvent events = other.appendEvent events := by
  unfold appendEvent eventMaxlen
  rw [h.windowCount]

theorem prune_append_of_stale {stale : List (String × ℚ)} {window : ℚ} (hlater : now ≤ later)
    (hwindow : tracker.windowSeconds = some window) (hstale : ∀ event ∈ stale, event.2 < now - window) :
    tracker.prune (stale ++ others) later = tracker.prune others later := by
  unfold prune
  rw [hwindow]
  dsimp only
  induction stale with
  | nil => rfl
  | cons event rest ih =>
    have hold : event.2 < later - window :=
      (hstale event List.mem_cons_self).trans_le (sub_le_sub_right hlater window)
    rw [List.cons_append, List.dropWhile_cons_of_pos (by simpa using hold)]
    exact ih fun other hother => hstale other (List.mem_cons_of_mem _ hother)

theorem prune_stale (hlater : now ≤ later) (hwindowed : tracker.windowed = true)
    (h : StaleBefore tracker.windowSeconds now events others) : tracker.prune events later = tracker.prune others later := by
  obtain ⟨stale, rfl, hstale⟩ := h
  unfold windowed at hwindowed
  rw [Bool.and_eq_true] at hwindowed
  obtain ⟨window, hwindow⟩ := Option.isSome_iff_exists.mp hwindowed.2
  exact prune_append_of_stale hlater hwindow fun event hevent => hstale event hevent window hwindow

theorem appendEvent_stale (tracker : RepetitionTracker) (event : String × ℚ) (h : StaleBefore tracker.windowSeconds now events others) :
    StaleBefore tracker.windowSeconds now (tracker.appendEvent events event) (tracker.appendEvent others event) := by
  obtain ⟨stale, rfl, hstale⟩ := h
  unfold appendEvent
  rw [List.append_assoc, List.drop_append]
  refine ⟨stale.drop ((stale ++ others).length + 1 - tracker.eventMaxlen), ?_, fun old hold => ?_⟩
  · by_cases hroom : (stale ++ others).length + 1 - tracker.eventMaxlen ≤ stale.length
    · have hfits : others.length + 1 - tracker.eventMaxlen = 0 := by
        rw [List.length_append] at hroom
        omega
      have hnone : (stale ++ others).length + 1 - tracker.eventMaxlen - stale.length = 0 := by omega
      rw [hfits, hnone]
    · have hrest : (stale ++ others).length + 1 - tracker.eventMaxlen - stale.length =
          others.length + 1 - tracker.eventMaxlen := by
        rw [List.length_append] at hroom ⊢
        omega
      rw [hrest]
  · exact hstale old (List.mem_of_mem_drop hold)

theorem StaleBefore.same {seconds : Option ℚ} : StaleBefore seconds now events events := ⟨[], rfl, fun _ h => by cases h⟩

theorem SameInARow.next {threshold : Option Nat} {count other : Nat} {last another : Option String}
    (h : SameInARow threshold count other last another) :
    SameInARow threshold (if last = some fingerprint then count + 1 else 1) (if another = some fingerprint then other + 1 else 1)
      (some fingerprint) (some fingerprint) := by
  rcases h with hoff | ⟨rfl, hzero | rfl⟩
  · exact .inl hoff
  · refine .inr ⟨?_, .inr rfl⟩
    rw [hzero]
    split_ifs <;> rfl
  · exact .inr ⟨rfl, .inr rfl⟩

section

variable (h : tracker.Agrees now other)
include h

theorem noted_stale (hlater : now ≤ later) (event : String × ℚ)
    (hevents : other.windowed = true → StaleBefore other.windowSeconds now events others) :
    other.windowed = true → StaleBefore other.windowSeconds now (tracker.prune (tracker.appendEvent events event) later)
      (other.prune (other.appendEvent others event) later) := by
  intro hwindowed
  rw [h.prune_eq, h.appendEvent_eq, prune_stale hlater hwindowed (appendEvent_stale other event (hevents hwindowed))]
  exact .same

theorem Agrees.noteError (hlater : now ≤ later) : (tracker.noteError fingerprint later).Agrees now (other.noteError fingerprint later) where
  consecutiveThreshold := h.consecutiveThreshold
  windowCount := h.windowCount
  windowSeconds := h.windowSeconds
  errors := h.errors.next
  tools := h.tools
  events := noted_stale h hlater (fingerprint, later) h.events
  toolEvents := h.toolEvents

theorem Agrees.markToolCall (hlater : now ≤ later) :
    (tracker.markToolCall fingerprint later).Agrees now (other.markToolCall fingerprint later) where
  consecutiveThreshold := h.consecutiveThreshold
  windowCount := h.windowCount
  windowSeconds := h.windowSeconds
  errors := h.errors
  tools := h.tools.next
  events := h.events
  toolEvents := noted_stale h hlater (fingerprint, later) h.toolEvents

theorem Agrees.noteProgress : tracker.noteProgress.Agrees now other.noteProgress where
  consecutiveThreshold := h.consecutiveThreshold
  windowCount := h.windowCount
  windowSeconds := h.windowSeconds
  errors := .inr ⟨rfl, .inl rfl⟩
  tools := .inr ⟨rfl, .inl rfl⟩
  events := h.events
  toolEvents := h.toolEvents

end

theorem SameInARow.reached_eq {threshold : Option Nat} {count other : Nat} {last another : Option String}
    (h : SameInARow threshold count other last another) : reached threshold count = reached threshold other := by
  rcases h with rfl | ⟨rfl, -⟩
  · rfl
  · rfl

section

variable (h : tracker.Agrees now other)
include h

theorem Agrees.errorDimensionTripped (hlater : now ≤ later) : (tracker.errorDimensionTripped later).1 = (other.errorDimensionTripped later).1 ∧
      (tracker.errorDimensionTripped later).2.Agrees now (other.errorDimensionTripped later).2 := by
  unfold RepetitionTracker.errorDimensionTripped
  rw [h.consecutiveThreshold, h.errors.reached_eq, h.windowCount, h.windowSeconds]
  by_cases hreached : reached other.consecutiveThreshold other.consecutive = true
  · rw [if_pos hreached, if_pos hreached]
    exact ⟨rfl, h⟩
  rw [if_neg hreached, if_neg hreached]
  by_cases hwindowed : (other.windowCount.isSome && other.windowSeconds.isSome) = true
  · rw [if_pos hwindowed, if_pos hwindowed, h.prune_eq, prune_stale hlater hwindowed (h.events hwindowed)]
    exact ⟨rfl, rfl, rfl, rfl, h.errors, h.tools, fun _ => .same, h.toolEvents⟩
  · rw [if_neg hwindowed, if_neg hwindowed]
    exact ⟨rfl, h⟩

theorem Agrees.toolDimensionTripped (hlater : now ≤ later) : (tracker.toolDimensionTripped later).1 = (other.toolDimensionTripped later).1 ∧
      (tracker.toolDimensionTripped later).2.Agrees now (other.toolDimensionTripped later).2 := by
  unfold RepetitionTracker.toolDimensionTripped
  rw [h.consecutiveThreshold, h.tools.reached_eq, h.windowCount, h.windowSeconds]
  by_cases hreached : reached other.consecutiveThreshold other.toolConsecutive = true
  · rw [if_pos hreached, if_pos hreached]
    exact ⟨rfl, h⟩
  rw [if_neg hreached, if_neg hreached]
  by_cases hwindowed : (other.windowCount.isSome && other.windowSeconds.isSome) = true
  · rw [if_pos hwindowed, if_pos hwindowed, h.prune_eq, prune_stale hlater hwindowed (h.toolEvents hwindowed)]
    exact ⟨rfl, rfl, rfl, rfl, h.errors, h.tools, h.events, fun _ => .same⟩
  · rw [if_neg hwindowed, if_neg hwindowed]
    exact ⟨rfl, h⟩

theorem Agrees.tripped {errorsAt toolsAt : ℚ} (herrors : now ≤ errorsAt) (htools : now ≤ toolsAt) :
    (tracker.tripped errorsAt toolsAt).1 = (other.tripped errorsAt toolsAt).1 ∧
      (tracker.tripped errorsAt toolsAt).2.Agrees now (other.tripped errorsAt toolsAt).2 := by
  obtain ⟨hsame, hagrees⟩ := h.errorDimensionTripped herrors
  unfold RepetitionTracker.tripped
  dsimp only
  rw [hsame]
  cases (other.errorDimensionTripped errorsAt).1 with
  | true => exact ⟨rfl, hagrees⟩
  | false => exact hagrees.toolDimensionTripped htools

theorem Agrees.trippedToolDimension {toolsAt errorsAt : ℚ} (htools : now ≤ toolsAt) (herrors : now ≤ errorsAt) :
    (tracker.trippedToolDimension toolsAt errorsAt).1 = (other.trippedToolDimension toolsAt errorsAt).1 ∧
      (tracker.trippedToolDimension toolsAt errorsAt).2.Agrees now (other.trippedToolDimension toolsAt errorsAt).2 := by
  obtain ⟨hsame, hagrees⟩ := h.toolDimensionTripped htools
  unfold RepetitionTracker.trippedToolDimension
  dsimp only
  rw [hsame]
  cases (other.toolDimensionTripped toolsAt).1 with
  | false => exact ⟨rfl, hagrees⟩
  | true =>
    obtain ⟨herr, hboth⟩ := hagrees.errorDimensionTripped herrors
    rw [if_pos rfl, if_pos rfl, herr]
    exact ⟨rfl, hboth⟩

end

/-! ## What the calls say -/

/-- The queries ask one dimension and then, it may be, the other. -/
inductive TrackerCall
  | noteError (fingerprint : String)
  | markToolCall (fingerprint : String)
  | noteProgress
  | askErrors
  | askTools
  deriving DecidableEq

def TrackerCall.isQuery : TrackerCall → Bool
  | .askErrors | .askTools => true
  | .noteError _ | .markToolCall _ | .noteProgress => false

def TrackerCall.error? : TrackerCall → Option String
  | .noteError fingerprint => some fingerprint
  | _ => none

def TrackerCall.tool? : TrackerCall → Option String
  | .markToolCall fingerprint => some fingerprint
  | _ => none

def start (consecutiveThreshold windowCount : Option Nat) (windowSeconds : Option ℚ) : RepetitionTracker where
  consecutiveThreshold := consecutiveThreshold
  windowCount := windowCount
  windowSeconds := windowSeconds

def perform (tracker : RepetitionTracker) (call : TrackerCall) (now : ℚ) : RepetitionTracker :=
  match call with
  | .noteError fingerprint => tracker.noteError fingerprint now
  | .markToolCall fingerprint => tracker.markToolCall fingerprint now
  | .noteProgress => tracker.noteProgress
  | .askErrors => (tracker.errorDimensionTripped now).2
  | .askTools => (tracker.toolDimensionTripped now).2

def after (tracker : RepetitionTracker) (calls : List (TrackerCall × ℚ)) : RepetitionTracker :=
  calls.foldl (fun tracker call => tracker.perform call.1 call.2) tracker

def Clocked (calls : List (TrackerCall × ℚ)) (now : ℚ) : Prop := (calls.map Prod.snd ++ [now]).Pairwise (· ≤ ·)

def records (kind : TrackerCall → Option String) (calls : List (TrackerCall × ℚ)) : List (String × ℚ) :=
  calls.filterMap fun call => (kind call.1).map fun fingerprint => (fingerprint, call.2)

def sinceProgress (kind : TrackerCall → Option String) (calls : List (TrackerCall × ℚ)) : List String :=
  calls.foldl (fun told call => if call.1 = .noteProgress then [] else told ++ (kind call.1).toList) []

def trailing (tracker : RepetitionTracker) (seconds now : ℚ) (records : List (String × ℚ)) : List (String × ℚ) :=
  (newest tracker.eventMaxlen records).filter fun record => now - seconds ≤ record.2

/-- One fingerprint since the last progress, often enough by the threshold or in a narrow window. -/
def Repeats (tracker : RepetitionTracker) (kind : TrackerCall → Option String) (narrow : List (String × ℚ) → Prop)
    (calls : List (TrackerCall × ℚ)) (now : ℚ) : Prop :=
  (∃ threshold, tracker.consecutiveThreshold = some threshold ∧
    ∃ fingerprint, List.replicate threshold fingerprint <:+ sinceProgress kind calls) ∨
  ∃ count seconds, tracker.windowCount = some count ∧ tracker.windowSeconds = some seconds ∧
    (∃ fingerprint, count ≤ (tracker.trailing seconds now (records kind calls)).countP (·.1 = fingerprint)) ∧
      narrow (tracker.trailing seconds now (records kind calls))

def AtMostFour (window : List (String × ℚ)) : Prop := (window.map Prod.fst).toFinset.card ≤ 4

def errorsTripped (tracker : RepetitionTracker) (calls : List (TrackerCall × ℚ)) (now : ℚ) : Bool :=
  ((tracker.after calls).errorDimensionTripped now).1

def toolsTripped (tracker : RepetitionTracker) (calls : List (TrackerCall × ℚ)) (now : ℚ) : Bool :=
  ((tracker.after calls).toolDimensionTripped now).1

/-! ## In a row -/

/-- What was told ends in one fingerprint this many times, and no more. -/
structure StreakOf (count : Nat) (last : Option String) (told : List String) : Prop where
  last : last = told.getLast?
  count : ∀ k, k ≤ count ↔ ∃ fingerprint, List.replicate k fingerprint <:+ told

variable {count maxlen : Nat} {last : Option String} {told : List String} {seconds : Option ℚ}
  {settings : RepetitionTracker} {calls : List (TrackerCall × ℚ)} {kind : TrackerCall → Option String}

theorem StreakOf.nil : StreakOf 0 none [] where
  last := rfl
  count := by
    intro k
    constructor
    · intro hk
      exact ⟨"", by simp [Nat.le_zero.mp hk]⟩
    · rintro ⟨fingerprint, hsuffix⟩
      simpa using hsuffix.length_le

theorem getLast?_of_replicate_suffix {k : Nat} (h : List.replicate (k + 1) fingerprint <:+ told) : told.getLast? = some fingerprint := by
  obtain ⟨before, rfl⟩ := h
  rw [List.replicate_succ', ← List.append_assoc, List.getLast?_concat]

theorem replicate_succ_suffix_concat_iff {k : Nat} {another : String} :
    List.replicate (k + 1) another <:+ told ++ [fingerprint] ↔ another = fingerprint ∧ List.replicate k another <:+ told := by
  rw [List.replicate_succ']
  constructor
  · intro h
    have hlast : some fingerprint = some another := by
      rw [← List.replicate_succ'] at h
      rw [← getLast?_of_replicate_suffix h, List.getLast?_concat]
    cases hlast
    exact ⟨rfl, List.suffix_append_self_iff.mp h⟩
  · rintro ⟨rfl, h⟩
    exact List.suffix_append_self_iff.mpr h

theorem StreakOf.concat (h : StreakOf count last told) :
    StreakOf (if last = some fingerprint then count + 1 else 1) (some fingerprint) (told ++ [fingerprint]) where
  last := by simp
  count := by
    intro k
    cases k with
    | zero => simp
    | succ k =>
      simp only [replicate_succ_suffix_concat_iff, exists_eq_left]
      by_cases hlast : last = some fingerprint
      · rw [if_pos hlast, Nat.succ_le_succ_iff, h.count]
        refine ⟨fun ⟨another, hsuffix⟩ => ?_, fun hsuffix => ⟨fingerprint, hsuffix⟩⟩
        cases k with
        | zero => simp
        | succ k =>
          have hsame : some another = some fingerprint := by
            rw [← getLast?_of_replicate_suffix hsuffix, ← h.last, hlast]
          cases hsame
          exact hsuffix
      · rw [if_neg hlast]
        cases k with
        | zero => simp
        | succ k =>
          -- Two in a row would have left the fingerprint as the last one.
          refine ⟨fun hk => by omega, fun hsuffix => absurd ?_ hlast⟩
          rw [h.last, getLast?_of_replicate_suffix hsuffix]

theorem StreakOf.reached_iff (h : StreakOf count last told) (threshold : Option Nat) : reached threshold count = true ↔
      ∃ k, threshold = some k ∧ ∃ fingerprint, List.replicate k fingerprint <:+ told := by
  cases threshold with
  | none => simp [reached]
  | some k => simp [reached, h.count]

/-! ## In the window -/

theorem StaleBefore.of_le (h : StaleBefore seconds now events others) (hlater : now ≤ later) : StaleBefore seconds later events others := by
  obtain ⟨stale, rfl, hstale⟩ := h
  refine ⟨stale, rfl, fun event hevent window hwindow => ?_⟩
  exact (hstale event hevent window hwindow).trans_le (sub_le_sub_right hlater window)

theorem StaleBefore.prune (h : StaleBefore tracker.windowSeconds now events others) :
    StaleBefore tracker.windowSeconds now events (tracker.prune others now) := by
  obtain ⟨stale, rfl, hstale⟩ := h
  unfold RepetitionTracker.prune
  cases hseconds : tracker.windowSeconds with
  | none => exact ⟨stale, rfl, fun _ _ _ hwindow => by cases hwindow⟩
  | some window =>
    refine ⟨stale ++ others.takeWhile fun event => event.2 < now - window, ?_, ?_⟩
    · rw [List.append_assoc, List.takeWhile_append_dropWhile]
    · intro event hevent another hanother
      cases hanother
      rcases List.mem_append.mp hevent with hold | hpruned
      · exact hstale event hold window hseconds
      · simpa using List.mem_takeWhile_imp hpruned

theorem appendEvent_newest (tracker : RepetitionTracker) (records : List (String × ℚ)) (event : String × ℚ) :
    tracker.appendEvent (newest tracker.eventMaxlen records) event = newest tracker.eventMaxlen (records ++ [event]) :=
  push_newest _ records event

theorem dropWhile_eq_filter_of_sorted {cutoff : ℚ} (h : (events.map Prod.snd).Pairwise (· ≤ ·)) :
    (events.dropWhile fun event => event.2 < cutoff) = events.filter fun event => cutoff ≤ event.2 := by
  induction events with
  | nil => rfl
  | cons event rest ih =>
    rw [List.map_cons, List.pairwise_cons] at h
    by_cases hold : event.2 < cutoff
    · rw [List.dropWhile_cons_of_pos (by simpa using hold), List.filter_cons_of_neg (by simpa using hold), ih h.2]
    · rw [List.dropWhile_cons_of_neg (by simpa using hold), List.filter_eq_self.mpr]
      intro other hother
      rcases List.mem_cons.mp hother with rfl | hrest
      · simpa using hold
      · simpa using (not_lt.mp hold).trans (h.1 other.2 (List.mem_map_of_mem hrest))

theorem le_foldl_max_iff {n start : Nat} {counts : List Nat} : n ≤ counts.foldl max start ↔ n ≤ start ∨ ∃ count ∈ counts, n ≤ count := by
  induction counts generalizing start with
  | nil => simp
  | cons count rest ih => simp [ih, or_assoc]

theorem le_maxFingerprintCount_iff {n : Nat} : n ≤ maxFingerprintCount events ↔ ∃ fingerprint, n ≤ events.countP (·.1 = fingerprint) := by
  unfold maxFingerprintCount
  rw [le_foldl_max_iff]
  constructor
  · rintro (hzero | ⟨count, hcount, hn⟩)
    · exact ⟨"", by omega⟩
    · obtain ⟨event, -, rfl⟩ := List.mem_map.mp hcount
      exact ⟨event.1, by simpa only [beq_eq_decide] using hn⟩
  · rintro ⟨fingerprint, hn⟩
    by_cases hzero : n = 0
    · exact .inl hzero.le
    · obtain ⟨event, hevent, hsame⟩ := List.countP_pos_iff.mp ((Nat.pos_of_ne_zero hzero).trans_le hn)
      refine .inr ⟨_, List.mem_map_of_mem hevent, ?_⟩
      simpa only [beq_eq_decide, of_decide_eq_true hsame] using hn

theorem windowIsCycling_iff : windowIsCycling events = true ↔ AtMostFour events := by
  simp [windowIsCycling, AtMostFour, List.card_toFinset]

/-! ## A run of calls -/

theorem records_concat (kind : TrackerCall → Option String) (calls : List (TrackerCall × ℚ)) (call : TrackerCall × ℚ) :
    records kind (calls ++ [call]) =
      records kind calls ++ ((kind call.1).map fun fingerprint => (fingerprint, call.2)).toList := by
  unfold records
  rw [List.filterMap_append]
  cases hkind : kind call.1 <;> simp [hkind]

theorem sinceProgress_concat (kind : TrackerCall → Option String) (calls : List (TrackerCall × ℚ)) (call : TrackerCall × ℚ) :
    sinceProgress kind (calls ++ [call]) =
      if call.1 = .noteProgress then [] else sinceProgress kind calls ++ (kind call.1).toList := by
  unfold sinceProgress
  rw [List.foldl_append]
  rfl

/-- Both counts stand for the calls, and both buffers but for what is out of the window. -/
structure Remembers (settings : RepetitionTracker) (calls : List (TrackerCall × ℚ)) (now : ℚ) (tracker : RepetitionTracker) :
    Prop where
  consecutiveThreshold : tracker.consecutiveThreshold = settings.consecutiveThreshold
  windowCount : tracker.windowCount = settings.windowCount
  windowSeconds : tracker.windowSeconds = settings.windowSeconds
  errors : StreakOf tracker.consecutive tracker.lastFingerprint (sinceProgress TrackerCall.error? calls)
  tools : StreakOf tracker.toolConsecutive tracker.lastToolFingerprint (sinceProgress TrackerCall.tool? calls)
  events : StaleBefore settings.windowSeconds now (newest settings.eventMaxlen (records TrackerCall.error? calls))
    tracker.events
  toolEvents : StaleBefore settings.windowSeconds now (newest settings.eventMaxlen (records TrackerCall.tool? calls))
    tracker.toolEvents

theorem Remembers.start (consecutiveThreshold windowCount : Option Nat) (windowSeconds : Option ℚ) (now : ℚ) :
    Remembers (start consecutiveThreshold windowCount windowSeconds) [] now
      (start consecutiveThreshold windowCount windowSeconds) := by
  have hnothing (kind : TrackerCall → Option String) (maxlen : Nat) : newest maxlen (records kind []) = [] := List.drop_nil
  refine ⟨rfl, rfl, rfl, .nil, .nil, ?_, ?_⟩
  · rw [hnothing]
    exact .same
  · rw [hnothing]
    exact .same

section

variable (h : Remembers settings calls now tracker)
include h

theorem Remembers.of_le (hlater : now ≤ later) : Remembers settings calls later tracker :=
  { h with events := h.events.of_le hlater, toolEvents := h.toolEvents.of_le hlater }

theorem Remembers.prune_eq (events : List (String × ℚ)) : tracker.prune events = settings.prune events := by
  unfold RepetitionTracker.prune
  rw [h.windowSeconds]

theorem Remembers.appendEvent_eq (events : List (String × ℚ)) : tracker.appendEvent events = settings.appendEvent events := by
  unfold appendEvent eventMaxlen
  rw [h.windowCount]

theorem Remembers.recorded {told : List (String × ℚ)} (event : String × ℚ)
    (hevents : StaleBefore settings.windowSeconds now (newest settings.eventMaxlen told) events) :
    StaleBefore settings.windowSeconds now (newest settings.eventMaxlen (told ++ [event]))
      (tracker.prune (tracker.appendEvent events event) now) := by
  rw [h.prune_eq, h.appendEvent_eq, ← appendEvent_newest]
  exact (appendEvent_stale settings event hevents).prune

theorem Remembers.noteError : Remembers settings (calls ++ [(.noteError fingerprint, now)]) now (tracker.noteError fingerprint now) := by
  refine ⟨h.consecutiveThreshold, h.windowCount, h.windowSeconds, ?_, ?_, ?_, ?_⟩
  · simpa [sinceProgress_concat, TrackerCall.error?, RepetitionTracker.noteError] using h.errors.concat
  · simpa [sinceProgress_concat, TrackerCall.tool?, RepetitionTracker.noteError] using h.tools
  · simpa [records_concat, TrackerCall.error?, RepetitionTracker.noteError] using h.recorded (fingerprint, now) h.events
  · simpa [records_concat, TrackerCall.tool?, RepetitionTracker.noteError] using h.toolEvents

theorem Remembers.markToolCall : Remembers settings (calls ++ [(.markToolCall fingerprint, now)]) now (tracker.markToolCall fingerprint now) := by
  refine ⟨h.consecutiveThreshold, h.windowCount, h.windowSeconds, ?_, ?_, ?_, ?_⟩
  · simpa [sinceProgress_concat, TrackerCall.error?, RepetitionTracker.markToolCall] using h.errors
  · simpa [sinceProgress_concat, TrackerCall.tool?, RepetitionTracker.markToolCall] using h.tools.concat
  · simpa [records_concat, TrackerCall.error?, RepetitionTracker.markToolCall] using h.events
  · simpa [records_concat, TrackerCall.tool?, RepetitionTracker.markToolCall] using h.recorded (fingerprint, now) h.toolEvents

theorem Remembers.noteProgress : Remembers settings (calls ++ [(.noteProgress, now)]) now tracker.noteProgress := by
  refine ⟨h.consecutiveThreshold, h.windowCount, h.windowSeconds, ?_, ?_, ?_, ?_⟩
  · simpa [sinceProgress_concat, RepetitionTracker.noteProgress] using StreakOf.nil
  · simpa [sinceProgress_concat, RepetitionTracker.noteProgress] using StreakOf.nil
  · simpa [records_concat, TrackerCall.error?, RepetitionTracker.noteProgress] using h.events
  · simpa [records_concat, TrackerCall.tool?, RepetitionTracker.noteProgress] using h.toolEvents

theorem Remembers.asked {call : TrackerCall} (hquery : call.isQuery = true) : Remembers settings (calls ++ [(call, now)]) now tracker := by
  have hprogress : call ≠ .noteProgress := by
    rintro rfl
    cases hquery
  have herror : call.error? = none := by cases call <;> first | rfl | cases hquery
  have htool : call.tool? = none := by cases call <;> first | rfl | cases hquery
  refine ⟨h.consecutiveThreshold, h.windowCount, h.windowSeconds, ?_, ?_, ?_, ?_⟩
  · simpa [sinceProgress_concat, hprogress, herror] using h.errors
  · simpa [sinceProgress_concat, hprogress, htool] using h.tools
  · simpa [records_concat, herror] using h.events
  · simpa [records_concat, htool] using h.toolEvents

theorem Remembers.errorDimensionTripped : Remembers settings calls now (tracker.errorDimensionTripped now).2 := by
  have hpruned := h.events.prune
  rw [← h.prune_eq] at hpruned
  unfold RepetitionTracker.errorDimensionTripped
  split_ifs
  · exact h
  · exact { h with events := hpruned }
  · exact h

theorem Remembers.toolDimensionTripped : Remembers settings calls now (tracker.toolDimensionTripped now).2 := by
  have hpruned := h.toolEvents.prune
  rw [← h.prune_eq] at hpruned
  unfold RepetitionTracker.toolDimensionTripped
  split_ifs
  · exact h
  · exact { h with toolEvents := hpruned }
  · exact h

theorem Remembers.perform (call : TrackerCall) : Remembers settings (calls ++ [(call, now)]) now (tracker.perform call now) := by
  cases call with
  | noteError fingerprint => exact h.noteError
  | markToolCall fingerprint => exact h.markToolCall
  | noteProgress => exact h.noteProgress
  | askErrors => exact h.errorDimensionTripped.asked rfl
  | askTools => exact h.toolDimensionTripped.asked rfl

end

theorem Clocked.init {call : TrackerCall × ℚ} (h : Clocked (calls ++ [call]) now) : Clocked calls call.2 ∧ call.2 ≤ now := by
  unfold Clocked at h
  rw [List.map_append, List.pairwise_append] at h
  exact ⟨by simpa [Clocked] using h.1, by simpa using h.2.2 call.2 (by simp) now⟩

theorem Clocked.records (h : Clocked calls now) : ((records kind calls).map Prod.snd).Pairwise (· ≤ ·) := by
  refine List.Pairwise.sublist ?_ (List.pairwise_append.mp h).1
  unfold RepetitionTracker.records
  induction calls with
  | nil => exact .refl _
  | cons call rest ih =>
    have hrest := ih (List.pairwise_cons.mp h).2
    cases hkind : kind call.1 with
    | none => simpa [hkind] using hrest.cons call.2
    | some fingerprint => simpa [hkind] using hrest.cons_cons call.2

theorem remembers_after (consecutiveThreshold windowCount : Option Nat) (windowSeconds : Option ℚ) (hclock : Clocked calls now) :
    Remembers (start consecutiveThreshold windowCount windowSeconds) calls now
      ((start consecutiveThreshold windowCount windowSeconds).after calls) := by
  induction calls using List.reverseRecOn generalizing now with
  | nil => exact Remembers.start _ _ _ now
  | append_singleton calls call ih =>
    obtain ⟨hcalls, hnow⟩ := hclock.init
    have hlast := ((ih hcalls).perform call.1).of_le hnow
    unfold after at hlast ⊢
    rw [List.foldl_append]
    exact hlast

/-! ## The answers -/

theorem pruned_eq_trailing {told : List (String × ℚ)} {window : ℚ} (hseconds : settings.windowSeconds = some window)
    (hwindowed : settings.windowed = true) (hsorted : (told.map Prod.snd).Pairwise (· ≤ ·))
    (h : StaleBefore settings.windowSeconds now (newest settings.eventMaxlen told) events) :
    settings.prune events now = settings.trailing window now told := by
  have hdropped : ((newest settings.eventMaxlen told).map Prod.snd).Pairwise (· ≤ ·) :=
    hsorted.sublist ((List.drop_sublist _ _).map _)
  rw [← prune_stale le_rfl hwindowed h]
  unfold RepetitionTracker.prune trailing
  rw [hseconds]
  exact dropWhile_eq_filter_of_sorted hdropped

theorem answer_iff {cycling : List (String × ℚ) → Bool} {narrow : List (String × ℚ) → Prop}
    (hcycling : ∀ window, cycling window = true ↔ narrow window) (hclock : Clocked calls now)
    (hstreak : StreakOf count last (sinceProgress kind calls))
    (h : StaleBefore settings.windowSeconds now (newest settings.eventMaxlen (records kind calls)) events) :
    (reached settings.consecutiveThreshold count = true ∨ settings.windowed = true ∧
      (reached settings.windowCount (maxFingerprintCount (settings.prune events now)) &&
        cycling (settings.prune events now)) = true) ↔ settings.Repeats kind narrow calls now := by
  unfold Repeats
  refine or_congr (hstreak.reached_iff _) ?_
  cases hcount : settings.windowCount with
  | none => simp [windowed, hcount]
  | some n =>
    cases hseconds : settings.windowSeconds with
    | none => simp [windowed, hseconds]
    | some window =>
      have hwindowed : settings.windowed = true := by simp [windowed, hcount, hseconds]
      rw [pruned_eq_trailing hseconds hwindowed hclock.records h]
      simp [hwindowed, reached, le_maxFingerprintCount_iff, hcycling]

theorem Remembers.errors_iff (h : Remembers settings calls now tracker) (hclock : Clocked calls now) :
    (tracker.errorDimensionTripped now).1 = true ↔ settings.Repeats TrackerCall.error? (fun _ => True) calls now := by
  have hany (window : List (String × ℚ)) : (fun _ => true) window = true ↔ (fun _ => True) window := by simp
  rw [← answer_iff hany hclock h.errors h.events]
  unfold RepetitionTracker.errorDimensionTripped windowed
  rw [h.consecutiveThreshold, h.windowCount, h.windowSeconds, h.prune_eq]
  split_ifs <;> simp [*]

theorem Remembers.tools_iff (h : Remembers settings calls now tracker) (hclock : Clocked calls now) :
    (tracker.toolDimensionTripped now).1 = true ↔ settings.Repeats TrackerCall.tool? AtMostFour calls now := by
  rw [← answer_iff (fun _ => windowIsCycling_iff) hclock h.tools h.toolEvents]
  unfold RepetitionTracker.toolDimensionTripped windowed
  rw [h.consecutiveThreshold, h.windowCount, h.windowSeconds, h.prune_eq]
  split_ifs <;> simp [*]

theorem records_filter (hkind : ∀ call : TrackerCall, call.isQuery = true → kind call = none) :
    records kind (calls.filter fun call => !call.1.isQuery) = records kind calls := by
  unfold records
  rw [List.filterMap_filter]
  congr 1
  funext call
  cases hquery : call.1.isQuery with
  | true => simp [hkind call.1 hquery]
  | false => simp

theorem sinceProgress_filter (hkind : ∀ call : TrackerCall, call.isQuery = true → kind call = none) :
    sinceProgress kind (calls.filter fun call => !call.1.isQuery) = sinceProgress kind calls := by
  unfold sinceProgress
  rw [List.foldl_filter]
  congr 1
  funext told call
  cases hquery : call.1.isQuery with
  | true =>
    have hprogress : call.1 ≠ .noteProgress := by
      intro h
      rw [h] at hquery
      cases hquery
    simp [hkind call.1 hquery, hprogress]
  | false => simp

theorem repeats_congr {narrow : List (String × ℚ) → Prop} {others : List (TrackerCall × ℚ)}
    (hkind : ∀ call : TrackerCall, call.isQuery = true → kind call = none)
    (hsame : (others.filter fun call => !call.1.isQuery) = calls.filter fun call => !call.1.isQuery) :
    settings.Repeats kind narrow others now ↔ settings.Repeats kind narrow calls now := by
  unfold Repeats
  rw [← records_filter hkind, ← sinceProgress_filter hkind, hsame, records_filter hkind, sinceProgress_filter hkind]

theorem error?_of_isQuery (call : TrackerCall) (h : call.isQuery = true) : call.error? = none := by
  cases call <;> first | rfl | cases h

theorem tool?_of_isQuery (call : TrackerCall) (h : call.isQuery = true) : call.tool? = none := by
  cases call <;> first | rfl | cases h

def threeInARow : List (TrackerCall × ℚ) :=
  [(.noteError "e", 0), (.askTools, 1 / 2), (.noteError "e", 1), (.markToolCall "t", 1), (.noteError "e", 2)]

variable (consecutiveThreshold windowCount : Option Nat) (windowSeconds : Option ℚ)

/-- The two dimensions trip as the rules say, and queries change nothing of the answers. -/
theorem tripped_iff_repeats (calls : List (TrackerCall × ℚ)) (now : ℚ) (hclock : Clocked calls now) :
    ((start consecutiveThreshold windowCount windowSeconds).errorsTripped calls now = true ↔
      (start consecutiveThreshold windowCount windowSeconds).Repeats TrackerCall.error? (fun _ => True) calls now) ∧
    ((start consecutiveThreshold windowCount windowSeconds).toolsTripped calls now = true ↔
      (start consecutiveThreshold windowCount windowSeconds).Repeats TrackerCall.tool? AtMostFour calls now) ∧
    ∀ others, Clocked others now →
      ((others.filter fun call => !call.1.isQuery) = calls.filter fun call => !call.1.isQuery) →
      (start consecutiveThreshold windowCount windowSeconds).errorsTripped others now =
          (start consecutiveThreshold windowCount windowSeconds).errorsTripped calls now ∧
        (start consecutiveThreshold windowCount windowSeconds).toolsTripped others now =
          (start consecutiveThreshold windowCount windowSeconds).toolsTripped calls now := by
  have hcalls := remembers_after consecutiveThreshold windowCount windowSeconds hclock
  refine ⟨hcalls.errors_iff hclock, hcalls.tools_iff hclock, fun others hothers hsame => ⟨?_, ?_⟩⟩
  · have hother := remembers_after consecutiveThreshold windowCount windowSeconds hothers
    rw [Bool.eq_iff_iff]
    exact (hother.errors_iff hothers).trans ((repeats_congr error?_of_isQuery hsame).trans (hcalls.errors_iff hclock).symm)
  · have hother := remembers_after consecutiveThreshold windowCount windowSeconds hothers
    rw [Bool.eq_iff_iff]
    exact (hother.tools_iff hothers).trans ((repeats_congr tool?_of_isQuery hsame).trans (hcalls.tools_iff hclock).symm)

theorem threeInARow_tripped : ((start (some 3) (some 2) (some 10)).errorsTripped threeInARow 2 = true ↔
      (start (some 3) (some 2) (some 10)).Repeats TrackerCall.error? (fun _ => True) threeInARow 2) ∧
    ((start (some 3) (some 2) (some 10)).toolsTripped threeInARow 2 = true ↔
      (start (some 3) (some 2) (some 10)).Repeats TrackerCall.tool? AtMostFour threeInARow 2) ∧
    ∀ others, Clocked others 2 →
      ((others.filter fun call => !call.1.isQuery) = threeInARow.filter fun call => !call.1.isQuery) →
      (start (some 3) (some 2) (some 10)).errorsTripped others 2 = (start (some 3) (some 2) (some 10)).errorsTripped threeInARow 2 ∧
        (start (some 3) (some 2) (some 10)).toolsTripped others 2 = (start (some 3) (some 2) (some 10)).toolsTripped threeInARow 2 :=
  tripped_iff_repeats (some 3) (some 2) (some 10) threeInARow 2 (by unfold Clocked; decide +kernel)

end RepetitionTracker

end RalphWorkflow.Agents
