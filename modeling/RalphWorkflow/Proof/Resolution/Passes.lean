import Mathlib.Data.Nat.ModEq
import RalphWorkflow.Pipeline.ConflictResolution.Round

/-! What one pass of the loop can do, the order in which the positions come up, and that the loop ends. -/
namespace RalphWorkflow.Resolution
open Pipeline.ConflictResolution List

variable {Checkout : Type} {players : Players Checkout} {round next : Round Checkout} {session : ResolutionSession}
  {log : List (RoundEvent Checkout)} {position first : Nat}

/-! ## One pass -/

def agentAt (players : Players Checkout) (position : Nat) : String := players.candidates.getD position ""

def nextInvocation (players : Players Checkout) (round : Round Checkout) : Invocation Checkout :=
  players.behaviour round.offset (attemptsAt round.log round.offset)

def Repairs (players : Players Checkout) (invocation : Invocation Checkout) : Prop :=
  invocation.activity = true ∧ players.worktreeResolved invocation.checkout = true

def tried (players : Players Checkout) (round : Round Checkout) : Round Checkout :=
  let invocation := nextInvocation players round
  { round with
    session := classifyFailedResolutionAttempt
      { round.session.afterRunner (agentAt players round.offset) invocation with
        terminalReason := some (failureReason invocation) }
      invocation.environmental players.total round.offset players.maxRetries
    invoked := true
    agentRan := round.agentRan || invocation.activity
    log := .invoked round.offset invocation :: round.log }

/-- What the four ways to go on have in common: a failed invocation that repaired nothing. -/
structure Fails (players : Players Checkout) (round : Round Checkout) : Prop where
  free : agentAt players round.offset ∉ round.skipped
  failed : (nextInvocation players round).returned ≠ .success
  unrepaired : ¬ Repairs players (nextInvocation players round)

inductive Goes (players : Players Checkout) (round : Round Checkout) : Round Checkout → Prop
  | passed (hbarred : agentAt players round.offset ∈ round.skipped) :
      Goes players round (Players.leaveFor { round with log := .passed round.offset round.session :: round.log }
        round.session (nextUnvisited round.offset players.total))
  | faulted (hfails : Fails players round)
      (hreason : (failureReason (nextInvocation players round)).infrastructure = true) :
      Goes players round (Players.leaveFor
        { tried players round with
          skipped := skippedCandidates (rememberDeadSurface (tried players round).session (agentAt players round.offset))
            players.candidates }
        { rememberDeadSurface (tried players round).session (agentAt players round.offset) with chargeConflictBudget := false }
        (nextUnvisited round.offset players.total))
  | retried (hfails : Fails players round)
      (hreason : (failureReason (nextInvocation players round)).infrastructure = false)
      (hagain : (tried players round).session.chainCursor = round.offset)
      (hroom : round.attemptsHere + 1 < players.attemptCap) :
      Goes players round { tried players round with attemptsHere := round.attemptsHere + 1 }
  | spent (hfails : Fails players round)
      (hreason : (failureReason (nextInvocation players round)).infrastructure = false)
      (hover : ¬ ((tried players round).session.chainCursor = round.offset ∧
        round.attemptsHere + 1 < players.attemptCap)) :
      Goes players round (Players.leaveFor { tried players round with attemptsHere := 0 } (tried players round).session
        fun visited =>
          if visited.contains ((tried players round).session.chainCursor % players.total) then
            nextUnvisited round.offset players.total visited
          else (tried players round).session.chainCursor % players.total)

inductive Stops (players : Players Checkout) (round : Round Checkout) : RoundAttempt → Round Checkout → Prop
  | succeeded (hfree : agentAt players round.offset ∉ round.skipped)
      (hsuccess : (nextInvocation players round).returned = .success) :
      Stops players round ⟨true, true, true⟩
        { round with
          session :=
            { round.session.afterRunner (agentAt players round.offset) (nextInvocation players round) with
              chainCursor := (round.offset + 1) % players.total }
          invoked := true
          log := .invoked round.offset (nextInvocation players round) :: round.log }
  | repaired (hfree : agentAt players round.offset ∉ round.skipped)
      (hfailed : (nextInvocation players round).returned ≠ .success)
      (hrepairs : Repairs players (nextInvocation players round)) :
      Stops players round ⟨false, true, true⟩ (tried players round)

theorem classify_terminalReason (session : ResolutionSession) (environmental : Bool) (total failedIndex maxRetries : Nat) :
    (classifyFailedResolutionAttempt session environmental total failedIndex maxRetries).terminalReason =
      session.terminalReason := by
  unfold classifyFailedResolutionAttempt
  split
  · rfl
  · split
    · rfl
    · rfl

theorem afterFailure_goes (hfails : Fails players round) :
    ∃ next, players.afterFailure (agentAt players round.offset) (tried players round) = .continues next ∧
      Goes players round next := by
  have hreason : (tried players round).session.terminalReason = some (failureReason (nextInvocation players round)) :=
    classify_terminalReason _ _ _ _ _
  unfold Players.afterFailure
  simp only [hreason, Option.any_some]
  by_cases hinfrastructure : (failureReason (nextInvocation players round)).infrastructure = true
  · rw [if_pos hinfrastructure]
    exact ⟨_, rfl, .faulted hfails hinfrastructure⟩
  · rw [if_neg hinfrastructure]
    rw [Bool.not_eq_true] at hinfrastructure
    by_cases hagain : (tried players round).session.chainCursor = round.offset ∧ round.attemptsHere + 1 < players.attemptCap
    · exact ⟨_, if_pos hagain, .retried hfails hinfrastructure hagain.1 hagain.2⟩
    · exact ⟨_, if_neg hagain, .spent hfails hinfrastructure hagain⟩

theorem pass_cases (players : Players Checkout) (round : Round Checkout) :
    (∃ next, players.pass round = .continues next ∧ Goes players round next) ∨
      ∃ attempt final, players.pass round = .returns attempt final ∧ Stops players round attempt final := by
  unfold Players.pass
  by_cases hbarred : agentAt players round.offset ∈ round.skipped
  · refine .inl ⟨_, if_pos (contains_iff_mem.mpr hbarred), .passed hbarred⟩
  · have hnot : ¬ (round.skipped.contains (players.candidates.getD round.offset "") = true) :=
      fun h => hbarred (contains_iff_mem.mp h)
    simp only [if_neg hnot]
    unfold Players.invoke
    by_cases hsuccess : (nextInvocation players round).returned = .success
    · refine .inr ⟨_, _, ?_, .succeeded hbarred hsuccess⟩
      have hreturned := hsuccess
      unfold nextInvocation at hreturned
      simp only [hreturned]
      rfl
    · by_cases hrepairs : Repairs players (nextInvocation players round)
      · refine .inr ⟨_, _, ?_, .repaired hbarred hsuccess hrepairs⟩
        have hactive : ((nextInvocation players round).activity && players.worktreeResolved (nextInvocation players round).checkout) = true := by
          rw [hrepairs.1, hrepairs.2]
          rfl
        unfold nextInvocation at hsuccess hactive
        cases hreturned : (players.behaviour round.offset (attemptsAt round.log round.offset)).returned with
        | success => exact absurd hreturned hsuccess
        | failure =>
          simp only [if_pos hactive]
          rfl
        | exception =>
          simp only [if_pos hactive]
          rfl
      · obtain ⟨next, hnext, hgoes⟩ := afterFailure_goes ⟨hbarred, hsuccess, hrepairs⟩
        refine .inl ⟨next, ?_, hgoes⟩
        have hidle : ¬ ((nextInvocation players round).activity && players.worktreeResolved (nextInvocation players round).checkout) = true :=
          fun h => hrepairs ⟨(Bool.and_eq_true_iff.mp h).1, (Bool.and_eq_true_iff.mp h).2⟩
        unfold nextInvocation at hsuccess hidle
        cases hreturned : (players.behaviour round.offset (attemptsAt round.log round.offset)).returned with
        | success => exact absurd hreturned hsuccess
        | failure =>
          simp only [if_neg hidle]
          exact hnext
        | exception =>
          simp only [if_neg hidle]
          exact hnext

/-! ## The order of the positions -/

/-- The position that comes up after `steps` others, counted around the chain. -/
def place (players : Players Checkout) (first steps : Nat) : Nat := (first + steps) % players.total

theorem place_injective {i j : Nat} (hi : i < players.total) (hj : j < players.total)
    (h : place players first i = place players first j) : i = j := by
  have hmod : first + i ≡ first + j [MOD players.total] := h
  exact (Nat.ModEq.add_left_cancel' first hmod).eq_of_lt_of_lt hi hj

theorem place_succ (steps : Nat) : (place players first steps + 1) % players.total = place players first (steps + 1) := by
  unfold place
  rw [Nat.mod_add_mod, Nat.add_assoc]

theorem exists_place {position : Nat} (hfirst : first < players.total) (hposition : position < players.total) :
    ∃ steps, steps < players.total ∧ place players first steps = position := by
  by_cases h : first ≤ position
  · refine ⟨position - first, by omega, ?_⟩
    unfold place
    rw [Nat.add_sub_cancel' h, Nat.mod_eq_of_lt hposition]
  · refine ⟨players.total - first + position, by omega, ?_⟩
    unfold place
    rw [show first + (players.total - first + position) = position + players.total by omega, Nat.add_mod_right,
      Nat.mod_eq_of_lt hposition]

theorem nextUnvisited_eq {offset total : Nat} {visited : List Nat} (htotal : 0 < total)
    (hfree : (offset + 1) % total ∉ visited) : nextUnvisited offset total visited = (offset + 1) % total := by
  obtain ⟨count, rfl⟩ := Nat.exists_eq_add_one_of_ne_zero (Nat.ne_of_gt htotal)
  unfold nextUnvisited
  rw [range_succ_eq_map, map_cons, List.find?_cons_of_pos]
  · rfl
  · simpa using hfree

/-- The positions are visited around the chain, and the offset is the next one. -/
structure Ordered (players : Players Checkout) (first : Nat) (round : Round Checkout) : Prop where
  size : round.visited.length ≤ players.total
  visited : ∀ position, position ∈ round.visited ↔
    ∃ steps, steps < round.visited.length ∧ place players first steps = position
  offset : round.visited.length < players.total → round.offset = place players first round.visited.length

theorem Ordered.fresh (hordered : Ordered players first round) (hmore : round.visited.length < players.total) : round.offset ∉ round.visited := by
  rw [hordered.visited, hordered.offset hmore]
  rintro ⟨steps, hsteps, hplace⟩
  have heq := place_injective (by omega) hmore hplace
  omega

theorem Ordered.lt (hordered : Ordered players first round) (hmore : round.visited.length < players.total) : round.offset < players.total := by
  rw [hordered.offset hmore]
  exact Nat.mod_lt _ (by omega)

theorem Ordered.leaveFor (hordered : Ordered players first round) (hmore : round.visited.length < players.total)
    {left : Round Checkout} (hvisited : left.visited = round.visited) (hleft : left.offset = round.offset)
    {pick : List Nat → Nat}
    (hpick : ∀ visited, (round.offset + 1) % players.total ∉ visited → round.offset ∈ visited →
      pick visited = (round.offset + 1) % players.total) (session : ResolutionSession) :
    Ordered players first (Players.leaveFor left session pick) := by
  have hoffset := hordered.offset hmore
  have hinsert : round.visited.insert round.offset = round.offset :: round.visited :=
    insert_of_not_mem (hordered.fresh hmore)
  have hmem : ∀ position, position ∈ round.offset :: round.visited ↔
      ∃ steps, steps < round.visited.length + 1 ∧ place players first steps = position := by
    intro position
    rw [mem_cons, hordered.visited, hoffset]
    constructor
    · rintro (rfl | ⟨steps, hsteps, hplace⟩)
      · exact ⟨_, Nat.lt_succ_self _, rfl⟩
      · exact ⟨steps, Nat.lt_succ_of_lt hsteps, hplace⟩
    · rintro ⟨steps, hsteps, rfl⟩
      by_cases hlast : steps = round.visited.length
      · exact .inl (hlast ▸ rfl)
      · exact .inr ⟨steps, by omega, rfl⟩
  refine ⟨?_, ?_, ?_⟩
  · show (left.visited.insert left.offset).length ≤ players.total
    rw [hvisited, hleft, hinsert, length_cons]
    exact hmore
  · show ∀ position, position ∈ left.visited.insert left.offset ↔
      ∃ steps, steps < (left.visited.insert left.offset).length ∧ place players first steps = position
    rw [hvisited, hleft, hinsert]
    exact hmem
  · show (left.visited.insert left.offset).length < players.total →
      pick (left.visited.insert left.offset) = place players first (left.visited.insert left.offset).length
    rw [hvisited, hleft, hinsert, length_cons]
    intro hroom
    have hnext : (round.offset + 1) % players.total = place players first (round.visited.length + 1) := by
      rw [hoffset, place_succ]
    rw [hpick _ ?_ mem_cons_self, hnext]
    rw [hnext, hmem]
    rintro ⟨steps, hsteps, hplace⟩
    have heq := place_injective (by omega) hroom hplace
    omega

theorem classify_cursor (session : ResolutionSession) (environmental : Bool) (total failedIndex maxRetries : Nat) (hlt : failedIndex < total) :
    (classifyFailedResolutionAttempt session environmental total failedIndex maxRetries).chainCursor = failedIndex ∨
      (classifyFailedResolutionAttempt session environmental total failedIndex maxRetries).chainCursor = failedIndex + 1 := by
  unfold classifyFailedResolutionAttempt
  split
  · exact .inl rfl
  · rw [if_pos (by omega)]
    refine .inr ?_
    show nextConflictCandidate total failedIndex = failedIndex + 1
    unfold nextConflictCandidate
    rw [if_neg (by omega)]
    omega

theorem tried_cursor (hlt : round.offset < players.total) : (tried players round).session.chainCursor = round.offset ∨
      (tried players round).session.chainCursor = round.offset + 1 :=
  classify_cursor _ _ _ _ _ hlt

theorem Goes.moves (hordered : Ordered players first round) (hmore : round.visited.length < players.total) (hgoes : Goes players round next) :
    Ordered players first next ∧
      (next.visited = round.visited ∧ next.offset = round.offset ∧ next.attemptsHere = round.attemptsHere + 1 ∧
          round.attemptsHere + 1 < players.attemptCap ∨
        next.visited = round.offset :: round.visited) := by
  have hinsert : round.visited.insert round.offset = round.offset :: round.visited :=
    insert_of_not_mem (hordered.fresh hmore)
  have hpositive : 0 < players.total := by omega
  cases hgoes with
  | passed hbarred =>
    exact ⟨hordered.leaveFor hmore (by rfl) (by rfl) (fun _ hfree _ => nextUnvisited_eq hpositive hfree) _, .inr hinsert⟩
  | faulted hfails hreason =>
    exact ⟨hordered.leaveFor hmore (by rfl) (by rfl) (fun _ hfree _ => nextUnvisited_eq hpositive hfree) _, .inr hinsert⟩
  | retried hfails hreason hagain hroom =>
    exact ⟨⟨hordered.size, hordered.visited, hordered.offset⟩, .inl ⟨rfl, rfl, rfl, hroom⟩⟩
  | spent hfails hreason hover =>
    refine ⟨hordered.leaveFor hmore (by rfl) (by rfl) ?_ _, .inr hinsert⟩
    intro visited hfree hseen
    have hlt := hordered.lt hmore
    rcases tried_cursor hlt with hcursor | hcursor
    · have hsame : (tried players round).session.chainCursor % players.total = round.offset := by
        rw [hcursor]
        exact Nat.mod_eq_of_lt hlt
      rw [hsame, if_pos (contains_iff_mem.mpr hseen)]
      exact nextUnvisited_eq hpositive hfree
    · have hnext : (tried players round).session.chainCursor % players.total = (round.offset + 1) % players.total := by
        rw [hcursor]
      rw [hnext, if_neg fun h => hfree (contains_iff_mem.mp h)]

theorem start_ordered (players : Players Checkout) (session : ResolutionSession) (htotal : 0 < players.total) :
    ∃ first, first < players.total ∧ (players.start session).visited = [] ∧ (players.start session).offset = first ∧
      Ordered players first (players.start session) := by
  refine ⟨(players.start session).offset, Nat.mod_lt _ htotal, rfl, rfl, Nat.zero_le _, ?_, ?_⟩
  · intro position
    constructor
    · exact fun h => absurd h not_mem_nil
    · rintro ⟨steps, hsteps, -⟩
      exact absurd hsteps (Nat.not_lt_zero _)
  · intro _
    exact (Nat.mod_eq_of_lt (Nat.mod_lt _ htotal)).symm

/-! ## Whole rounds -/

def weight (players : Players Checkout) (round : Round Checkout) : Nat :=
  (players.total - round.visited.length) * (players.attemptCap + 1) + (players.attemptCap - round.attemptsHere)

theorem Goes.weight_lt (hordered : Ordered players first round) (hmore : round.visited.length < players.total)
    (hgoes : Goes players round next) : weight players next < weight players round := by
  unfold weight
  rcases (hgoes.moves hordered hmore).2 with ⟨hvisited, -, hattempts, hroom⟩ | hvisited
  · rw [hvisited, hattempts]
    omega
  · obtain ⟨left, hleft⟩ := Nat.exists_eq_add_of_lt hmore
    have hbefore : players.total - round.visited.length = left + 1 := by omega
    have hafter : players.total - (round.offset :: round.visited).length = left := by
      rw [length_cons]
      omega
    rw [hvisited, hbefore, hafter, Nat.add_mul]
    omega

inductive Ends (players : Players Checkout) (last : Round Checkout) : RoundAttempt → Round Checkout → Prop
  | exhausted (hall : last.visited.length = players.total) :
      Ends players last ⟨false, last.invoked, last.agentRan⟩ last
  | stopped {attempt : RoundAttempt} {final : Round Checkout} (hmore : last.visited.length < players.total)
      (hstops : Stops players last attempt final) : Ends players last attempt final

theorem passes_end {fuel : Nat} (hordered : Ordered players first round) (hfuel : weight players round < fuel) :
    ∃ attempt final, players.passes fuel round = some (attempt, final) := by
  induction fuel generalizing round with
  | zero => exact absurd hfuel (Nat.not_lt_zero _)
  | succ fuel ih =>
    rw [Players.passes]
    by_cases hmore : round.visited.length < players.total
    · rw [if_pos hmore]
      rcases pass_cases players round with ⟨next, hpass, hgoes⟩ | ⟨attempt, final, hpass, -⟩
      · rw [hpass]
        exact ih (hgoes.moves hordered hmore).1 (Nat.lt_of_lt_of_le (hgoes.weight_lt hordered hmore) (Nat.le_of_lt_succ hfuel))
      · rw [hpass]
        exact ⟨attempt, final, rfl⟩
    · rw [if_neg hmore]
      exact ⟨_, _, rfl⟩

theorem passes_invariant (Inv : Round Checkout → Prop)
    (hstep : ∀ round next, Ordered players first round → round.visited.length < players.total → Inv round →
      Goes players round next → Inv next)
    {fuel : Nat} {attempt : RoundAttempt} {final : Round Checkout} (hordered : Ordered players first round) (hinv : Inv round)
    (h : players.passes fuel round = some (attempt, final)) :
    ∃ last, Ordered players first last ∧ Inv last ∧ Ends players last attempt final := by
  induction fuel generalizing round with
  | zero => cases h
  | succ fuel ih =>
    rw [Players.passes] at h
    by_cases hmore : round.visited.length < players.total
    · rw [if_pos hmore] at h
      rcases pass_cases players round with ⟨next, hpass, hgoes⟩ | ⟨attempt', final', hpass, hstops⟩
      · rw [hpass] at h
        exact ih (hgoes.moves hordered hmore).1 (hstep round next hordered hmore hinv hgoes) h
      · rw [hpass] at h
        cases h
        exact ⟨round, hordered, hinv, .stopped hmore hstops⟩
    · rw [if_neg hmore] at h
      cases h
      exact ⟨_, hordered, hinv, .exhausted (Nat.le_antisymm hordered.size (Nat.le_of_not_lt hmore))⟩

theorem start_weight (players : Players Checkout) (session : ResolutionSession) : weight players (players.start session) < players.fuel := by
  unfold weight Players.fuel
  show (players.total - 0) * (players.attemptCap + 1) + (players.attemptCap - 0) < _
  rw [Nat.sub_zero, Nat.sub_zero]
  exact Nat.lt_succ_self _

end RalphWorkflow.Resolution
