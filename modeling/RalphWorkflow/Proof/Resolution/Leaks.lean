import Mathlib.Data.Nat.Find
import Mathlib.Logic.Relation
import RalphWorkflow.Proof.Resolution.Fairness

/-! For every chain and session that are not `Even`, a behaviour of the runner that makes the round unfair. -/
namespace RalphWorkflow.Resolution
open Pipeline.ConflictResolution List Bool

variable {Checkout : Type} {players : Players Checkout} {round next later final : Round Checkout}
  {session : ResolutionSession} {attempt : RoundAttempt} {position first : Nat} {checkout : Checkout}

/-! ## Following a round -/

def Follows (players : Players Checkout) : Round Checkout → Round Checkout → Prop :=
  Relation.ReflTransGen fun round next => round.visited.length < players.total ∧ players.pass round = .continues next

theorem passes_follow {fuel : Nat} (hfollows : Follows players round later) (hpasses : players.passes fuel round = some (attempt, final)) :
    ∃ fuel, players.passes fuel later = some (attempt, final) := by
  induction hfollows with
  | refl => exact ⟨fuel, hpasses⟩
  | tail _ hstep ih =>
    obtain ⟨fuel, hpasses⟩ := ih
    cases fuel with
    | zero => cases hpasses
    | succ fuel =>
      rw [Players.passes, if_pos hstep.1, hstep.2] at hpasses
      exact ⟨fuel, hpasses⟩

theorem attempts_kept {fuel : Nat} (hordered : Ordered players first round) (hseen : position ∈ round.visited)
    (hpasses : players.passes fuel round = some (attempt, final)) :
    attemptsAt final.log position = attemptsAt round.log position := by
  have hkept : ∀ other next, Ordered players first other → other.visited.length < players.total →
      (position ∈ other.visited ∧ attemptsAt other.log position = attemptsAt round.log position) →
      Goes players other next →
      position ∈ next.visited ∧ attemptsAt next.log position = attemptsAt round.log position := by
    rintro other next hother hmore ⟨hmem, hcount⟩ hgoes
    have hne : ¬ other.offset = position := fun heq => hother.fresh hmore (heq ▸ hmem)
    refine ⟨?_, ?_⟩
    · rcases (hgoes.moves hother hmore).2 with ⟨hvisited, -⟩ | hvisited
      · rw [hvisited]
        exact hmem
      · rw [hvisited]
        exact mem_cons_of_mem _ hmem
    · have hadded : attemptsAt (.invoked other.offset (nextInvocation players other) :: other.log) position =
          attemptsAt round.log position := by
        rw [attemptsAt_invoked, if_neg hne]
        exact hcount
      cases hgoes with
      | passed hbarred => exact hcount
      | faulted hfails hreason => exact hadded
      | retried hfails hreason hagain hroom => exact hadded
      | spent hfails hreason hover => exact hadded
  obtain ⟨last, hlast, ⟨hseen', hsame⟩, hends⟩ := passes_invariant _ hkept hordered ⟨hseen, rfl⟩ hpasses
  cases hends with
  | exhausted hall => exact hsame
  | stopped hmore hstops =>
    have hne : ¬ last.offset = position := fun heq => hlast.fresh hmore (heq ▸ hseen')
    rw [hstops.adds.1, attemptsAt_invoked, if_neg hne]
    exact hsame

def outage (checkout : Checkout) : Invocation Checkout where
  returned := .failure
  environmental := true
  checkout := checkout

def transportFault (checkout : Checkout) : Invocation Checkout where
  returned := .failure
  reason := some .transportLoopDetected
  checkout := checkout

theorem goes_on (hidle : (nextInvocation players round).returned ≠ .success ∧ (nextInvocation players round).activity = false) :
    ∃ next, players.pass round = .continues next ∧ Goes players round next := by
  rcases pass_cases players round with hgoes | ⟨attempt, final, -, hstops⟩
  · exact hgoes
  · rcases hstops.adds.2.2 with hsuccess | hrepairs
    · exact absurd hsuccess hidle.1
    · have hactive := hrepairs.1
      rw [hidle.2] at hactive
      exact absurd hactive false_ne_true

/-! ## Passing over -/

structure Alike (round later : Round Checkout) : Prop where
  skipped : later.skipped = round.skipped
  attemptsHere : later.attemptsHere = round.attemptsHere
  retries : later.session.currentAgentRetries = round.session.currentAgentRetries
  skip : later.session.skipSameAgentRetries = round.session.skipSameAgentRetries
  barred : later.session.barred = round.session.barred
  attempts : ∀ position, attemptsAt later.log position = attemptsAt round.log position

theorem follow_passed (hordered : Ordered players first round) (hrecorded : Recorded players round) (count : Nat)
    (hcount : round.visited.length + count ≤ players.total)
    (hbarred : ∀ steps, round.visited.length ≤ steps → steps < round.visited.length + count →
      agentAt players (place players first steps) ∈ round.skipped) :
    ∃ later, Follows players round later ∧ Ordered players first later ∧ Recorded players later ∧
      later.visited.length = round.visited.length + count ∧ Alike round later := by
  induction count with
  | zero => exact ⟨round, .refl, hordered, hrecorded, rfl, rfl, rfl, rfl, rfl, rfl, fun _ => rfl⟩
  | succ count ih =>
    obtain ⟨middle, hfollows, hmiddle, hrecorded', hlength, halike⟩ := ih (by omega)
      fun steps hfrom hto => hbarred steps hfrom (by omega)
    have hmore : middle.visited.length < players.total := by omega
    have hskipped : agentAt players middle.offset ∈ middle.skipped := by
      rw [hmiddle.offset hmore, hlength, halike.skipped]
      exact hbarred _ (by omega) (by omega)
    rcases pass_cases players middle with ⟨next, hpass, hgoes⟩ | ⟨attempt, final, -, hstops⟩
    · have hnext := (hgoes.moves hmiddle hmore).1
      have hrecorded'' := hrecorded'.goes hmiddle hmore hgoes
      have hinsert : middle.visited.insert middle.offset = middle.offset :: middle.visited :=
        insert_of_not_mem (hmiddle.fresh hmore)
      cases hgoes with
      | passed hbarred' =>
        refine ⟨_, hfollows.tail ⟨hmore, hpass⟩, hnext, hrecorded'', ?_, halike.skipped, halike.attemptsHere,
          halike.retries, halike.skip, halike.barred, halike.attempts⟩
        show (middle.visited.insert middle.offset).length = _
        rw [hinsert, length_cons, hlength]
        rfl
      | faulted hfails hreason => exact absurd hskipped hfails.free
      | retried hfails hreason hagain hroom => exact absurd hskipped hfails.free
      | spent hfails hreason hover => exact absurd hskipped hfails.free
    · exact absurd hskipped hstops.adds.2.1

theorem follow_to_free (hordered : Ordered players first round) (hrecorded : Recorded players round)
    (hfree : ∃ steps, round.visited.length ≤ steps ∧ steps < players.total ∧
      agentAt players (place players first steps) ∉ round.skipped) :
    ∃ later, Follows players round later ∧ Ordered players first later ∧ Recorded players later ∧ Alike round later ∧
      round.visited.length ≤ later.visited.length ∧ later.visited.length < players.total ∧
      agentAt players later.offset ∉ later.skipped ∧
      ∀ steps, round.visited.length ≤ steps → steps < later.visited.length →
        agentAt players (place players first steps) ∈ round.skipped := by
  classical
  obtain ⟨hfrom, hlt, hnot⟩ := Nat.find_spec hfree
  have hbefore : ∀ steps, round.visited.length ≤ steps → steps < Nat.find hfree → agentAt players (place players first steps) ∈ round.skipped := by
    intro steps hsteps hearly
    by_contra habsent
    exact Nat.find_min hfree hearly ⟨hsteps, by omega, habsent⟩
  obtain ⟨later, hfollows, hlater, hrecorded', hlength, halike⟩ := follow_passed hordered hrecorded
    (Nat.find hfree - round.visited.length) (by omega) fun steps hsteps hto => hbefore steps hsteps (by omega)
  have hreached : later.visited.length = Nat.find hfree := by omega
  refine ⟨later, hfollows, hlater, hrecorded', halike, by omega, by omega, ?_, fun steps hsteps hto =>
    hbefore steps hsteps (by omega)⟩
  rw [hlater.offset (by omega), hreached, halike.skipped]
  exact hnot

/-! ## Turns cut short -/

theorem tried_cursor_of_skip (hlt : round.offset < players.total) (hskip : round.session.skipSameAgentRetries = true) :
    (tried players round).session.chainCursor = round.offset + 1 := by
  unfold tried
  simp only
  unfold classifyFailedResolutionAttempt ResolutionSession.afterRunner
  simp only [hskip, Bool.true_or, Bool.not_true, Bool.false_and, Bool.false_eq_true, if_false]
  rw [if_pos (by omega)]
  show nextConflictCandidate players.total round.offset = round.offset + 1
  unfold nextConflictCandidate
  rw [if_neg (by omega)]
  omega

/-- A candidate fails environmentally with its counter ahead of its attempts. -/
structure Ahead (players : Players Checkout) (checkout : Checkout) (first : Nat) (round : Round Checkout) : Prop where
  ordered : Ordered players first round
  recorded : Recorded players round
  more : round.visited.length < players.total
  free : agentAt players round.offset ∉ round.skipped
  behaviour : ∀ i, players.behaviour round.offset i = outage checkout
  skip : round.session.skipSameAgentRetries = true → attemptsAt round.log round.offset = 0
  retries : attemptsAt round.log round.offset = 0 ∨ round.session.currentAgentRetries < players.maxRetries
  ahead : round.session.skipSameAgentRetries = true ∨ attemptsAt round.log round.offset < round.attemptsHere ∨
    attemptsAt round.log round.offset < round.session.currentAgentRetries

theorem Ahead.goes (hretriable : 2 ≤ players.maxRetries) (hahead : Ahead players checkout first round) (hgoes : Goes players round next) :
    Ahead players checkout first next ∧ next.offset = round.offset ∧ next.attemptsHere = round.attemptsHere + 1 ∧
        attemptsAt next.log round.offset = attemptsAt round.log round.offset + 1 ∨
      round.offset ∈ next.visited ∧ 0 < attemptsAt next.log round.offset ∧
        attemptsAt next.log round.offset < players.maxRetries := by
  obtain ⟨hordered, hrecorded, hmore, hfree, hbehaviour, hskip, hretries, hcounters⟩ := hahead
  have hlt := hordered.lt hmore
  have hfresh := hordered.fresh hmore
  have hhere := (hrecorded.here hmore).2
  have hcap : players.attemptCap = players.maxRetries := Nat.max_eq_right (by omega)
  have hnext : nextInvocation players round = outage checkout := hbehaviour _
  have hadded : attemptsAt (.invoked round.offset (nextInvocation players round) :: round.log) round.offset =
      attemptsAt round.log round.offset + 1 := by
    rw [attemptsAt_invoked, if_pos rfl]
  have hordered' := (hgoes.moves hordered hmore).1
  have hrecorded' := hrecorded.goes hordered hmore hgoes
  cases hgoes with
  | passed hbarred => exact absurd hbarred hfree
  | faulted hfails hreason =>
    rw [hnext] at hreason
    cases hreason
  | retried hfails hreason hagain hroom =>
    have hnoskip : round.session.skipSameAgentRetries = false := by
      rw [← not_eq_true]
      intro h
      rw [tried_cursor_of_skip hlt h] at hagain
      omega
    rcases @tried_counters _ players _ hlt hnoskip with
      ⟨hskip', hretries', -, -, -, hbound⟩ | ⟨-, -, hcursor, -⟩
    · refine .inl ⟨⟨hordered', hrecorded', hmore, hfree, hbehaviour, ?_, .inr ?_, ?_⟩, rfl, rfl, hadded⟩
      · exact fun h => absurd (hskip'.symm.trans h) false_ne_true
      · exact lt_of_eq_of_lt hretries' hbound
      · rw [hnoskip] at hcounters
        refine .inr ((hcounters.resolve_left false_ne_true).imp (fun h => ?_) fun h => ?_)
        · exact lt_of_eq_of_lt hadded (Nat.succ_lt_succ h)
        · exact lt_of_lt_of_eq (lt_of_eq_of_lt hadded (Nat.succ_lt_succ h)) hretries'.symm
    · rw [hcursor] at hagain
      omega
  | spent hfails hreason hover =>
    have hmade : attemptsAt round.log round.offset + 1 < players.maxRetries := by
      by_cases hsame : round.session.skipSameAgentRetries = true
      · rw [hskip hsame]
        omega
      · rw [not_eq_true] at hsame
        rcases @tried_counters _ players _ hlt hsame with
          ⟨-, -, hcursor, -, -, hbound⟩ | ⟨-, -, -, -⟩
        · have hfull : ¬ round.attemptsHere + 1 < players.attemptCap := fun h => hover ⟨hcursor, h⟩
          rcases hcounters with h | h | h
          · exact absurd (hsame.symm.trans h) false_ne_true
          · omega
          · omega
        · rcases hcounters with h | h | h
          · exact absurd (hsame.symm.trans h) false_ne_true
          · omega
          · omega
    refine .inr ⟨?_, lt_of_lt_of_eq (Nat.succ_pos _) hadded.symm, lt_of_eq_of_lt hadded hmade⟩
    show round.offset ∈ round.visited.insert round.offset
    rw [insert_of_not_mem hfresh]
    exact mem_cons_self

theorem Ahead.short (hretriable : 2 ≤ players.maxRetries) (left : Nat) (hahead : Ahead players checkout first round)
    (hleft : players.attemptCap - round.attemptsHere ≤ left) :
    ∃ later, Follows players round later ∧ Ordered players first later ∧ round.offset ∈ later.visited ∧
      0 < attemptsAt later.log round.offset ∧ attemptsAt later.log round.offset < players.maxRetries := by
  induction left generalizing round with
  | zero =>
    have hhere := (hahead.recorded.here hahead.more).2
    omega
  | succ left ih =>
    have hnext : nextInvocation players round = outage checkout := hahead.behaviour _
    obtain ⟨next, hpass, hgoes⟩ := goes_on (by rw [hnext]; exact ⟨nofun, rfl⟩)
    have hordered := (hgoes.moves hahead.ordered hahead.more).1
    rcases hahead.goes hretriable hgoes with ⟨hagain, hoffset, hattempts, -⟩ | hover
    · have hhere := (hahead.recorded.here hahead.more).2
      obtain ⟨later, hfollows, hlater, hresult⟩ := ih hagain (by omega)
      rw [hoffset] at hresult
      exact ⟨later, hfollows.head ⟨hahead.more, hpass⟩, hlater, hresult⟩
    · exact ⟨next, .single ⟨hahead.more, hpass⟩, hordered, hover⟩

theorem Ahead.not_fair (hretriable : 2 ≤ players.maxRetries) (hahead : Ahead players checkout first round)
    (hfollows : Follows players (players.start session) round) : ¬ Fair players session := by
  rintro ⟨attempt, final, hrun, hshares⟩
  have htotal : ¬ players.total = 0 := Nat.ne_zero_of_lt hahead.more
  have hpasses : players.passes players.fuel (players.start session) = some (attempt, final) :=
    (if_neg htotal).symm.trans hrun
  obtain ⟨later, hlater, hordered, hseen, hpos, hshort⟩ := hahead.short hretriable _ (Nat.le_refl _)
  obtain ⟨fuel, hrest⟩ := passes_follow (hfollows.trans hlater) hpasses
  have hsame := attempts_kept hordered hseen hrest
  have hagain : ∀ i, asksAgain players (players.behaviour round.offset i) = true := by
    intro i
    rw [hahead.behaviour]
    rfl
  have hcap : players.attemptCap = players.maxRetries := Nat.max_eq_right (by omega)
  have hown : ownAttempts players round.offset = players.maxRetries - 1 + 1 :=
    ownAttempts_eq (by omega) (fun i _ => hagain i) (.inl (by omega))
  have hattempts := hshares.attempts round.offset (by omega)
  omega

/-! ## Unfair rounds -/

theorem exists_live_place {name : String} (hfirst : first < players.total) (hname : name ∈ players.candidates) :
    ∃ steps, steps < players.total ∧ agentAt players (place players first steps) = name := by
  obtain ⟨position, hposition, rfl⟩ := getElem_of_mem hname
  obtain ⟨steps, hsteps, hplace⟩ := exists_place hfirst hposition
  refine ⟨steps, hsteps, ?_⟩
  rw [hplace]
  unfold agentAt
  rw [getD_eq_getElem?_getD, List.getElem?_eq_getElem hposition, Option.getD_some]

theorem start_counters (players : Players Checkout) (session : ResolutionSession) :
    (players.start session).session.skipSameAgentRetries = session.skipSameAgentRetries ∧
      (players.start session).session.currentAgentRetries = session.currentAgentRetries := by
  unfold Players.start
  dsimp only
  split
  · exact ⟨rfl, rfl⟩
  · exact ⟨rfl, rfl⟩

theorem unfair_of_leftover (hretriable : 2 ≤ players.maxRetries) (hlive : live players session ≠ [])
    (hleftover : session.skipSameAgentRetries = true ∨ 0 < session.currentAgentRetries)
    (hbehaviour : ∀ position i, players.behaviour position i = outage checkout) : ¬ Fair players session := by
  obtain ⟨name, hname⟩ := exists_mem_of_ne_nil _ hlive
  obtain ⟨hcandidate, hfree⟩ := mem_live.mp hname
  have htotal : 0 < players.total := length_pos_of_mem hcandidate
  obtain ⟨first, hfirst, hvisited, -, hordered⟩ := start_ordered players session htotal
  obtain ⟨steps, hsteps, hagent⟩ := exists_live_place hfirst hcandidate
  obtain ⟨round, hfollows, hround, hrecorded, halike, -, hmore, hround_free, -⟩ := follow_to_free hordered
    (start_recorded players session) ⟨steps, hvisited ▸ Nat.zero_le _, hsteps, hagent ▸ hfree⟩
  have hnone : attemptsAt round.log round.offset = 0 := halike.attempts _
  obtain ⟨hskip, hretries⟩ := start_counters players session
  have hahead : Ahead players checkout first round := by
    refine ⟨hround, hrecorded, hmore, hround_free, fun i => hbehaviour _ i, fun _ => hnone, .inl hnone, ?_⟩
    rw [halike.skip, halike.retries, hskip, hretries, hnone]
    exact hleftover.imp_right .inr
  exact hahead.not_fair hretriable hfollows

theorem tried_barred_eq (hbars : (nextInvocation players round).barsSurface = false) :
    (tried players round).session.barred = round.session.barred := by
  unfold tried
  rw [classify_barred]
  unfold ResolutionSession.barred ResolutionSession.afterRunner
  simp only [hbars, Bool.false_and, Bool.false_eq_true, if_false]

/-- The first candidate fails once, and then its tool surface faults. -/
structure FaultsLate (players : Players Checkout) (checkout : Checkout) (position : Nat) : Prop where
  fails : players.behaviour position 0 = outage checkout
  faults : players.behaviour position 1 = transportFault checkout
  others : ∀ other i, other ≠ position → players.behaviour other i = outage checkout

theorem FaultsLate.leaves (hretriable : 2 ≤ players.maxRetries) (hordered : Ordered players first round)
    (hrecorded : Recorded players round) (hmore : round.visited.length < players.total)
    (hfree : agentAt players round.offset ∉ round.skipped) (hfaults : FaultsLate players checkout round.offset)
    (hnone : attemptsAt round.log round.offset = 0) (hattempts : round.attemptsHere = 0)
    (hretries : round.session.currentAgentRetries = 0) (hskip : round.session.skipSameAgentRetries = false) :
    ∃ later, Follows players round later ∧ Ordered players first later ∧ Recorded players later ∧
      later.visited = round.offset :: round.visited ∧ later.attemptsHere = 1 ∧
      (∀ event ∈ later.log, event.position ∈ later.visited) ∧
      ∀ name ∈ later.skipped, name ∈ round.session.barred ∨ name = agentAt players round.offset := by
  have hcap : players.attemptCap = players.maxRetries := Nat.max_eq_right (by omega)
  have hlt := hordered.lt hmore
  have hnext : nextInvocation players round = outage checkout := by
    unfold nextInvocation
    rw [hnone]
    exact hfaults.fails
  obtain ⟨second, hpass, hgoes⟩ := goes_on (by rw [hnext]; exact ⟨nofun, rfl⟩)
  have hordered₂ := (hgoes.moves hordered hmore).1
  have hrecorded₂ := hrecorded.goes hordered hmore hgoes
  cases hgoes with
  | passed hbarred => exact absurd hbarred hfree
  | faulted hfails hreason =>
    rw [hnext] at hreason
    cases hreason
  | spent hfails hreason hover =>
    rcases @tried_counters _ players _ hlt hskip with ⟨-, -, hcursor, -⟩ | ⟨-, -, -, hlast⟩
    · exact absurd ⟨hcursor, by omega⟩ hover
    · rw [hnext] at hlast
      rcases hlast with h | h | h
      · cases h
      · cases h
      · omega
  | retried hfails hreason hagain hroom =>
    have hnext₂ : nextInvocation players { tried players round with attemptsHere := round.attemptsHere + 1 } = transportFault checkout := by
      have hone : attemptsAt (.invoked round.offset (nextInvocation players round) :: round.log) round.offset = 1 := by
        rw [attemptsAt_invoked, if_pos rfl, hnone]
      have hbehaviour := hfaults.faults
      rw [← hone] at hbehaviour
      exact hbehaviour
    obtain ⟨third, hpass₂, hgoes₂⟩ := goes_on (by rw [hnext₂]; exact ⟨nofun, rfl⟩)
    have hordered₃ := (hgoes₂.moves hordered₂ hmore).1
    have hrecorded₃ := hrecorded₂.goes hordered₂ hmore hgoes₂
    have hfresh := hordered₂.fresh hmore
    have hinsert : round.visited.insert round.offset = round.offset :: round.visited := insert_of_not_mem hfresh
    cases hgoes₂ with
    | passed hbarred => exact absurd hbarred hfree
    | faulted hfails₂ hreason₂ =>
      have hone : Follows players round { tried players round with attemptsHere := round.attemptsHere + 1 } :=
        .single ⟨hmore, hpass⟩
      refine ⟨_, hone.tail ⟨hmore, hpass₂⟩, hordered₃, hrecorded₃, hinsert, ?_, ?_, ?_⟩
      · show round.attemptsHere + 1 = 1
        rw [hattempts]
      · obtain ⟨-, hseen, -⟩ := hrecorded₂.turns_visit hfresh
          (show (RoundEvent.invoked round.offset (nextInvocation players
            { tried players round with attemptsHere := round.attemptsHere + 1 })).position = round.offset from rfl)
        intro event hevent
        have hposition : event.position ∈ round.offset :: round.visited := hseen event hevent
        rw [← hinsert] at hposition
        exact hposition
      · intro name hname
        rcases remember_barred.mp (mem_skippedCandidates.mp hname).2 with hbarred | hagent
        · rw [tried_barred_eq (by rw [hnext₂]; rfl)] at hbarred
          have hfirst : name ∈ (tried players round).session.barred := hbarred
          rw [tried_barred_eq (by rw [hnext]; rfl)] at hfirst
          exact .inl hfirst
        · exact .inr hagent
    | retried hfails₂ hreason₂ hagain₂ hroom₂ =>
      rw [hnext₂] at hreason₂
      cases hreason₂
    | spent hfails₂ hreason₂ hover₂ =>
      rw [hnext₂] at hreason₂
      cases hreason₂

theorem unfair_of_fault (hretriable : 2 ≤ players.maxRetries) (hretries : session.currentAgentRetries = 0)
    (hskip : session.skipSameAgentRetries = false) (hordered : Ordered players first (players.start session))
    (hfirst : first < players.total) {steps : Nat} (hsteps : steps < players.total)
    (hfree : agentAt players (place players first steps) ∉ (players.start session).skipped)
    (hbefore : ∀ i, i < steps → agentAt players (place players first i) ∈ (players.start session).skipped)
    (hfaults : FaultsLate players checkout (place players first steps)) {other : String}
    (hother : other ∈ live players session) (hne : other ≠ agentAt players (place players first steps)) :
    ¬ Fair players session := by
  have hstart : (players.start session).visited.length = 0 := rfl
  obtain ⟨round, hfollows, hround, hrecorded, hlength, halike⟩ := by
    have hpassed := follow_passed hordered (start_recorded players session) steps
      (by show 0 + steps ≤ players.total; omega) fun i _ hi => hbefore i (by rwa [hstart, Nat.zero_add] at hi)
    exact hpassed
  have hvisited : round.visited.length = steps := by
    rw [hlength]
    exact Nat.zero_add steps
  have hmore : round.visited.length < players.total := by omega
  have hoffset : round.offset = place players first steps := by rw [hround.offset hmore, hvisited]
  obtain ⟨hskip', hretries'⟩ := start_counters players session
  rw [← hoffset] at hfree hfaults hne
  rw [← halike.skipped] at hfree
  obtain ⟨left, hfollows₂, hleft, hrecorded₂, hvisited₂, hattempts, hseen, hskipped⟩ := hfaults.leaves hretriable hround
    hrecorded hmore hfree (halike.attempts _) halike.attemptsHere (halike.retries.trans (hretries'.trans hretries))
    (halike.skip.trans (hskip'.trans hskip))
  obtain ⟨hcandidate, hunbarred⟩ := mem_live.mp hother
  have hother_free : other ∉ left.skipped := by
    intro hmem
    rcases hskipped other hmem with hbarred | hagent
    · rw [halike.barred] at hbarred
      exact hunbarred (mem_skippedCandidates.mpr ⟨hcandidate, hbarred⟩)
    · exact hne hagent
  obtain ⟨later, hlater, hplace⟩ := exists_live_place hfirst hcandidate
  have hlength₂ : left.visited.length = steps + 1 := by rw [hvisited₂, length_cons, hvisited]
  have hafter : steps + 1 ≤ later := by
    by_contra hearly
    rcases Nat.lt_or_ge later steps with hlt | hge
    · exact hunbarred (hplace ▸ hbefore later hlt)
    · have heq : later = steps := by omega
      rw [heq, ← hoffset] at hplace
      exact hne hplace.symm
  obtain ⟨last, hfollows₃, hlast, hrecorded₃, halike₃, hfrom, hmore₃, hfree₃, -⟩ := follow_to_free hleft hrecorded₂
    ⟨later, hlength₂ ▸ hafter, hlater, by rw [hplace]; exact hother_free⟩
  have hfar : last.offset ∉ left.visited := by
    rw [hleft.visited, hlast.offset hmore₃]
    rintro ⟨i, hi, heq⟩
    have hsame := place_injective (by omega) hmore₃ heq
    omega
  have hnone : attemptsAt last.log last.offset = 0 := by
    rw [halike₃.attempts]
    exact attemptsAt_unvisited hseen hfar
  have hapart : last.offset ≠ round.offset := by
    intro heq
    rw [hvisited₂] at hfar
    exact hfar (heq ▸ mem_cons_self)
  have hahead : Ahead players checkout first last := by
    refine ⟨hlast, hrecorded₃, hmore₃, hfree₃, fun i => hfaults.others _ i hapart, fun _ => hnone, .inl hnone, ?_⟩
    rw [hnone, halike₃.attemptsHere, hattempts]
    exact .inr (.inl Nat.one_pos)
  exact hahead.not_fair hretriable ((hfollows.trans hfollows₂).trans hfollows₃)

end RalphWorkflow.Resolution
