import RalphWorkflow.Proof.Resolution.Leaks

/-! A round is fair whatever its runner does exactly when it is `Even` at its start. -/
namespace RalphWorkflow.Resolution
open Pipeline.ConflictResolution

variable {Checkout : Type} {players : Players Checkout} {round next : Round Checkout} {session : ResolutionSession}
  {position : Nat} {checkout : Checkout}

/-! ## Rounds that invoke nobody -/

def Idle (players : Players Checkout) (round : Round Checkout) : Prop :=
  (∀ name ∈ players.candidates, name ∈ round.skipped) ∧ ∀ position, attemptsAt round.log position = 0

theorem Idle.goes (hidle : Idle players round) (hlt : round.offset < players.total) (hgoes : Goes players round next) : Idle players next := by
  have hbarred : agentAt players round.offset ∈ round.skipped := hidle.1 _ (agentAt_mem hlt)
  cases hgoes with
  | passed _ => exact hidle
  | faulted hfails _ => exact absurd hbarred hfails.free
  | retried hfails _ _ _ => exact absurd hbarred hfails.free
  | spent hfails _ _ => exact absurd hbarred hfails.free

theorem Idle.ends {last final : Round Checkout} {attempt : RoundAttempt} {first : Nat} (hidle : Idle players last)
    (hordered : Ordered players first last) (hends : Ends players last attempt final) :
    ∀ position, attemptsAt final.log position = 0 := by
  cases hends with
  | exhausted _ => exact hidle.2
  | stopped hmore hstops =>
    have hbarred : agentAt players last.offset ∈ last.skipped := hidle.1 _ (agentAt_mem (hordered.lt hmore))
    cases hstops with
    | succeeded hfree _ => exact absurd hbarred hfree
    | repaired hfree _ _ => exact absurd hbarred hfree

theorem Fair.dead (hfair : Fair players session) (hall : ∀ name ∈ players.candidates, name ∈ (players.start session).skipped) :
    ∀ name ∈ players.candidates, name ∈ session.deadToolSurfaces := by
  obtain ⟨attempt, final, hrun, hshares⟩ := hfair
  intro name hname
  have htotal : 0 < players.total := List.length_pos_of_mem hname
  obtain ⟨first, -, -, -, hordered⟩ := start_ordered players session htotal
  have hpasses : players.passes players.fuel (players.start session) = some (attempt, final) :=
    (if_neg (Nat.ne_of_gt htotal)).symm.trans hrun
  obtain ⟨last, hlast, hidle, hends⟩ := passes_invariant (Idle players)
    (fun _ _ hordered hmore hidle hgoes => hidle.goes (hordered.lt hmore) hgoes) hordered ⟨hall, fun _ => rfl⟩ hpasses
  exact hshares.barred (hidle.ends hlast hends) name hname

theorem bars_of_fair (hfair : Fair players session) (hall : ∀ name ∈ players.candidates, name ∈ session.barred) :
    players.candidates.Nodup ∧ session.deadToolSurfaces.length < players.total ∨
      ∀ name ∈ players.candidates, name ∈ session.deadToolSurfaces := by
  by_cases hlifted : players.onlyStopBars session = true
  · exact .inl ((onlyStopBars_iff hall).mp hlifted)
  · have hstart : players.start session =
        { session, skipped := skippedCandidates session players.candidates, offset := session.chainCursor % players.total } := by
      unfold Players.start
      rw [if_neg hlifted]
    refine .inr (hfair.dead fun name hname => ?_)
    rw [hstart]
    exact mem_skippedCandidates.mpr ⟨hname, hall name hname⟩

/-! ## Rounds that carry something over -/

/-- Every invocation fails environmentally, the second on a dead surface. -/
def faultingAt (checkout : Checkout) (position other i : Nat) : Invocation Checkout :=
  if other = position ∧ i = 1 then transportFault checkout else outage checkout

theorem faultingAt_faults (players : Players Checkout) (checkout : Checkout) (position : Nat) :
    FaultsLate { players with behaviour := faultingAt checkout position } checkout position := by
  refine ⟨if_neg fun h => absurd h.2 (by omega), if_pos ⟨rfl, rfl⟩, fun other i hother => ?_⟩
  exact if_neg fun h => hother h.1

theorem exists_first_live {first : Nat} (hfirst : first < players.total) (hlive : live players session ≠ []) :
    ∃ steps, steps < players.total ∧ agentAt players (place players first steps) ∉ (players.start session).skipped ∧
      ∀ i, i < steps → agentAt players (place players first i) ∈ (players.start session).skipped := by
  classical
  obtain ⟨name, hname⟩ := List.exists_mem_of_ne_nil _ hlive
  obtain ⟨hcandidate, hfree⟩ := mem_live.mp hname
  obtain ⟨steps, hsteps, hagent⟩ := exists_live_place hfirst hcandidate
  have hplace : ∃ steps, agentAt players (place players first steps) ∉ (players.start session).skipped :=
    ⟨steps, hagent ▸ hfree⟩
  refine ⟨Nat.find hplace, ?_, Nat.find_spec hplace, fun i hi => ?_⟩
  · exact Nat.lt_of_le_of_lt (Nat.find_min' hplace (hagent ▸ hfree)) hsteps
  · exact not_not.mp (Nat.find_min hplace hi)

theorem nothing_left_of_fair (hretriable : 2 ≤ players.maxRetries) (hlive : live players session ≠ [])
    (hfair : ∀ behaviour, Fair { players with behaviour } session) (checkout : Checkout) :
    session.skipSameAgentRetries = false ∧ session.currentAgentRetries = 0 := by
  by_contra hleftover
  have hcounter : session.skipSameAgentRetries = true ∨ 0 < session.currentAgentRetries := by
    by_cases hskip : session.skipSameAgentRetries = true
    · exact .inl hskip
    · exact .inr (Nat.pos_of_ne_zero fun h => hleftover ⟨Bool.not_eq_true _ ▸ hskip, h⟩)
  have hunfair : ¬ Fair { players with behaviour := fun _ _ => outage checkout } session :=
    unfair_of_leftover hretriable hlive hcounter fun _ _ => rfl
  exact hunfair (hfair _)

theorem one_name_of_fair (hretriable : 2 ≤ players.maxRetries) (hlive : live players session ≠ [])
    (hfair : ∀ behaviour, Fair { players with behaviour } session) (checkout : Checkout) :
    ∀ name ∈ live players session, ∀ other ∈ live players session, name = other := by
  intro name hname other hother
  by_contra hne
  obtain ⟨hskip, hretries⟩ := nothing_left_of_fair hretriable hlive hfair checkout
  have htotal : 0 < players.total := List.length_pos_of_mem (mem_live.mp hname).1
  obtain ⟨first, hfirst, -, -, hordered⟩ := start_ordered players session htotal
  obtain ⟨steps, hsteps, hfree, hbefore⟩ := exists_first_live hfirst hlive
  obtain ⟨second, hsecond, happart⟩ : ∃ second ∈ live players session, second ≠ agentAt players (place players first steps) := by
    by_cases heq : name = agentAt players (place players first steps)
    · exact ⟨other, hother, fun h => hne (heq.trans h.symm)⟩
    · exact ⟨name, hname, heq⟩
  let faulting : Players Checkout :=
    { players with behaviour := faultingAt checkout (place players first steps) }
  have hordered' : Ordered faulting first (faulting.start session) := ⟨hordered.size, hordered.visited, hordered.offset⟩
  have hunfair : ¬ Fair faulting session :=
    unfair_of_fault hretriable hretries hskip hordered' hfirst hsteps hfree hbefore
      (faultingAt_faults players checkout _) hsecond happart
  exact hunfair (hfair _)

theorem even_of_fair (players : Players Checkout) (session : ResolutionSession)
    (hfair : ∀ behaviour, Fair { players with behaviour } session) : Even players session := by
  have hbars := fun hall => bars_of_fair (hfair players.behaviour) hall
  refine ⟨?_, hbars⟩
  by_cases hretriable : 2 ≤ players.maxRetries
  · by_cases hlive : live players session = []
    · exact .inr (.inl hlive)
    · have checkout := (players.behaviour 0 0).checkout
      obtain ⟨hskip, hretries⟩ := nothing_left_of_fair hretriable hlive hfair checkout
      exact .inr (.inr ⟨hretries, hskip, one_name_of_fair hretriable hlive hfair checkout⟩)
  · exact .inl (by omega)

/-- Even sessions are the ones whose rounds are fair whatever the runner does. -/
theorem fair_iff_even (players : Players Checkout) (session : ResolutionSession) :
    (∀ behaviour, Fair { players with behaviour } session) ↔ Even players session :=
  ⟨even_of_fair players session, fun heven behaviour =>
    fair_of_even { players with behaviour } session ⟨heven.counters, heven.bars⟩⟩

/-! ## A fault that costs the next candidate an attempt -/

/-- Two candidates with two attempts each: the first loses its tool surface, the second always fails. -/
def twoCandidates : Players Unit where
  candidates := ["claude", "codex"]
  maxRetries := 2
  worktreeResolved := fun _ => false
  behaviour := faultingAt () 0

theorem second_is_short : (twoCandidates.runOneRound {}).map (fun (_, final) => (attemptsAt final.log 0, attemptsAt final.log 1)) = some (2, 1) ∧
      ownAttempts twoCandidates 1 = 2 := by
  decide +kernel

theorem fresh_round_unfair : ¬ ∀ behaviour, Fair { twoCandidates with behaviour } {} := by
  intro hfair
  obtain ⟨attempt, final, hrun, hshares⟩ := hfair twoCandidates.behaviour
  obtain ⟨hcount, hown⟩ := second_is_short
  have hround : twoCandidates.runOneRound {} = some (attempt, final) := hrun
  rw [hround] at hcount
  have hsecond : attemptsAt final.log 1 = 1 := (Prod.mk.inj (Option.some.inj hcount)).2
  have howned : attemptsAt final.log 1 = ownAttempts twoCandidates 1 := hshares.attempts 1 (by omega)
  omega

end RalphWorkflow.Resolution
