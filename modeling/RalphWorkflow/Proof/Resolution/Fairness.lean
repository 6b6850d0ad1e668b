import RalphWorkflow.Proof.Resolution.Turns

/-! When the attempts of a turn are the candidate's own doing, and when a round that invokes nobody had nobody to invoke. -/
namespace RalphWorkflow.Resolution
open Pipeline.ConflictResolution List

variable {Checkout : Type} {players : Players Checkout} {round next final : Round Checkout} {session : ResolutionSession}
  {attempt : RoundAttempt} {position first : Nat}

/-! ## The attempts that are a candidate's own -/

/-- A failure after which the same candidate is due again. -/
def asksAgain (players : Players Checkout) (invocation : Invocation Checkout) : Bool :=
  invocation.returned != .success && !(invocation.activity && players.worktreeResolved invocation.checkout) &&
    !(failureReason invocation).infrastructure && invocation.environmental && !invocation.skipsRetries

def ownAttemptsFrom (players : Players Checkout) (position : Nat) : Nat → Nat → Nat
  | 0, made => made + 1
  | left + 1, made =>
    if asksAgain players (players.behaviour position made) then ownAttemptsFrom players position left (made + 1)
    else made + 1

def ownAttempts (players : Players Checkout) (position : Nat) : Nat :=
  ownAttemptsFrom players position (players.maxRetries - 1) 0

theorem ownAttemptsFrom_eq {left made count : Nat} (hmade : made ≤ count) (hcount : count ≤ made + left)
    (hagain : ∀ i, made ≤ i → i < count → asksAgain players (players.behaviour position i) = true)
    (hend : count = made + left ∨ asksAgain players (players.behaviour position count) = false) :
    ownAttemptsFrom players position left made = count + 1 := by
  induction left generalizing made with
  | zero =>
    have heq : made = count := by omega
    rw [ownAttemptsFrom, heq]
  | succ left ih =>
    rw [ownAttemptsFrom]
    by_cases heq : made = count
    · subst heq
      rcases hend with hend | hend
      · omega
      · rw [hend]
        rfl
    · rw [if_pos (hagain made (Nat.le_refl _) (by omega))]
      refine ih (by omega) (by omega) (fun i hi => hagain i (by omega)) ?_
      rcases hend with hend | hend
      · exact .inl (by omega)
      · exact .inr hend

theorem ownAttempts_eq {count : Nat} (hcount : count < players.attemptCap)
    (hagain : ∀ i, i < count → asksAgain players (players.behaviour position i) = true)
    (hend : players.maxRetries ≤ count + 1 ∨ asksAgain players (players.behaviour position count) = false) :
    ownAttempts players position = count + 1 := by
  unfold Players.attemptCap at hcount
  refine ownAttemptsFrom_eq (Nat.zero_le _) (by omega) (fun i _ => hagain i) ?_
  rcases hend with hend | hend
  · exact .inl (by omega)
  · exact .inr hend

theorem ownAttempts_of_le_one (h : players.maxRetries ≤ 1) : ownAttempts players position = 1 := by
  unfold ownAttempts
  rw [Nat.sub_eq_zero_of_le h, ownAttemptsFrom]

/-! ## What a round owes its candidates -/

structure Shares (players : Players Checkout) (session : ResolutionSession) (final : Round Checkout) : Prop where
  turns : ∀ position, OneTurn final.log position ∧ attemptsAt final.log position ≤ max 1 players.maxRetries
  /-- Unless it ends early. -/
  offered : (∀ position invocation, .invoked position invocation ∈ final.log → invocation.returned ≠ .success ∧ ¬ Repairs players invocation) →
    ∀ position, position < players.total → attemptsAt final.log position ≠ 0 ∨
      ∃ session, .passed position session ∈ final.log ∧ agentAt players position ∈ session.barred
  attempts : ∀ position, attemptsAt final.log position ≠ 0 → attemptsAt final.log position = ownAttempts players position
  barred : (∀ position, attemptsAt final.log position = 0) → ∀ name ∈ players.candidates, name ∈ session.deadToolSurfaces

def Fair (players : Players Checkout) (session : ResolutionSession) : Prop :=
  ∃ attempt final, players.runOneRound session = some (attempt, final) ∧ Shares players session final

def live (players : Players Checkout) (session : ResolutionSession) : List String :=
  players.candidates.filter fun name => !(players.start session).skipped.contains name

/-- Nothing is carried over between candidates, and no bar hides behind a repeated name. -/
structure Even (players : Players Checkout) (session : ResolutionSession) : Prop where
  counters : players.maxRetries ≤ 1 ∨ live players session = [] ∨
    session.currentAgentRetries = 0 ∧ session.skipSameAgentRetries = false ∧
      ∀ name ∈ live players session, ∀ other ∈ live players session, name = other
  bars : (∀ name ∈ players.candidates, name ∈ session.barred) →
    players.candidates.Nodup ∧ session.deadToolSurfaces.length < players.total ∨
      ∀ name ∈ players.candidates, name ∈ session.deadToolSurfaces

theorem mem_live {name : String} : name ∈ live players session ↔ name ∈ players.candidates ∧ name ∉ (players.start session).skipped := by
  unfold live
  rw [mem_filter, Bool.not_eq_true', ← Bool.not_eq_true, contains_iff_mem]

theorem agentAt_mem (h : position < players.total) : agentAt players position ∈ players.candidates := by
  unfold agentAt
  have hget : players.candidates.getD position "" = players.candidates[position] := by
    rw [getD_eq_getElem?_getD, List.getElem?_eq_getElem h, Option.getD_some]
  rw [hget]
  exact getElem_mem h

/-! ## Counters in step -/

/-- The retry counter, the attempts counter and the record agree, or there is nobody left to count for. -/
def Level (players : Players Checkout) (round : Round Checkout) : Prop :=
  (∀ name ∈ players.candidates, name ∈ round.skipped) ∧ (round.visited.length < players.total → attemptsAt round.log round.offset = 0) ∨
    round.session.skipSameAgentRetries = false ∧ round.session.currentAgentRetries = round.attemptsHere ∧
      (0 < round.attemptsHere → agentAt players round.offset ∉ round.skipped) ∧
      (round.visited.length < players.total → attemptsAt round.log round.offset = round.attemptsHere) ∧
      ∀ i, i < round.attemptsHere → asksAgain players (players.behaviour round.offset i) = true

structure InStep (players : Players Checkout) (session : ResolutionSession) (round : Round Checkout) : Prop where
  recorded : Recorded players round
  barred : ∀ name ∈ (players.start session).skipped, name ∈ round.skipped
  level : Level players round
  done : ∀ position ∈ round.visited,
    attemptsAt round.log position = 0 ∨ attemptsAt round.log position = ownAttempts players position

theorem tried_counters (hlt : round.offset < players.total) (hskip : round.session.skipSameAgentRetries = false) :
    ((tried players round).session.skipSameAgentRetries = false ∧
      (tried players round).session.currentAgentRetries = round.session.currentAgentRetries + 1 ∧
      (tried players round).session.chainCursor = round.offset ∧
      (nextInvocation players round).environmental = true ∧ (nextInvocation players round).skipsRetries = false ∧
      round.session.currentAgentRetries + 1 < players.maxRetries) ∨
    (tried players round).session.skipSameAgentRetries = false ∧
      (tried players round).session.currentAgentRetries = 0 ∧
      (tried players round).session.chainCursor = round.offset + 1 ∧
      ((nextInvocation players round).environmental = false ∨ (nextInvocation players round).skipsRetries = true ∨
        players.maxRetries ≤ round.session.currentAgentRetries + 1) := by
  have hafter : (round.session.afterRunner (agentAt players round.offset)
      (nextInvocation players round)).skipSameAgentRetries = (nextInvocation players round).skipsRetries := by
    unfold ResolutionSession.afterRunner
    simp only [hskip, Bool.false_or]
  unfold tried
  simp only
  unfold classifyFailedResolutionAttempt
  simp only [hafter]
  cases hskips : (nextInvocation players round).skipsRetries with
  | true =>
    rw [if_neg (by simp), if_pos (by omega)]
    refine .inr ⟨rfl, rfl, ?_, .inr (.inl rfl)⟩
    show nextConflictCandidate players.total round.offset = round.offset + 1
    unfold nextConflictCandidate
    rw [if_neg (by omega)]
    omega
  | false =>
    by_cases hagain : (nextInvocation players round).environmental = true ∧ round.session.currentAgentRetries + 1 < players.maxRetries
    · have hcond : (!false && (nextInvocation players round).environmental &&
          decide ((round.session.afterRunner (agentAt players round.offset)
            (nextInvocation players round)).currentAgentRetries + 1 < players.maxRetries)) = true := by
        rw [hagain.1]
        exact decide_eq_true hagain.2
      rw [if_pos hcond]
      exact .inl ⟨rfl, rfl, rfl, hagain.1, rfl, hagain.2⟩
    · have hcond : ¬ (!false && (nextInvocation players round).environmental &&
          decide ((round.session.afterRunner (agentAt players round.offset)
            (nextInvocation players round)).currentAgentRetries + 1 < players.maxRetries)) = true := by
        intro h
        obtain ⟨henvironmental, hroom⟩ := Bool.and_eq_true_iff.mp h
        exact hagain ⟨henvironmental, of_decide_eq_true hroom⟩
      rw [if_neg hcond, if_pos (by omega)]
      refine .inr ⟨rfl, rfl, ?_, ?_⟩
      · show nextConflictCandidate players.total round.offset = round.offset + 1
        unfold nextConflictCandidate
        rw [if_neg (by omega)]
        omega
      · by_cases henvironmental : (nextInvocation players round).environmental = true
        · exact .inr (.inr (Nat.le_of_not_lt fun h => hagain ⟨henvironmental, h⟩))
        · exact .inl (Bool.not_eq_true _ ▸ henvironmental)

theorem asksAgain_iff (players : Players Checkout) (invocation : Invocation Checkout) : asksAgain players invocation = true ↔
      invocation.returned ≠ .success ∧ ¬ Repairs players invocation ∧ (failureReason invocation).infrastructure = false ∧
        invocation.environmental = true ∧ invocation.skipsRetries = false := by
  unfold asksAgain Repairs
  simp only [Bool.and_eq_true, bne_iff_ne, Bool.not_eq_true', Bool.and_eq_false_iff, not_and_or, Bool.not_eq_true, and_assoc]

theorem asksAgain_false (h : (nextInvocation players round).environmental = false ∨
    (nextInvocation players round).skipsRetries = true) : asksAgain players (nextInvocation players round) = false := by
  rw [Bool.eq_false_iff]
  intro hagain
  obtain ⟨-, -, -, henvironmental, hskips⟩ := (asksAgain_iff _ _).mp hagain
  rcases h with h | h
  · rw [h] at henvironmental
    cases henvironmental
  · rw [h] at hskips
    cases hskips

theorem Level.invoked (hlevel : Level players round) (hmore : round.visited.length < players.total)
    (hlt : round.offset < players.total) (hfree : agentAt players round.offset ∉ round.skipped) :
    round.session.skipSameAgentRetries = false ∧ round.session.currentAgentRetries = round.attemptsHere ∧
      attemptsAt round.log round.offset = round.attemptsHere ∧
      ∀ i, i < round.attemptsHere → asksAgain players (players.behaviour round.offset i) = true := by
  rcases hlevel with ⟨hall, -⟩ | ⟨hskip, hretries, -, hcount, hagain⟩
  · exact absurd (hall _ (agentAt_mem hlt)) hfree
  · exact ⟨hskip, hretries, hcount hmore, hagain⟩

theorem Level.ends_turn (hlevel : Level players round) (hrecorded : Recorded players round)
    (hmore : round.visited.length < players.total) (hlt : round.offset < players.total)
    (hfree : agentAt players round.offset ∉ round.skipped)
    (hend : players.maxRetries ≤ round.attemptsHere + 1 ∨ asksAgain players (nextInvocation players round) = false) :
    attemptsAt (.invoked round.offset (nextInvocation players round) :: round.log) round.offset =
      ownAttempts players round.offset := by
  obtain ⟨-, -, hcount, hagain⟩ := hlevel.invoked hmore hlt hfree
  have hnext : nextInvocation players round = players.behaviour round.offset round.attemptsHere := by
    unfold nextInvocation
    rw [hcount]
  rw [hnext] at hend
  rw [attemptsAt_invoked, if_pos rfl, hcount, ownAttempts_eq (hrecorded.here hmore).2 hagain hend]

theorem done_visit {log : List (RoundEvent Checkout)} {visited : List Nat} {offset : Nat} {invocation : Invocation Checkout}
    (hdone : ∀ position ∈ visited, attemptsAt log position = 0 ∨ attemptsAt log position = ownAttempts players position)
    (hfresh : offset ∉ visited)
    (hoffset : attemptsAt (.invoked offset invocation :: log) offset = ownAttempts players offset) :
    ∀ position ∈ offset :: visited, attemptsAt (.invoked offset invocation :: log) position = 0 ∨
      attemptsAt (.invoked offset invocation :: log) position = ownAttempts players position := by
  refine forall_mem_cons.mpr ⟨.inr hoffset, fun position hposition => ?_⟩
  have hne : ¬ offset = position := fun heq => hfresh (heq ▸ hposition)
  rw [attemptsAt_invoked, if_neg hne]
  exact hdone position hposition

theorem InStep.all_barred (heven : ∀ name ∈ live players session, ∀ other ∈ live players session, name = other)
    (hstep : InStep players session round) (hlt : round.offset < players.total)
    (hfree : agentAt players round.offset ∉ round.skipped) :
    ∀ name ∈ players.candidates, name ∈ skippedCandidates
      (rememberDeadSurface (tried players round).session (agentAt players round.offset)) players.candidates := by
  intro name hname
  refine mem_skippedCandidates.mpr ⟨hname, remember_barred.mpr ?_⟩
  by_cases hstart : name ∈ (players.start session).skipped
  · exact .inl (tried_barred (hstep.recorded.bars name (hstep.barred name hstart)))
  · have hagent : agentAt players round.offset ∉ (players.start session).skipped := fun h => hfree (hstep.barred _ h)
    exact .inr (heven _ (mem_live.mpr ⟨hname, hstart⟩) _ (mem_live.mpr ⟨agentAt_mem hlt, hagent⟩))

theorem InStep.goes (heven : ∀ name ∈ live players session, ∀ other ∈ live players session, name = other)
    (hordered : Ordered players first round) (hmore : round.visited.length < players.total)
    (hstep : InStep players session round) (hgoes : Goes players round next) : InStep players session next := by
  have hrecorded := hstep.recorded.goes hordered hmore hgoes
  have hnext := (hgoes.moves hordered hmore).1
  have hfresh := hordered.fresh hmore
  have hlt := hordered.lt hmore
  have hinsert : round.visited.insert round.offset = round.offset :: round.visited := insert_of_not_mem hfresh
  cases hgoes with
  | passed hbarred =>
    have hnew := hstep.recorded.comes_up hfresh hnext hinsert rfl rfl
    have hidle : round.attemptsHere = 0 ∨ (∀ name ∈ players.candidates, name ∈ round.skipped) := by
      rcases hstep.level with ⟨hall, -⟩ | ⟨-, -, hfree, -, -⟩
      · exact .inr hall
      · exact .inl (Nat.eq_zero_of_not_pos fun hpos => hfree hpos hbarred)
    have hnone : attemptsAt round.log round.offset = 0 := by
      rcases hstep.level with ⟨-, hzero⟩ | ⟨-, -, hfree, hcount, -⟩
      · exact hzero hmore
      · rw [hcount hmore]
        exact Nat.eq_zero_of_not_pos fun hpos => hfree hpos hbarred
    refine ⟨hrecorded, hstep.barred, ?_, ?_⟩
    · rcases hidle with hzero | hall
      · rcases hstep.level with ⟨hall, -⟩ | ⟨hskip, hretries, -, -, -⟩
        · exact .inl ⟨hall, hnew⟩
        · refine .inr ⟨hskip, hretries, fun hpos => absurd hzero (Nat.ne_of_gt hpos), fun hroom => ?_, fun i hi => ?_⟩
          · exact (hnew hroom).trans hzero.symm
          · have hbound : i < round.attemptsHere := hi
            omega
      · exact .inl ⟨hall, hnew⟩
    · intro position hposition
      have hmem : position ∈ round.offset :: round.visited := hinsert ▸ hposition
      rcases mem_cons.mp hmem with rfl | hmem
      · exact .inl hnone
      · exact hstep.done position hmem
  | faulted hfails hreason =>
    refine ⟨hrecorded, ?_, .inl ⟨hstep.all_barred heven hlt hfails.free, ?_⟩, ?_⟩
    · intro name hname
      exact hstep.all_barred heven hlt hfails.free name (mem_skippedCandidates.mp hname).1
    · exact hstep.recorded.comes_up hfresh hnext hinsert rfl rfl
    · have hlast : asksAgain players (nextInvocation players round) = false := by
        rw [Bool.eq_false_iff]
        intro hagain
        rw [((asksAgain_iff _ _).mp hagain).2.2.1] at hreason
        cases hreason
      have hown := hstep.level.ends_turn hstep.recorded hmore hlt hfails.free (.inr hlast)
      have hdone := done_visit hstep.done hfresh hown
      rw [← hinsert] at hdone
      exact hdone
  | retried hfails hreason hagain hroom =>
    obtain ⟨hskip, hretries, hcount, hearlier⟩ := hstep.level.invoked hmore hlt hfails.free
    refine ⟨hrecorded, hstep.barred, .inr ?_, ?_⟩
    · rcases @tried_counters _ players _ hlt hskip with
        ⟨hskip', hretries', -, henvironmental, hskips, -⟩ | ⟨-, -, hcursor, -⟩
      · refine ⟨hskip', ?_, fun _ => hfails.free, fun _ => ?_, fun i hi => ?_⟩
        · rw [hretries] at hretries'
          exact hretries'
        · show attemptsAt (.invoked round.offset (nextInvocation players round) :: round.log) round.offset =
            round.attemptsHere + 1
          rw [attemptsAt_invoked, if_pos rfl, hcount]
        · have hbound : i < round.attemptsHere + 1 := hi
          by_cases hlast : i = round.attemptsHere
          · have hown : nextInvocation players round = players.behaviour round.offset i := by
              unfold nextInvocation
              rw [hcount, hlast]
            show asksAgain players (players.behaviour round.offset i) = true
            rw [← hown]
            exact (asksAgain_iff _ _).mpr ⟨hfails.failed, hfails.unrepaired, hreason, henvironmental, hskips⟩
          · exact hearlier i (by omega)
      · rw [hcursor] at hagain
        omega
    · intro position hposition
      have hne : ¬ round.offset = position := fun heq => hfresh (heq ▸ hposition)
      show attemptsAt (.invoked round.offset _ :: round.log) position = 0 ∨
        attemptsAt (.invoked round.offset _ :: round.log) position = _
      rw [attemptsAt_invoked, if_neg hne]
      exact hstep.done position hposition
  | spent hfails hreason hover =>
    obtain ⟨hskip, hretries, hcount, hearlier⟩ := hstep.level.invoked hmore hlt hfails.free
    have hhere := (hstep.recorded.here hmore).2
    rcases @tried_counters _ players _ hlt hskip with ⟨-, -, hcursor, -, -, hroom⟩ | ⟨hskip', hretries', -, hlast⟩
    · refine absurd ⟨hcursor, ?_⟩ hover
      rw [hretries] at hroom
      exact Nat.lt_of_lt_of_le hroom (Nat.le_max_right _ _)
    · refine ⟨hrecorded, hstep.barred, .inr ⟨hskip', hretries', fun h => absurd h (Nat.lt_irrefl 0), ?_, ?_⟩, ?_⟩
      · exact hstep.recorded.comes_up hfresh hnext hinsert rfl rfl
      · exact fun i hi => absurd hi (Nat.not_lt_zero i)
      · have hend : players.maxRetries ≤ round.attemptsHere + 1 ∨
            asksAgain players (nextInvocation players round) = false := by
          rcases hlast with henvironmental | hskips | hfull
          · exact .inr (asksAgain_false (.inl henvironmental))
          · exact .inr (asksAgain_false (.inr hskips))
          · exact .inl (hretries ▸ hfull)
        have hown := hstep.level.ends_turn hstep.recorded hmore hlt hfails.free hend
        have hdone := done_visit hstep.done hfresh hown
        rw [← hinsert] at hdone
        exact hdone

theorem start_inStep (hcounters : live players session = [] ∨
    session.currentAgentRetries = 0 ∧ session.skipSameAgentRetries = false) : InStep players session (players.start session) := by
  refine ⟨start_recorded players session, fun _ h => h, ?_, fun _ h => absurd h not_mem_nil⟩
  rcases hcounters with hnobody | ⟨hretries, hskip⟩
  · refine .inl ⟨fun name hname => ?_, fun _ => rfl⟩
    by_contra hfree
    have hlive := mem_live.mpr ⟨hname, hfree⟩
    rw [hnobody] at hlive
    exact not_mem_nil hlive
  · have hsession : (players.start session).session.skipSameAgentRetries = session.skipSameAgentRetries ∧
        (players.start session).session.currentAgentRetries = session.currentAgentRetries := by
      unfold Players.start
      dsimp only
      split
      · exact ⟨rfl, rfl⟩
      · exact ⟨rfl, rfl⟩
    exact .inr ⟨hsession.1.trans hskip, hsession.2.trans hretries, fun h => absurd h (Nat.lt_irrefl 0), fun _ => rfl,
      fun i hi => absurd hi (Nat.not_lt_zero i)⟩

theorem InStep.ends {last : Round Checkout} (hordered : Ordered players first last) (hstep : InStep players session last)
    (hends : Ends players last attempt final) (hattempts : attemptsAt final.log position ≠ 0) :
    attemptsAt final.log position = ownAttempts players position := by
  cases hends with
  | exhausted hall =>
    obtain ⟨invocation, hmem⟩ := exists_invoked hattempts
    obtain ⟨turn, earlier, hlog, -, hearlier, hwhere⟩ := hstep.recorded.turn
    have hnil : turn = [] := hwhere.resolve_right (by omega)
    subst hnil
    rw [nil_append] at hlog
    rw [hlog] at hmem
    have hseen := hearlier _ hmem
    exact (hstep.done position hseen).resolve_left hattempts
  | stopped hmore hstops =>
    obtain ⟨hlog, hfree, hended⟩ := hstops.adds
    have hfresh := hordered.fresh hmore
    rw [hlog] at hattempts ⊢
    by_cases hoffset : last.offset = position
    · subst hoffset
      refine hstep.level.ends_turn hstep.recorded hmore (hordered.lt hmore) hfree (.inr ?_)
      rw [Bool.eq_false_iff]
      intro hagain
      obtain ⟨hfailed, hunrepaired, -⟩ := (asksAgain_iff _ _).mp hagain
      exact hended.elim hfailed hunrepaired
    · rw [attemptsAt_invoked, if_neg hoffset] at hattempts ⊢
      obtain ⟨invocation, hmem⟩ := exists_invoked hattempts
      obtain ⟨turn, earlier, hearlier, hturn, hseen, -⟩ := hstep.recorded.turn
      rw [hearlier] at hmem
      rcases mem_append.mp hmem with hmem | hmem
      · exact absurd (hturn _ hmem).symm hoffset
      · exact (hstep.done position (hseen _ hmem)).resolve_left hattempts

def Quiet (players : Players Checkout) (session : ResolutionSession) (round : Round Checkout) : Prop :=
  round.invoked = false → round.session.barred = (players.start session).session.barred ∧
    ∀ position before, .passed position before ∈ round.log → before.barred = (players.start session).session.barred

theorem Quiet.goes (hquiet : Quiet players session round) (hgoes : Goes players round next) : Quiet players session next := by
  intro hidle
  cases hgoes with
  | passed hbarred =>
    obtain ⟨hsession, hlog⟩ := hquiet hidle
    refine ⟨hsession, fun position before hmem => ?_⟩
    rcases mem_cons.mp hmem with heq | hmem
    · cases heq
      exact hsession
    · exact hlog position before hmem
  | faulted hfails hreason => cases hidle
  | retried hfails hreason hagain hroom => cases hidle
  | spent hfails hreason hover => cases hidle

theorem start_barred (players : Players Checkout) (session : ResolutionSession) : (players.start session).session.barred =
      if players.onlyStopBars session then session.deadToolSurfaces else session.barred := by
  unfold Players.start
  dsimp only
  split
  · exact append_nil _
  · rfl

theorem skipped_of_all_barred (hall : ∀ name ∈ players.candidates, name ∈ session.barred) :
    skippedCandidates session players.candidates = players.candidates.dedup := by
  unfold skippedCandidates
  rw [filter_eq_self.mpr fun name hname => contains_iff_mem.mpr (hall name hname)]

theorem onlyStopBars_iff (hall : ∀ name ∈ players.candidates, name ∈ session.barred) : players.onlyStopBars session = true ↔
      players.candidates.Nodup ∧ session.deadToolSurfaces.length < players.total := by
  unfold Players.onlyStopBars
  rw [skipped_of_all_barred hall, Bool.and_eq_true, beq_iff_eq, decide_eq_true_eq]
  refine and_congr_left fun _ => ⟨fun hlength => ?_, fun hnodup => ?_⟩
  · exact dedup_eq_self.mp ((dedup_sublist _).eq_of_length hlength)
  · rw [dedup_eq_self.mpr hnodup]
    rfl

theorem Even.dead (heven : Even players session) (hall : ∀ name ∈ players.candidates, name ∈ (players.start session).session.barred) :
    ∀ name ∈ players.candidates, name ∈ session.deadToolSurfaces := by
  rw [start_barred] at hall
  by_cases hlifted : players.onlyStopBars session = true
  · rw [if_pos hlifted] at hall
    exact hall
  · rw [if_neg hlifted] at hall
    exact (heven.bars hall).resolve_left fun h => hlifted ((onlyStopBars_iff hall).mpr h)

theorem Recorded.barred {last : Round Checkout} (hfirst : first < players.total) (hordered : Ordered players first last)
    (hrecorded : Recorded players last) (hquiet : Quiet players session last) (hends : Ends players last attempt final)
    (hnone : ∀ position, attemptsAt final.log position = 0) :
    ∀ name ∈ players.candidates, name ∈ (players.start session).session.barred := by
  have hempty : ∀ position invocation, .invoked position invocation ∉ final.log := fun position invocation hmem =>
    Nat.ne_of_gt (attemptsAt_pos hmem) (hnone position)
  intro name hname
  obtain ⟨position, hposition, rfl⟩ := getElem_of_mem hname
  rcases hends.offered hfirst hordered hrecorded (fun _ _ hmem => absurd hmem (hempty _ _)) hposition with
    hattempts | ⟨before, hmem, hbarred⟩
  · exact absurd (hnone position) hattempts
  · cases hends with
    | exhausted hall =>
      have hidle : final.invoked = false := by
        rw [← Bool.not_eq_true, hrecorded.invoked]
        rintro ⟨other, invocation, hmem⟩
        exact hempty other invocation hmem
      rw [((hquiet hidle).2 position before hmem)] at hbarred
      have hagent : agentAt players position = players.candidates[position] := by
        unfold agentAt
        rw [getD_eq_getElem?_getD, List.getElem?_eq_getElem hposition, Option.getD_some]
      exact hagent ▸ hbarred
    | stopped hmore hstops => exact absurd (hstops.adds.1 ▸ mem_cons_self) (hempty _ _)

theorem fair_of_even (players : Players Checkout) (session : ResolutionSession) (heven : Even players session) : Fair players session := by
  by_cases htotal : players.total = 0
  · refine ⟨⟨false, false, false⟩, { session, skipped := [], offset := 0 }, if_pos htotal, ?_, ?_, ?_, ?_⟩
    · exact fun _ => ⟨oneTurn_of_absent fun _ h => absurd h not_mem_nil, Nat.zero_le _⟩
    · exact fun _ position h => absurd h (htotal ▸ Nat.not_lt_zero _)
    · exact fun _ h => absurd rfl h
    · intro _ name hname
      exact absurd hname (length_eq_zero_iff.mp htotal ▸ not_mem_nil)
  · obtain ⟨first, hfirst, -, -, hordered⟩ := start_ordered players session (Nat.pos_of_ne_zero htotal)
    obtain ⟨attempt, final, hpasses⟩ := passes_end hordered (start_weight players session)
    have hrun : players.runOneRound session = some (attempt, final) := (if_neg htotal).trans hpasses
    obtain ⟨last, hlast, ⟨hrecorded, hquiet⟩, hends⟩ := passes_invariant
      (fun round => Recorded players round ∧ Quiet players session round)
      (fun _ _ hordered hmore hinv hgoes => ⟨hinv.1.goes hordered hmore hgoes, hinv.2.goes hgoes⟩) hordered
      ⟨start_recorded players session, fun _ => ⟨rfl, fun _ _ h => absurd h not_mem_nil⟩⟩ hpasses
    refine ⟨attempt, final, hrun, hends.oneTurn hlast hrecorded, ?_, ?_, ?_⟩
    · exact fun hunfinished position hposition => hends.offered hfirst hlast hrecorded hunfinished hposition
    · intro position hattempts
      rcases heven.counters with hone | hnobody | ⟨hretries, hskip, hsame⟩
      · have hcap := (hends.oneTurn hlast hrecorded position).2
        rw [ownAttempts_of_le_one hone]
        unfold Players.attemptCap at hcap
        omega
      · obtain ⟨last, hlast, hstep, hends⟩ := passes_invariant (InStep players session)
          (fun _ _ hordered hmore hinv hgoes => hinv.goes (by simp [hnobody]) hordered hmore hgoes) hordered
          (start_inStep (.inl hnobody)) hpasses
        exact hstep.ends hlast hends hattempts
      · obtain ⟨last, hlast, hstep, hends⟩ := passes_invariant (InStep players session)
          (fun _ _ hordered hmore hinv hgoes => hinv.goes hsame hordered hmore hgoes) hordered
          (start_inStep (.inr ⟨hretries, hskip⟩)) hpasses
        exact hstep.ends hlast hends hattempts
    · exact fun hnone => heven.dead (hrecorded.barred hfirst hlast hquiet hends hnone)

end RalphWorkflow.Resolution
