import RalphWorkflow.Proof.Resolution.Passes

/-! Each position of the chain has at most one turn, of no more invocations than the cap, and a position that is passed over is barred. -/
namespace RalphWorkflow.Resolution
open Pipeline.ConflictResolution List

variable {Checkout : Type} {players : Players Checkout} {round next : Round Checkout} {session : ResolutionSession}
  {log : List (RoundEvent Checkout)} {event : RoundEvent Checkout} {position first : Nat}

/-! ## Logs -/

def OneTurn (log : List (RoundEvent Checkout)) (position : Nat) : Prop :=
  ∃ later turn earlier, log = later ++ turn ++ earlier ∧ (∀ event ∈ turn, event.position = position) ∧
    ∀ event ∈ later ++ earlier, event.position ≠ position

theorem OneTurn.cons (h : OneTurn log position) (hevent : event.position ≠ position) : OneTurn (event :: log) position := by
  obtain ⟨later, turn, earlier, rfl, hturn, hother⟩ := h
  refine ⟨event :: later, turn, earlier, rfl, hturn, ?_⟩
  rw [cons_append]
  exact forall_mem_cons.mpr ⟨hevent, hother⟩

theorem oneTurn_of_absent (h : ∀ event ∈ log, event.position ≠ position) : OneTurn log position :=
  ⟨log, [], [], by simp, by simp, by simpa using h⟩

@[simp] theorem attemptsAt_invoked (other position : Nat) (invocation : Invocation Checkout) :
    attemptsAt (.invoked other invocation :: log) position =
      attemptsAt log position + if other = position then 1 else 0 := by
  simp [attemptsAt, RoundEvent.invocation?, countP_cons]

theorem attemptsAt_eq_zero (h : ∀ event ∈ log, event.position ≠ position) : attemptsAt log position = 0 := by
  induction log with
  | nil => rfl
  | cons event log ih =>
    obtain ⟨hevent, hlog⟩ := forall_mem_cons.mp h
    cases event with
    | passed other session => exact ih hlog
    | invoked other invocation =>
      have hother : ¬ other = position := hevent
      rw [attemptsAt_invoked, ih hlog, if_neg hother]

theorem exists_invoked (h : attemptsAt log position ≠ 0) : ∃ invocation, .invoked position invocation ∈ log := by
  induction log with
  | nil => exact absurd rfl h
  | cons event log ih =>
    cases event with
    | passed other session =>
      obtain ⟨invocation, hmem⟩ := ih h
      exact ⟨invocation, mem_cons_of_mem _ hmem⟩
    | invoked other invocation =>
      by_cases hother : other = position
      · exact ⟨invocation, hother ▸ mem_cons_self⟩
      · rw [attemptsAt_invoked, if_neg hother] at h
        obtain ⟨invocation, hmem⟩ := ih h
        exact ⟨invocation, mem_cons_of_mem _ hmem⟩

theorem attemptsAt_pos {invocation : Invocation Checkout} (h : .invoked position invocation ∈ log) : 0 < attemptsAt log position := by
  induction log with
  | nil => exact absurd h not_mem_nil
  | cons event log ih =>
    rcases mem_cons.mp h with heq | hmem
    · subst heq
      rw [attemptsAt_invoked, if_pos rfl]
      omega
    · have hpos := ih hmem
      cases event with
      | passed other session => exact hpos
      | invoked other invocation =>
        rw [attemptsAt_invoked]
        omega

/-! ## Bars only grow -/

theorem classify_barred (session : ResolutionSession) (environmental : Bool) (total failedIndex maxRetries : Nat) :
    (classifyFailedResolutionAttempt session environmental total failedIndex maxRetries).barred = session.barred := by
  unfold classifyFailedResolutionAttempt
  split
  · rfl
  · split
    · rfl
    · rfl

variable {name : String} {attempt : RoundAttempt} {final : Round Checkout}

theorem tried_barred (h : name ∈ round.session.barred) : name ∈ (tried players round).session.barred := by
  unfold tried
  rw [classify_barred]
  unfold ResolutionSession.barred ResolutionSession.afterRunner at *
  rcases mem_append.mp h with hdead | hstop
  · exact mem_append_left _ hdead
  · refine mem_append_right _ ?_
    dsimp only
    split
    · exact mem_append_left _ hstop
    · exact hstop

theorem mem_addOnce {names : List String} {other : String} : name ∈ addOnce names other ↔ name ∈ names ∨ name = other := by
  unfold addOnce
  split
  · rename_i hmem
    constructor
    · exact .inl
    · rintro (h | rfl)
      · exact h
      · exact contains_iff_mem.mp hmem
  · simp

theorem remember_barred {agent : String} : name ∈ (rememberDeadSurface session agent).barred ↔ name ∈ session.barred ∨ name = agent := by
  unfold rememberDeadSurface ResolutionSession.barred
  split
  · simp only [mem_append, mem_addOnce]
    tauto
  · simp only [mem_append, mem_addOnce]
    tauto

theorem mem_skippedCandidates {candidates : List String} :
    name ∈ skippedCandidates session candidates ↔ name ∈ candidates ∧ name ∈ session.barred := by
  unfold skippedCandidates
  rw [mem_dedup, mem_filter, contains_iff_mem]

/-! ## What every pass keeps -/

structure Recorded (players : Players Checkout) (round : Round Checkout) : Prop where
  bars : ∀ name ∈ round.skipped, name ∈ round.session.barred
  passed : ∀ position session, .passed position session ∈ round.log → agentAt players position ∈ session.barred
  visited : ∀ position ∈ round.visited, ∃ event ∈ round.log, event.position = position
  turn : ∃ turn earlier, round.log = turn ++ earlier ∧ (∀ event ∈ turn, event.position = round.offset) ∧
    (∀ event ∈ earlier, event.position ∈ round.visited) ∧ (turn = [] ∨ round.visited.length < players.total)
  turns : ∀ position ∈ round.visited, OneTurn round.log position
  attempts : ∀ position, attemptsAt round.log position ≤ players.attemptCap
  here : round.visited.length < players.total →
    attemptsAt round.log round.offset ≤ round.attemptsHere ∧ round.attemptsHere < players.attemptCap
  invoked : round.invoked = true ↔ ∃ position invocation, .invoked position invocation ∈ round.log
  agentRan : round.agentRan = true →
    ∃ position invocation, .invoked position invocation ∈ round.log ∧ invocation.activity = true
  unfinished : ∀ position invocation, .invoked position invocation ∈ round.log →
    invocation.returned ≠ .success ∧ ¬ Repairs players invocation

theorem Recorded.oneTurn (hrecorded : Recorded players round) (hfresh : round.offset ∉ round.visited)
    (hevent : event.position = round.offset) : OneTurn (event :: round.log) round.offset := by
  obtain ⟨turn, earlier, hlog, hturn, hearlier, -⟩ := hrecorded.turn
  refine ⟨[], event :: turn, earlier, by rw [hlog]; rfl, forall_mem_cons.mpr ⟨hevent, hturn⟩, ?_⟩
  exact fun other hother heq => hfresh (heq ▸ hearlier other hother)

theorem Recorded.turns_visit (hrecorded : Recorded players round) (hfresh : round.offset ∉ round.visited) (hevent : event.position = round.offset) :
    (∀ position ∈ round.offset :: round.visited, ∃ other ∈ event :: round.log, other.position = position) ∧
      (∀ other ∈ event :: round.log, other.position ∈ round.offset :: round.visited) ∧
      ∀ position ∈ round.offset :: round.visited, OneTurn (event :: round.log) position := by
  refine ⟨?_, ?_, ?_⟩
  · refine forall_mem_cons.mpr ⟨⟨event, mem_cons_self, hevent⟩, fun position hposition => ?_⟩
    obtain ⟨other, hother, heq⟩ := hrecorded.visited position hposition
    exact ⟨other, mem_cons_of_mem _ hother, heq⟩
  · obtain ⟨turn, earlier, hlog, hturn, hearlier, -⟩ := hrecorded.turn
    rw [hlog]
    refine forall_mem_cons.mpr ⟨hevent ▸ mem_cons_self, fun other hother => ?_⟩
    rcases mem_append.mp hother with hmem | hmem
    · exact hturn other hmem ▸ mem_cons_self
    · exact mem_cons_of_mem _ (hearlier other hmem)
  · refine forall_mem_cons.mpr ⟨hrecorded.oneTurn hfresh hevent, fun position hposition => ?_⟩
    exact (hrecorded.turns position hposition).cons (hevent ▸ fun heq => hfresh (heq ▸ hposition))

theorem attemptsAt_unvisited {visited : List Nat} (hlog : ∀ event ∈ log, event.position ∈ visited)
    (hfresh : position ∉ visited) : attemptsAt log position = 0 :=
  attemptsAt_eq_zero fun event hevent heq => hfresh (heq ▸ hlog event hevent)

theorem Recorded.comes_up (hrecorded : Recorded players round) (hfresh : round.offset ∉ round.visited)
    (hordered : Ordered players first next) (hvisited : next.visited = round.offset :: round.visited)
    (hlog : next.log = event :: round.log) (hevent : event.position = round.offset)
    (hroom : next.visited.length < players.total) : attemptsAt next.log next.offset = 0 := by
  refine attemptsAt_unvisited ?_ (hordered.fresh hroom)
  rw [hvisited, hlog]
  exact (hrecorded.turns_visit hfresh hevent).2.1

theorem Recorded.attempts_invoked (hrecorded : Recorded players round) (hmore : round.visited.length < players.total)
    (invocation : Invocation Checkout) (position : Nat) :
    attemptsAt (.invoked round.offset invocation :: round.log) position ≤ players.attemptCap := by
  rw [attemptsAt_invoked]
  by_cases heq : round.offset = position
  · subst heq
    have hhere := hrecorded.here hmore
    rw [if_pos rfl]
    omega
  · rw [if_neg heq]
    exact hrecorded.attempts position

structure Adds (players : Players Checkout) (round next : Round Checkout) : Prop where
  log : next.log = .invoked round.offset (nextInvocation players round) :: round.log
  invoked : next.invoked = true
  agentRan : next.agentRan = (round.agentRan || (nextInvocation players round).activity)

theorem Adds.flags (hadds : Adds players round next) (hrecorded : Recorded players round) (hfails : Fails players round) :
    (next.invoked = true ↔ ∃ position invocation, .invoked position invocation ∈ next.log) ∧
      (next.agentRan = true →
        ∃ position invocation, .invoked position invocation ∈ next.log ∧ invocation.activity = true) ∧
      ∀ position invocation, .invoked position invocation ∈ next.log →
        invocation.returned ≠ .success ∧ ¬ Repairs players invocation := by
  rw [hadds.log, hadds.invoked, hadds.agentRan]
  refine ⟨⟨fun _ => ⟨_, _, mem_cons_self⟩, fun _ => rfl⟩, ?_, ?_⟩
  · intro hran
    rcases Bool.or_eq_true_iff.mp hran with hearlier | hactive
    · obtain ⟨position, invocation, hmem, hactivity⟩ := hrecorded.agentRan hearlier
      exact ⟨position, invocation, mem_cons_of_mem _ hmem, hactivity⟩
    · exact ⟨_, _, mem_cons_self, hactive⟩
  · intro position invocation hmem
    rcases mem_cons.mp hmem with heq | hmem
    · cases heq
      exact ⟨hfails.failed, hfails.unrepaired⟩
    · exact hrecorded.unfinished position invocation hmem

theorem Recorded.leave (hrecorded : Recorded players round) (hfails : Fails players round) (hadds : Adds players round next)
    (hfresh : round.offset ∉ round.visited) (hmore : round.visited.length < players.total)
    (hordered : Ordered players first next) (hvisited : next.visited = round.offset :: round.visited)
    (hbars : ∀ name ∈ next.skipped, name ∈ next.session.barred) (hhere : next.attemptsHere < players.attemptCap) :
    Recorded players next := by
  obtain ⟨hinvoked, hran, hunfinished⟩ := hadds.flags hrecorded hfails
  have hevent : (RoundEvent.invoked round.offset (nextInvocation players round)).position = round.offset := rfl
  obtain ⟨hseen, hlog, hturns⟩ := hrecorded.turns_visit hfresh hevent
  refine ⟨hbars, ?_, ?_, ⟨[], next.log, rfl, by simp, ?_, .inl rfl⟩, ?_, ?_, ?_, hinvoked, hran, hunfinished⟩
  · intro position session hmem
    rw [hadds.log] at hmem
    rcases mem_cons.mp hmem with heq | hmem
    · cases heq
    · exact hrecorded.passed position session hmem
  · rw [hvisited, hadds.log]
    exact hseen
  · rw [hvisited, hadds.log]
    exact hlog
  · rw [hvisited, hadds.log]
    exact hturns
  · rw [hadds.log]
    exact hrecorded.attempts_invoked hmore _
  · intro hroom
    rw [hrecorded.comes_up hfresh hordered hvisited hadds.log rfl hroom]
    exact ⟨Nat.zero_le _, hhere⟩

theorem Recorded.goes (hordered : Ordered players first round) (hmore : round.visited.length < players.total)
    (hrecorded : Recorded players round) (hgoes : Goes players round next) : Recorded players next := by
  have hnext := (hgoes.moves hordered hmore).1
  have hfresh := hordered.fresh hmore
  have hinsert : round.visited.insert round.offset = round.offset :: round.visited := insert_of_not_mem hfresh
  have hhere := hrecorded.here hmore
  cases hgoes with
  | passed hbarred =>
    have hevent : (RoundEvent.passed round.offset round.session : RoundEvent Checkout).position = round.offset := rfl
    obtain ⟨hseen, hlog, hturns⟩ := hrecorded.turns_visit hfresh hevent
    rw [← hinsert] at hseen hlog hturns
    refine ⟨hrecorded.bars, ?_, hseen, ⟨[], _, rfl, by simp, hlog, .inl rfl⟩, hturns, hrecorded.attempts, ?_, ?_, ?_, ?_⟩
    · intro position session hmem
      rcases mem_cons.mp hmem with heq | hmem
      · cases heq
        exact hrecorded.bars _ hbarred
      · exact hrecorded.passed position session hmem
    · exact fun hroom => ⟨le_of_eq_of_le (attemptsAt_unvisited hlog (hnext.fresh hroom)) (Nat.zero_le _), hhere.2⟩
    · refine hrecorded.invoked.trans ⟨?_, ?_⟩
      · rintro ⟨position, invocation, hmem⟩
        exact ⟨position, invocation, mem_cons_of_mem _ hmem⟩
      · rintro ⟨position, invocation, hmem⟩
        exact ⟨position, invocation, (mem_cons.mp hmem).resolve_left nofun⟩
    · intro hran
      obtain ⟨position, invocation, hmem, hactivity⟩ := hrecorded.agentRan hran
      exact ⟨position, invocation, mem_cons_of_mem _ hmem, hactivity⟩
    · intro position invocation hmem
      exact hrecorded.unfinished position invocation ((mem_cons.mp hmem).resolve_left nofun)
  | faulted hfails hreason =>
    refine hrecorded.leave hfails ⟨rfl, rfl, rfl⟩ hfresh hmore hnext hinsert ?_ hhere.2
    exact fun name hname => (mem_skippedCandidates.mp hname).2
  | retried hfails hreason hagain hroom =>
    have hadds : Adds players round { tried players round with attemptsHere := round.attemptsHere + 1 } := ⟨rfl, rfl, rfl⟩
    obtain ⟨hinvoked, hran, hunfinished⟩ := hadds.flags hrecorded hfails
    obtain ⟨turn, earlier, hlog, hturn, hearlier, -⟩ := hrecorded.turn
    refine ⟨fun name hname => tried_barred (hrecorded.bars name hname), ?_, ?_,
      ⟨.invoked round.offset (nextInvocation players round) :: turn, earlier, ?_,
        forall_mem_cons.mpr ⟨rfl, hturn⟩, hearlier, .inr hmore⟩, ?_, hrecorded.attempts_invoked hmore _, ?_,
      hinvoked, hran, hunfinished⟩
    · intro position session hmem
      exact hrecorded.passed position session ((mem_cons.mp hmem).resolve_left nofun)
    · intro position hposition
      obtain ⟨event, hmem, heq⟩ := hrecorded.visited position hposition
      exact ⟨event, mem_cons_of_mem _ hmem, heq⟩
    · show _ :: round.log = _
      rw [hlog]
      rfl
    · intro position hposition
      refine (hrecorded.turns position hposition).cons fun heq => ?_
      have hsame : round.offset = position := heq
      exact hfresh (hsame ▸ hposition)
    · intro _
      refine ⟨?_, hroom⟩
      show attemptsAt (.invoked round.offset (nextInvocation players round) :: round.log) round.offset ≤ _
      rw [attemptsAt_invoked, if_pos rfl]
      exact Nat.add_le_add_right hhere.1 1
  | spent hfails hreason hover =>
    refine hrecorded.leave hfails ⟨rfl, rfl, rfl⟩ hfresh hmore hnext hinsert ?_ (Nat.lt_of_lt_of_le Nat.one_pos (Nat.le_max_left _ _))
    exact fun name hname => tried_barred (hrecorded.bars name hname)

theorem start_recorded (players : Players Checkout) (session : ResolutionSession) : Recorded players (players.start session) := by
  refine ⟨fun name hname => (mem_skippedCandidates.mp hname).2, ?_, ?_, ⟨[], [], rfl, by simp, by simp, .inl rfl⟩, ?_, ?_, ?_, ?_, ?_, ?_⟩
  · exact fun _ _ h => absurd h not_mem_nil
  · exact fun _ h => absurd h not_mem_nil
  · exact fun _ h => absurd h not_mem_nil
  · exact fun _ => Nat.zero_le _
  · exact fun _ => ⟨Nat.le_refl 0, Nat.lt_of_lt_of_le Nat.one_pos (Nat.le_max_left _ _)⟩
  · exact ⟨fun h => absurd h Bool.false_ne_true, fun ⟨_, _, h⟩ => absurd h not_mem_nil⟩
  · exact fun h => absurd h Bool.false_ne_true
  · exact fun _ _ h => absurd h not_mem_nil

/-! ## When the round is over -/

theorem Stops.adds (hstops : Stops players round attempt final) : final.log = .invoked round.offset (nextInvocation players round) :: round.log ∧
      agentAt players round.offset ∉ round.skipped ∧
      ((nextInvocation players round).returned = .success ∨ Repairs players (nextInvocation players round)) := by
  cases hstops with
  | succeeded hfree hsuccess => exact ⟨rfl, hfree, .inl hsuccess⟩
  | repaired hfree hfailed hrepairs => exact ⟨rfl, hfree, .inr hrepairs⟩

theorem Ends.oneTurn (hordered : Ordered players first round)
    (hrecorded : Recorded players round) (hends : Ends players round attempt final) (position : Nat) :
    OneTurn final.log position ∧ attemptsAt final.log position ≤ players.attemptCap := by
  obtain ⟨turn, earlier, hlog, hturn, hearlier, hwhere⟩ := hrecorded.turn
  cases hends with
  | exhausted hall =>
    refine ⟨?_, hrecorded.attempts position⟩
    by_cases hseen : position ∈ round.visited
    · exact hrecorded.turns position hseen
    · have hnil : turn = [] := hwhere.resolve_right (by omega)
      subst hnil
      rw [nil_append] at hlog
      exact oneTurn_of_absent fun event hevent heq => hseen (heq ▸ hearlier event (hlog ▸ hevent))
  | stopped hmore hstops =>
    have hfresh := hordered.fresh hmore
    rw [hstops.adds.1]
    refine ⟨?_, hrecorded.attempts_invoked hmore _ position⟩
    by_cases hoffset : round.offset = position
    · exact hoffset ▸ hrecorded.oneTurn hfresh rfl
    · by_cases hseen : position ∈ round.visited
      · exact (hrecorded.turns position hseen).cons hoffset
      · refine OneTurn.cons (oneTurn_of_absent fun event hevent heq => ?_) hoffset
        rw [hlog] at hevent
        rcases mem_append.mp hevent with hmem | hmem
        · exact hoffset ((hturn event hmem).symm.trans heq)
        · exact hseen (heq ▸ hearlier event hmem)

theorem Ends.offered (hfirst : first < players.total)
    (hordered : Ordered players first round) (hrecorded : Recorded players round) (hends : Ends players round attempt final)
    (hunfinished : ∀ position invocation, .invoked position invocation ∈ final.log →
      invocation.returned ≠ .success ∧ ¬ Repairs players invocation)
    (hposition : position < players.total) : attemptsAt final.log position ≠ 0 ∨
      ∃ session, .passed position session ∈ final.log ∧ agentAt players position ∈ session.barred := by
  cases hends with
  | exhausted hall =>
    obtain ⟨steps, hsteps, hplace⟩ := exists_place hfirst hposition
    obtain ⟨event, hevent, rfl⟩ := hrecorded.visited position ((hordered.visited position).mpr ⟨steps, hall ▸ hsteps, hplace⟩)
    cases event with
    | passed other session => exact .inr ⟨session, hevent, hrecorded.passed _ _ hevent⟩
    | invoked other invocation => exact .inl (Nat.ne_of_gt (attemptsAt_pos hevent))
  | stopped hmore hstops =>
    obtain ⟨hlog, -, hended⟩ := hstops.adds
    obtain ⟨hsuccess, hrepairs⟩ := hunfinished _ _ (hlog ▸ mem_cons_self)
    exact absurd hended (not_or.mpr ⟨hsuccess, hrepairs⟩)

theorem Ends.reports (hrecorded : Recorded players round) (hends : Ends players round attempt final) :
    (attempt.invoked = true ↔ ∃ position invocation, .invoked position invocation ∈ final.log) ∧ (attempt.succeeded = true →
        ∃ position invocation, .invoked position invocation ∈ final.log ∧ invocation.returned = .success) ∧
      (attempt.agentRan = true → attempt.succeeded = true ∨
        ∃ position invocation, .invoked position invocation ∈ final.log ∧ invocation.activity = true) := by
  cases hends with
  | exhausted hall =>
    exact ⟨hrecorded.invoked, fun h => absurd h Bool.false_ne_true, fun h => .inr (hrecorded.agentRan h)⟩
  | stopped hmore hstops =>
    have hmem := hstops.adds.1 ▸ mem_cons_self
    cases hstops with
    | succeeded hfree hsuccess =>
      exact ⟨⟨fun _ => ⟨_, _, hmem⟩, fun _ => rfl⟩, fun _ => ⟨_, _, hmem, hsuccess⟩, fun _ => .inl rfl⟩
    | repaired hfree hfailed hrepairs =>
      exact ⟨⟨fun _ => ⟨_, _, hmem⟩, fun _ => rfl⟩, fun h => absurd h Bool.false_ne_true,
        fun _ => .inr ⟨_, _, hmem, hrepairs.1⟩⟩

end RalphWorkflow.Resolution
