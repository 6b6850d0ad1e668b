import RalphWorkflow.Lib.Text

/-! The policy-readiness loop: remediation and analysis phases under one counter, from either entry, until the graph is done or an agent
cannot be launched. What the agents and the validator do is a reply for each phase that is run. -/

namespace RalphWorkflow.Readiness
open List


/-! ## Decisions -/

inductive Phase
  | remediation
  | analysis
  /-- `TERMINAL_DONE` -/
  | done
  deriving DecidableEq

structure PolicyRoute where
  target : Phase
  resetLoop : Bool := false

/-- The decisions of `PHASE_ANALYSIS`. -/
def decisions : List (String × PolicyRoute) :=
  [("completed", { target := .done, resetLoop := true }), ("request_changes", { target := .remediation }),
    ("failed", { target := .remediation })]

def resolveDecision (decision : String) : PolicyRoute := (decisions.lookup decision).getD { target := .remediation }

def analysisBudgetSpent (iteration : Nat) (cap : Int) : Bool := cap ≤ iteration

inductive Artifact
  | unusable (error : String)
  | content (status summary : String)
  deriving DecidableEq

structure AnalysisDecision where
  status : String
  summary : String
  deriving DecidableEq

/-- No letter beyond ASCII is lowered to one of a decision. -/
def lower (text : String) : String := String.ofList (text.toList.map Char.toLower)

def readAnalysisDecision : Option Artifact → AnalysisDecision
  | none => { status := "failed", summary := "analysis agent submitted no decision artifact" }
  | some (.unusable error) => { status := "failed", summary := "analysis decision artifact is unusable: " ++ error }
  | some (.content status summary) =>
    let status := lower (Lib.Text.strip status)
    if (decisions.map Prod.fst).contains status then { status := status, summary := Lib.Text.strip summary }
    else
      { status := "failed"
        summary := "analysis agent returned an unrecognized decision " ++ Lib.Text.pyRepr status ++ "; treating it as failed" }

/-! ## Replies -/

inductive Touch
  | leaves
  | deletes
  | submits (artifact : Artifact)

def Touch.apply (artifact : Option Artifact) : Touch → Option Artifact
  | .leaves => artifact
  | .deletes => none
  | .submits submitted => some submitted

variable {Finding : Type}

structure Reply (Finding : Type) where
  /-- no `RemediationInvocationError` -/
  launched : Bool
  success : Bool
  touch : Touch
  /-- what `validate_readiness` reports after the phase -/
  findings : List Finding

structure Ran (Finding : Type) where
  phase : Phase
  feedback : Option AnalysisDecision
  reply : Reply Finding

structure State (Finding : Type) where
  phase : Phase
  iteration : Nat := 0
  current : List Finding
  feedback : Option AnalysisDecision := none
  blessed : Bool := false
  artifact : Option Artifact
  /-- the phases run, the last one at the end -/
  trace : List (Ran Finding) := []

/-! ## The driver -/

/-- The decision artifact is cleared before the agent is invoked. -/
def runAnalysisPhase (reply : Reply Finding) : AnalysisDecision × Option Artifact :=
  let artifact := reply.touch.apply none
  let decision := readAnalysisDecision artifact
  if !reply.success && decision.status = "completed" then
    ({ status := "failed"
       summary := "analysis agent chain failed after submitting a completed decision; discarding the decision" }, artifact)
  else (decision, artifact)

def routeAfterRemediation (current : List Finding) (iteration : Nat) (cap : Int) : Phase :=
  if analysisBudgetSpent iteration cap then .done
  else if !current.isEmpty then .remediation
  else .analysis

namespace State

variable (cap : Int) (world : Nat → Reply Finding) (s : State Finding)

def reply : Reply Finding := world s.trace.length

def ran : State Finding := { s with trace := s.trace ++ [{ phase := s.phase, feedback := s.feedback, reply := s.reply world }] }

def remediated : State Finding :=
  let reply := s.reply world
  let phase := routeAfterRemediation reply.findings s.iteration cap
  { s.ran world with
    phase, current := reply.findings, feedback := none, artifact := reply.touch.apply s.artifact
    iteration := if phase = .remediation then s.iteration + 1 else s.iteration }

def analysed : State Finding :=
  let (decision, artifact) := runAnalysisPhase (s.reply world)
  let route := resolveDecision decision.status
  { s.ran world with
    phase := route.target, artifact
    iteration := if route.resetLoop then 0 else s.iteration + 1
    blessed := s.blessed || route.resetLoop
    feedback := if route.resetLoop then s.feedback else some decision }

/-- One turn of the loop; an error is the state in which an agent could not be launched. -/
def step : Except (State Finding) (State Finding) :=
  match s.phase with
  | .done => .ok s
  | .remediation => if (s.reply world).launched then .ok (s.remediated cap world) else .error (s.ran world)
  | .analysis =>
    if analysisBudgetSpent s.iteration cap then .ok { s with phase := .done }
    else if !s.current.isEmpty then .ok { s with iteration := s.iteration + 1, phase := .remediation }
    else if (s.reply world).launched then .ok (s.analysed world)
    else .error { s.ran world with artifact := none }

end State

inductive ReadinessStatus
  | ready
  | blocked
  deriving DecidableEq

structure ReadinessResult (Finding : Type) where
  status : ReadinessStatus
  findings : List Finding
  trace : List (Ran Finding)

def notReady (s : State Finding) (findings : List Finding) : ReadinessResult Finding :=
  { status := .blocked, findings, trace := s.trace }

def finish (s : State Finding) : ReadinessResult Finding :=
  let remaining := (s.trace.getLast?.map fun ran => ran.reply.findings).getD []
  if !s.blessed then notReady s s.current
  else if !remaining.isEmpty then notReady s remaining
  else { status := .ready, findings := [], trace := s.trace }

def loop (cap : Int) (world : Nat → Reply Finding) : Nat → State Finding → Option (ReadinessResult Finding)
  | 0, _ => none
  | fuel + 1, s =>
    if s.phase = .done then some (finish s)
    else match s.step cap world with
      | .error s => some (notReady s s.current)
      | .ok s => loop cap world fuel s

def runPolicyPipeline (fuel : Nat) (cap : Int) (world : Nat → Reply Finding) (entryPhase : Phase) (findings : List Finding)
    (artifact : Option Artifact) : Option (ReadinessResult Finding) :=
  loop cap world fuel { phase := entryPhase, current := findings, artifact }

/-! ## What holds of a run -/

def latest (initial : List Finding) (trace : List (Ran Finding)) : List Finding :=
  trace.foldl (fun findings ran => if ran.phase = .remediation then ran.reply.findings else findings) initial

def runs (phase : Phase) (trace : List (Ran Finding)) : Nat := trace.countP fun ran => ran.phase = phase

/-- An analysis whose agent chain succeeded with a 'completed' decision submitted in the phase. -/
def Approves (ran : Ran Finding) : Prop :=
  ran.phase = .analysis ∧ ran.reply.launched ∧ ran.reply.success ∧
    ∃ artifact, ran.reply.touch = .submits artifact ∧ (readAnalysisDecision (some artifact)).status = "completed"

/-- The bounds of the two counts, and no analysis while the latest validation reports a finding. -/
structure Gated (cap : Int) (initial : List Finding) (trace : List (Ran Finding)) : Prop where
  remediations : (runs .remediation trace : Int) ≤ max cap 0 + 1
  analyses : (runs .analysis trace : Int) ≤ max cap 0
  gate : ∀ earlier ran later, trace = earlier ++ ran :: later → ran.phase = .analysis → latest initial earlier = []

def EndsWell (cap : Int) (entryPhase : Phase) (result : ReadinessResult Finding) : Prop :=
  match result.trace.getLast? with
  | none => result.status = .blocked ∧ entryPhase = .analysis ∧ cap ≤ 0
  | some last =>
    if result.status = .ready then Approves last ∧ last.reply.findings = []
    else last.reply.launched = false ∨ last.phase = .remediation ∨ Approves last ∧ last.reply.findings ≠ []

/-- Where the counts stand in a phase. -/
def Placed (cap : Int) (entryPhase : Phase) (s : State Finding) : Prop :=
  match s.phase with
  | .remediation =>
    runs .remediation s.trace ≤ s.iteration ∧ runs .analysis s.trace ≤ s.iteration ∧ (s.iteration : Int) ≤ max cap 0
  | .analysis =>
    runs .remediation s.trace ≤ s.iteration + 1 ∧ runs .analysis s.trace ≤ s.iteration ∧
      ((s.iteration : Int) < cap ∨ s.trace = [] ∧ s.iteration = 0 ∧ entryPhase = .analysis)
  | .done =>
    (runs .remediation s.trace : Int) ≤ max cap 0 + 1 ∧ (runs .analysis s.trace : Int) ≤ max cap 0 ∧
      match s.trace.getLast? with
      | none => s.blessed = false ∧ entryPhase = .analysis ∧ cap ≤ 0
      | some last => if s.blessed then Approves last else last.phase = .remediation

structure Between (cap : Int) (entryPhase : Phase) (initial : List Finding) (s : State Finding) : Prop where
  current : s.current = latest initial s.trace
  gate : ∀ earlier ran later, s.trace = earlier ++ ran :: later → ran.phase = .analysis → latest initial earlier = []
  unblessed : s.phase ≠ .done → s.blessed = false
  placed : Placed cap entryPhase s

variable {cap : Int} {world : Nat → Reply Finding} {entryPhase : Phase} {initial : List Finding} {s s' : State Finding}

theorem runs_ran (world : Nat → Reply Finding) (s : State Finding) (phase : Phase) : runs phase (s.ran world).trace = runs phase s.trace + if s.phase = phase then 1 else 0 := by
  simp [runs, State.ran, countP_append, countP_cons]

theorem latest_ran (world : Nat → Reply Finding) (initial : List Finding) (s : State Finding) : latest initial (s.ran world).trace =
    if s.phase = .remediation then (s.reply world).findings else latest initial s.trace := by
  simp [latest, State.ran, foldl_append]

theorem Between.gate_ran (h : Between cap entryPhase initial s) (world : Nat → Reply Finding)
    (hclean : s.phase = .analysis → s.current = []) (earlier : List (Ran Finding)) (ran : Ran Finding) (later : List (Ran Finding)) (htrace : (s.ran world).trace = earlier ++ ran :: later)
    (hanalysis : ran.phase = .analysis) : latest initial earlier = [] := by
  rcases eq_nil_or_concat later with rfl | ⟨later, last, rfl⟩
  · obtain ⟨rfl, hran⟩ := append_inj' htrace rfl
    obtain ⟨rfl, -⟩ := List.cons.inj hran
    exact h.current.symm.trans (hclean hanalysis)
  · rw [concat_eq_append, ← cons_append, ← append_assoc] at htrace
    exact h.gate earlier ran later (append_inj' htrace rfl).1 hanalysis

theorem analysed_approves (hphase : s.phase = .analysis) (hlaunched : (s.reply world).launched)
    (hcompleted : (runAnalysisPhase (s.reply world)).1.status = "completed") :
    Approves { phase := s.phase, feedback := s.feedback, reply := s.reply world } := by
  unfold runAnalysisPhase at hcompleted
  dsimp only at hcompleted
  split at hcompleted
  · simp at hcompleted
  · next hkept =>
    dsimp only at hcompleted
    refine ⟨hphase, hlaunched, ?_, ?_⟩
    · simpa [hcompleted] using hkept
    · cases htouch : (s.reply world).touch with
      | submits artifact => exact ⟨artifact, rfl, by rw [htouch] at hcompleted; exact hcompleted⟩
      | leaves | deletes =>
        rw [htouch] at hcompleted
        exact absurd hcompleted (by decide)

theorem resolveDecision_cases (decision : String) : decision = "completed" ∧ resolveDecision decision = { target := .done, resetLoop := true } ∨
      resolveDecision decision = { target := .remediation } := by
  by_cases hcompleted : decision = "completed"
  · exact .inl ⟨hcompleted, by rw [hcompleted]; rfl⟩
  · refine .inr ?_
    unfold resolveDecision decisions
    simp only [List.lookup_cons, List.lookup_nil, beq_eq_false_iff_ne.mpr hcompleted]
    split
    · rfl
    · split <;> rfl

theorem Placed.ran_bounded (h : Placed cap entryPhase s) (world : Nat → Reply Finding) (hphase : s.phase ≠ .done)
    (hopen : s.phase = .analysis → (s.iteration : Int) < cap) :
    (runs .remediation (s.ran world).trace : Int) ≤ max cap 0 + 1 ∧ (runs .analysis (s.ran world).trace : Int) ≤ max cap 0 := by
  rw [runs_ran, runs_ran]
  unfold Placed at h
  cases hs : s.phase with
  | remediation =>
    rw [hs] at h
    obtain ⟨hremediations, hanalyses, hroom⟩ := h
    simp only [if_true, reduceCtorEq, if_false]
    omega
  | analysis =>
    rw [hs] at h
    obtain ⟨hremediations, hanalyses, -⟩ := h
    have hlt := hopen hs
    simp only [if_true, reduceCtorEq, if_false]
    omega
  | done => exact absurd hs hphase

def turnsLeft (cap : Int) (s : State Finding) : Nat :=
  match s.phase with
  | .done => 0
  | .analysis => 3 * (cap - s.iteration).toNat + 1
  | .remediation => 3 * (cap - s.iteration).toNat + 2

section

variable (h : Between cap entryPhase initial s)
include h

theorem Between.remediated (hphase : s.phase = .remediation) :
    Between cap entryPhase initial (s.remediated cap world) ∧ turnsLeft cap (s.remediated cap world) < turnsLeft cap s := by
  have hplaced := h.placed
  have hbounded := h.placed.ran_bounded world (by simp [hphase]) (by simp [hphase])
  unfold Placed at hplaced
  rw [hphase] at hplaced
  obtain ⟨hremediations, hanalyses, hroom⟩ := hplaced
  have hremediations' := runs_ran world s .remediation
  have hanalyses' := runs_ran world s .analysis
  have hunblessed := h.unblessed (by simp [hphase])
  simp only [hphase, if_true, reduceCtorEq, if_false] at hremediations' hanalyses'
  refine ⟨⟨?_, h.gate_ran world (by simp [hphase]), fun _ => hunblessed, ?_⟩, ?_⟩
  · show (s.reply world).findings = latest initial (s.ran world).trace
    rw [latest_ran, if_pos hphase]
  · unfold Placed State.remediated routeAfterRemediation analysisBudgetSpent
    dsimp only
    split_ifs <;> simp_all [State.ran]
    all_goals omega
  · unfold turnsLeft State.remediated routeAfterRemediation analysisBudgetSpent
    dsimp only
    rw [hphase]
    split_ifs <;> simp_all
    all_goals omega

theorem Between.analysed (hphase : s.phase = .analysis) (hopen : (s.iteration : Int) < cap)
    (hclean : s.current = []) (hlaunched : (s.reply world).launched) :
    Between cap entryPhase initial (s.analysed world) ∧ turnsLeft cap (s.analysed world) < turnsLeft cap s := by
  have hplaced := h.placed
  have hbounded := h.placed.ran_bounded world (by simp [hphase]) fun _ => hopen
  unfold Placed at hplaced
  rw [hphase] at hplaced
  obtain ⟨hremediations, hanalyses, -⟩ := hplaced
  have hremediations' := runs_ran world s .remediation
  have hanalyses' := runs_ran world s .analysis
  have hunblessed := h.unblessed (by simp [hphase])
  have hlatest := latest_ran world initial s
  simp only [hphase, if_true, reduceCtorEq, if_false] at hremediations' hanalyses' hlatest
  have hcurrent := h.current.trans hlatest.symm
  have hgate := h.gate_ran world fun _ => hclean
  rcases resolveDecision_cases (runAnalysisPhase (s.reply world)).1.status with ⟨hcompleted, hroute⟩ | hroute
  · have happroves := analysed_approves hphase hlaunched hcompleted
    refine ⟨⟨hcurrent, hgate, ?_, ?_⟩, ?_⟩
    · simp [State.analysed, hroute]
    · unfold Placed
      simp only [State.analysed, hroute]
      refine ⟨hbounded.1, hbounded.2, ?_⟩
      simp [State.ran, happroves]
    · simp [turnsLeft, State.analysed, hroute, hphase]
  · refine ⟨⟨hcurrent, hgate, ?_, ?_⟩, ?_⟩
    · simp [State.analysed, hroute, State.ran, hunblessed]
    · simp only [Placed, State.analysed, hroute, hremediations', hanalyses', Bool.false_eq_true, if_false]
      omega
    · simp only [turnsLeft, State.analysed, hroute, hphase, Bool.false_eq_true, if_false]
      omega

theorem Between.step (hphase : s.phase ≠ .done) (hstep : s.step cap world = .ok s') :
    Between cap entryPhase initial s' ∧ turnsLeft cap s' < turnsLeft cap s := by
  have hplaced := h.placed
  unfold Placed at hplaced
  unfold State.step at hstep
  cases hs : s.phase with
  | done => exact absurd hs hphase
  | remediation =>
    rw [hs] at hstep
    dsimp only at hstep
    split_ifs at hstep
    cases hstep
    exact h.remediated hs
  | analysis =>
    rw [hs] at hstep hplaced
    obtain ⟨hremediations, hanalyses, hroom⟩ := hplaced
    unfold analysisBudgetSpent at hstep
    dsimp only at hstep
    split_ifs at hstep with hspent hfindings hlaunched
    · cases hstep
      rw [decide_eq_true_eq] at hspent
      obtain ⟨htrace, hzero, hentry⟩ := hroom.resolve_left (by omega)
      refine ⟨⟨h.current, h.gate, fun hne => absurd rfl hne, ?_⟩, by simp [turnsLeft, hs]⟩
      have hunblessed := h.unblessed (by simp [hs])
      simp only [Placed, htrace, runs, countP_nil, List.getLast?_nil, hunblessed, hentry, true_and]
      omega
    · cases hstep
      rw [decide_eq_true_eq] at hspent
      refine ⟨⟨h.current, h.gate, fun _ => h.unblessed (by simp [hs]), ?_⟩, ?_⟩
      · simp only [Placed]
        omega
      · simp only [turnsLeft, hs]
        omega
    · cases hstep
      rw [decide_eq_true_eq] at hspent
      exact h.analysed hs (by omega) (by simpa using hfindings) hlaunched

theorem Between.stopped (hstep : s.step cap world = .error s') :
    Gated cap initial s'.trace ∧ ∃ last, s'.trace.getLast? = some last ∧ last.reply.launched = false := by
  unfold State.step analysisBudgetSpent at hstep
  cases hs : s.phase with
  | done => rw [hs] at hstep; cases hstep
  | remediation =>
    rw [hs] at hstep
    dsimp only at hstep
    split_ifs at hstep with hlaunched
    cases hstep
    obtain ⟨hremediations, hanalyses⟩ := h.placed.ran_bounded world (by simp [hs]) (by simp [hs])
    exact ⟨⟨hremediations, hanalyses, h.gate_ran world (by simp [hs])⟩, _, List.getLast?_concat, by simpa using hlaunched⟩
  | analysis =>
    rw [hs] at hstep
    dsimp only at hstep
    split_ifs at hstep with hspent hfindings hlaunched
    cases hstep
    rw [decide_eq_true_eq] at hspent
    obtain ⟨hremediations, hanalyses⟩ := h.placed.ran_bounded world (by simp [hs]) fun _ => by omega
    exact ⟨⟨hremediations, hanalyses, h.gate_ran world fun _ => by simpa using hfindings⟩, _, List.getLast?_concat, by simpa using hlaunched⟩

theorem Between.finished (hphase : s.phase = .done) : Gated cap initial (finish s).trace ∧ EndsWell cap entryPhase (finish s) := by
  have hplaced := h.placed
  unfold Placed at hplaced
  rw [hphase] at hplaced
  obtain ⟨hremediations, hanalyses, hlast⟩ := hplaced
  have htrace : (finish s).trace = s.trace := by
    unfold finish
    dsimp only
    split_ifs <;> rfl
  rw [htrace]
  refine ⟨⟨hremediations, hanalyses, h.gate⟩, ?_⟩
  unfold EndsWell
  rw [htrace]
  unfold finish
  cases hran : s.trace.getLast? with
  | none =>
    rw [hran] at hlast
    simp [hlast, notReady]
  | some last =>
    rw [hran] at hlast
    cases hblessed : s.blessed with
    | false => simp_all [notReady]
    | true =>
      cases hremaining : last.reply.findings <;> simp_all [notReady]

theorem Between.loop {fuel : Nat} (hfuel : turnsLeft cap s < fuel) :
    ∃ result, loop cap world fuel s = some result ∧ Gated cap initial result.trace ∧ EndsWell cap entryPhase result := by
  induction fuel generalizing s with
  | zero => exact absurd hfuel (Nat.not_lt_zero _)
  | succ fuel ih =>
    unfold Readiness.loop
    by_cases hdone : s.phase = .done
    · rw [if_pos hdone]
      exact ⟨_, rfl, h.finished hdone⟩
    · rw [if_neg hdone]
      cases hstep : s.step cap world with
      | error stopped =>
        obtain ⟨hgated, last, hlast, hlaunched⟩ := h.stopped hstep
        refine ⟨_, rfl, hgated, ?_⟩
        simp [EndsWell, notReady, hlast, hlaunched]
      | ok next =>
        obtain ⟨hnext, hfewer⟩ := h.step hdone hstep
        exact ih hnext (by omega)

end

abbrev EntryPhase := { phase : Phase // phase ≠ .done }

def overruled : Nat → Reply Nat
  | 0 => { launched := true, success := true, touch := .leaves, findings := [] }
  | _ => { launched := true, success := true, touch := .submits (.content "completed" ""), findings := [1] }

end RalphWorkflow.Readiness
