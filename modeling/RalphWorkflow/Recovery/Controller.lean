import RalphWorkflow.Pipeline.Progress

/-! `RecoveryController` of `ralph/recovery/controller.py`. Each method returns the controller it leaves behind, also where it raises. The
classifier is injected in the source and a field here; the clock is a stream of readings, one for each read. -/
/-! ## Agent availability and budgets

`AgentUnavailabilityTracker`, `AgentBudgetRegistry`, the two same-shape trackers and `CycleCap` of `ralph/recovery`. Clock readings are
milliseconds, as `int(clock.monotonic() * 1000)` gives them. -/

namespace RalphWorkflow.Recovery

open Lib Lib.Text
open Lib


def agentKey (phase agent : String) : String := s!"{phase}:{agent}"

/-! ## Cooldowns -/

/-- The bounds are those of `ReasonBackoffPolicy.__post_init__`. -/
structure ReasonBackoffPolicy where
  baseBackoffMs : Nat
  maxBackoffMs : Nat
  base_pos : 0 < baseBackoffMs
  base_lt_max : baseBackoffMs < maxBackoffMs

def defaultUnavailabilityBackoffPolicy : UnavailabilityReason → Option ReasonBackoffPolicy
  | .outOfCredits => some ⟨60000, 1800000, by decide, by decide⟩
  | .brokenAgent => some ⟨5000, 60000, by decide, by decide⟩
  | .noOutputAtStart => some ⟨5000, 30000, by decide, by decide⟩
  | .noOutputAfterActivity => some ⟨10000, 120000, by decide, by decide⟩
  | .suspiciousTimeoutNoOutput => some ⟨10000, 60000, by decide, by decide⟩
  | .staleChildQuiet => some ⟨15000, 300000, by decide, by decide⟩
  | .strictlyStuck => some ⟨15000, 300000, by decide, by decide⟩

def defaultLegacyBackoffMs : Nat := 5000

def defaultLegacyMaxBackoffMs : Nat := 300000

structure AgentUnavailabilityTracker where
  backoffPolicy : UnavailabilityReason → Option ReasonBackoffPolicy := defaultUnavailabilityBackoffPolicy
  /-- `unavailable_until_ms` by key; the rest of an entry is only reported. -/
  unavailableUntilMs : Dict String Int := ∅
  backoffAttempts : Dict String Nat := ∅

namespace AgentUnavailabilityTracker

def pruneExpired (tracker : AgentUnavailabilityTracker) (nowMs : Int) : AgentUnavailabilityTracker :=
  { tracker with unavailableUntilMs :=
      Dict.ofList (tracker.unavailableUntilMs.entries.filter fun e => nowMs < e.2) }

def markUnavailable (tracker : AgentUnavailabilityTracker) (phase agent : String)
    (reason : Option UnavailabilityReason) (nowMs : Int) : AgentUnavailabilityTracker :=
  let key := agentKey phase agent
  let pruned := tracker.pruneExpired nowMs
  let attempt := pruned.backoffAttempts.getD key 0
  let bounds := match reason.bind pruned.backoffPolicy with
    | some policy => (policy.baseBackoffMs, policy.maxBackoffMs)
    | none => (defaultLegacyBackoffMs, defaultLegacyMaxBackoffMs)
  let backoffMs : Nat := min (bounds.1 * 2 ^ attempt) bounds.2
  { pruned with
    unavailableUntilMs := pruned.unavailableUntilMs.set key (nowMs + backoffMs)
    backoffAttempts := pruned.backoffAttempts.set key (attempt + 1) }

/-- Milliseconds until the first of the agents becomes available, judged at `nowMs`. -/
def earliestUnavailableWaitMs (tracker : AgentUnavailabilityTracker) (phase : String) (nowMs : Int) : List String → Option Int → Int
  | [], minRemaining => max 0 (minRemaining.getD 0)
  | agent :: rest, minRemaining =>
    match tracker.unavailableUntilMs.get? (agentKey phase agent) with
    | none => 0
    | some untilMs =>
      if nowMs < untilMs then
        let remaining := untilMs - nowMs
        match minRemaining with
        | some best =>
          tracker.earliestUnavailableWaitMs phase nowMs rest
            (some (if remaining < best then remaining else best))
        | none => tracker.earliestUnavailableWaitMs phase nowMs rest (some remaining)
      else tracker.earliestUnavailableWaitMs phase nowMs rest minRemaining

end AgentUnavailabilityTracker

/-! ## Retry budgets -/

structure BudgetState where
  maxRetries : Nat
  consumed : Nat := 0
  deriving DecidableEq

def BudgetState.exhausted (budget : BudgetState) : Bool := budget.maxRetries ≤ budget.consumed

/-- `AgentBudgetRegistry.debit`: one more consumed retry, when the failure counts. -/
def debitBudget (registry : Dict (String × String) BudgetState) (phase agent : String)
    (failure : ClassifiedFailure) : Dict (String × String) BudgetState :=
  if failure.countsAgainstBudget then
    let current := registry.getD (phase, agent) { maxRetries := 3 }
    registry.set (phase, agent) { current with consumed := current.consumed + 1 }
  else registry

/-! ## Same-shape loops -/

def nextConsecutive {φ : Type} [DecidableEq φ] (fingerprint : φ) (prior : Option (φ × Nat)) : Nat :=
  match prior with
  | some (priorFingerprint, consecutive) => if fingerprint = priorFingerprint then consecutive + 1 else 1
  | none => 1

def brokenAgentSameShapeMessage (fingerprint : String × String) (consecutive limit : Nat) : String :=
  "BROKEN_AGENT_NO_FALLOVER: sole agent repeated broken-agent failure " ++
    s!"{consecutive} times (reason={pyRepr fingerprint.1}, agent={pyRepr fingerprint.2}, limit={limit})"

abbrev RetryFingerprint := String × String × Bool × Bool

def boolText (b : Bool) : String := if b then "True" else "False"

def sameShapeRetryMessage (fingerprint : RetryFingerprint) (consecutive limit : Nat) : String :=
  s!"same-shape retry loop exceeded: {consecutive} consecutive identical" ++
    " AgentInactivityTimeoutError resumes with fingerprint" ++
    s!" (fire_reason={pyRepr fingerprint.1}," ++
    s!" diagnostic_signature={pyRepr fingerprint.2.1}," ++
    s!" no_new_artifact_since_prior={boolText fingerprint.2.2.1}," ++
    s!" workspace_change_since_prior={boolText fingerprint.2.2.2});" ++
    s!" effective limit={limit}"

/-! ## The cycle cap -/

structure CycleCap where
  cap : Nat
  cap_pos : 1 ≤ cap

namespace CycleCap

def isExceeded (c : CycleCap) (count : Nat) : Bool := c.cap ≤ count

def exitReason (c : CycleCap) (count : Nat) (lastCategory lastReason : String) : String :=
  s!"recovery cycle cap {c.cap} exceeded after {count} recoveries; " ++
    s!"last failure category={lastCategory}: {lastReason}"

end CycleCap

/-! ## Cooldowns over a session

The tracker under a sequence of calls, with the clock as it stands at each of them.
-/

namespace AgentUnavailabilityTracker

variable (tracker : AgentUnavailabilityTracker)

def isAvailable (phase agent : String) (nowMs : Int) : Bool :=
  match tracker.unavailableUntilMs.get? (agentKey phase agent) with
  | none => true
  | some untilMs => untilMs ≤ nowMs

def resetBackoff (phase agent : String) : AgentUnavailabilityTracker :=
  { tracker with
    unavailableUntilMs := tracker.unavailableUntilMs.erase (agentKey phase agent)
    backoffAttempts := tracker.backoffAttempts.erase (agentKey phase agent) }

end AgentUnavailabilityTracker

inductive CooldownCall
  | markUnavailable (phase agent : String) (reason : Option UnavailabilityReason)
  | resetBackoff (phase agent : String)
  | pruneExpired
  | wait (ms : Nat)
  deriving DecidableEq

structure CooldownSession where
  tracker : AgentUnavailabilityTracker := {}
  nowMs : Int := 0

namespace CooldownSession

variable (s : CooldownSession)

def step : CooldownCall → CooldownSession
  | .markUnavailable phase agent reason => { s with tracker := s.tracker.markUnavailable phase agent reason s.nowMs }
  | .resetBackoff phase agent => { s with tracker := s.tracker.resetBackoff phase agent }
  | .pruneExpired => { s with tracker := s.tracker.pruneExpired s.nowMs }
  | .wait ms => { s with nowMs := s.nowMs + ms }

def run (calls : List CooldownCall) : CooldownSession := calls.foldl step s

def isAvailable (phase agent : String) : Bool := s.tracker.isAvailable phase agent s.nowMs

def earliestUnavailableWaitMs (phase : String) (agents : List String) : Int :=
  s.tracker.earliestUnavailableWaitMs phase s.nowMs agents none

end CooldownSession

def withoutPrunes (calls : List CooldownCall) : List CooldownCall :=
  calls.filter fun call => call ≠ .pruneExpired

end RalphWorkflow.Recovery

namespace RalphWorkflow.Recovery

open Lib Lib.Text Policy Pipeline


structure RecoveryController where
  cap : CycleCap
  classify : RawFailure → (phase : String) → (agent : Option String) → (connectivity : String) → ClassifiedFailure
  clock : Nat → Int
  reads : Nat := 0
  policyBundle : Option PolicyBundle := none
  technicalRetryCap : Nat := 10
  sameShapeLimit : Nat := 3
  brokenAgentSameShapeLimit : Nat := 2
  registry : Dict (String × String) BudgetState := ∅
  backoffAttempts : Dict String Nat := ∅
  sameShapeState : Dict String (RetryFingerprint × Nat × (Nat × Nat)) := ∅
  brokenAgentSameShapeState : Dict String ((String × String) × Nat) := ∅
  spentAgents : Dict String (List String) := ∅
  tracker : AgentUnavailabilityTracker := {}

namespace RecoveryController

/-! ## Clock and availability -/

def readClock (rc : RecoveryController) : Int × RecoveryController :=
  (rc.clock rc.reads, { rc with reads := rc.reads + 1 })

def isAgentAvailable (rc : RecoveryController) (phase agent : String) : Bool × RecoveryController :=
  match rc.tracker.unavailableUntilMs.get? (agentKey phase agent) with
  | none => (true, rc)
  | some untilMs =>
    let (nowMs, rc) := rc.readClock
    (untilMs ≤ nowMs, rc)

def anyAgentAvailable (rc : RecoveryController) (phase : String) : List String → Bool × RecoveryController
  | [] => (false, rc)
  | agent :: rest =>
    let (available, rc) := rc.isAgentAvailable phase agent
    if available then (true, rc) else rc.anyAgentAvailable phase rest

def agentsNowAvailable (rc : RecoveryController) (phase : String) : List String → List String × RecoveryController
  | [] => ([], rc)
  | agent :: rest =>
    let (available, rc) := rc.isAgentAvailable phase agent
    let (later, rc) := rc.agentsNowAvailable phase rest
    (if available then agent :: later else later, rc)

def earliestAvailableWaitMs (rc : RecoveryController) (phase : String) (agents : List String) : Int × RecoveryController :=
  let (anyAvailable, rc) := rc.anyAgentAvailable phase agents
  if anyAvailable then (0, rc)
  else
    let (nowMs, rc) := rc.readClock
    (rc.tracker.earliestUnavailableWaitMs phase nowMs agents none, rc)

def markAgentUnavailable (rc : RecoveryController) (phase agent : String) (reason : Option UnavailabilityReason) : RecoveryController :=
  let (nowMs, rc) := rc.readClock
  { rc with tracker := rc.tracker.markUnavailable phase agent reason nowMs }

def noteRetryExhaustion (rc : RecoveryController) (phase agent : String) : RecoveryController :=
  let spent := rc.spentAgents.getD phase []
  { rc with spentAgents := rc.spentAgents.set phase (if agent ∈ spent then spent else spent ++ [agent]) }

def dropKey {ν : Type} (d : Dict String ν) (key : String) : Dict String ν :=
  Dict.ofList (d.entries.filter fun e => e.1 != key)

def resetBackoff (rc : RecoveryController) (phase : String) (agent : Option String) : RecoveryController :=
  let key := match agent with
    | some name => if name = "" then phase else agentKey phase name
    | none => phase
  let rc := { rc with backoffAttempts := dropKey rc.backoffAttempts key, spentAgents := dropKey rc.spentAgents phase }
  match agent with
  | none => rc
  | some name =>
    let trackerKey := agentKey phase name
    { rc with tracker := { rc.tracker with
        unavailableUntilMs := dropKey rc.tracker.unavailableUntilMs trackerKey
        backoffAttempts := dropKey rc.tracker.backoffAttempts trackerKey } }

/-! ## Priority selection -/

/-- The loop of `preferred_agent_index`: the first agent available, off cooldown and not spent. -/
def preferredAgentFrom (rc : RecoveryController) (phase : String) (nowMs : Int) (currentIndex : Option Nat)
    (currentAllowanceSpent : Bool) : List String → Nat → Option Nat × RecoveryController
  | [], _ => (none, rc)
  | agent :: rest, index =>
    let cooldownMs : Int := match rc.tracker.unavailableUntilMs.get? (agentKey phase agent) with
      | some untilMs => max 0 (untilMs - nowMs)
      | none => 0
    let (available, rc) := rc.isAgentAvailable phase agent
    let spent := agent ∈ rc.spentAgents.getD phase [] || (some index == currentIndex && currentAllowanceSpent)
    let (later, rc) := rc.preferredAgentFrom phase nowMs currentIndex currentAllowanceSpent rest (index + 1)
    (if available && decide (cooldownMs ≤ 0) && !spent then some index else later, rc)

def preferredAgentIndex (rc : RecoveryController) (phase : String) (agents : List String)
    (currentIndex : Option Nat) (currentAllowanceSpent : Bool) : Option Nat × RecoveryController :=
  let (nowMs, rc) := rc.readClock
  rc.preferredAgentFrom phase nowMs currentIndex currentAllowanceSpent agents 0

/-! ## Same-shape bounds -/

def checkBrokenAgentSameShapeBound (rc : RecoveryController) (phase : String) (agent : Option String)
    (failure : ClassifiedFailure) (chain : Option AgentChainState) : Option String × RecoveryController :=
  match agent, chain, failure.originalException with
  | some agent, some chain, some exc =>
    if chain.agents.length = 1 ∧ exc.typeName = "BrokenAgentExitError" then
      match exc.reason with
      | none => (none, rc)
      | some brokenReason =>
        let fingerprint := (brokenReason, agent)
        let consecutive := nextConsecutive fingerprint (rc.brokenAgentSameShapeState.get? phase)
        if rc.brokenAgentSameShapeLimit ≤ consecutive then
          (some (brokenAgentSameShapeMessage fingerprint consecutive rc.brokenAgentSameShapeLimit), rc)
        else
          (none, { rc with brokenAgentSameShapeState :=
                    rc.brokenAgentSameShapeState.set phase (fingerprint, consecutive) })
    else (none, rc)
  | _, _, _ => (none, rc)

def checkSameShapeBound (rc : RecoveryController) (phase : String) (failure : ClassifiedFailure)
    (state : PipelineState) : Option String × RecoveryController :=
  match failure.watchdogReason with
  | none => (none, rc)
  | some watchdogReason =>
    if failure.category ≠ .agent then (none, rc)
    else
      let key := agentKey phase watchdogReason
      let prior := rc.sameShapeState.get? key
      let currentMetrics := (state.metrics.totalRetries, state.metrics.totalAgentCalls)
      let noNewArtifact := currentMetrics == (prior.map fun p => p.2.2).getD currentMetrics
      let fingerprint : RetryFingerprint := (watchdogReason, failure.reason, noNewArtifact, noNewArtifact)
      let consecutive := nextConsecutive fingerprint (prior.map fun p => (p.1, p.2.1))
      if rc.sameShapeLimit ≤ consecutive then
        (some (sameShapeRetryMessage fingerprint consecutive rc.sameShapeLimit), rc)
      else
        (none, { rc with sameShapeState := rc.sameShapeState.set key (fingerprint, consecutive, currentMetrics) })

/-! ## Retry delays and limits -/

def computeBackoffMs (baseMs attempt : Nat) : Nat := min (baseMs * 2 ^ attempt) 30000

def chainConfigForPhase (rc : RecoveryController) (phase : String) : Option AgentChainConfig :=
  rc.policyBundle.bind fun bundle =>
    let drainName := match bundle.pipeline.phases.get? phase with
      | some phaseDef => phaseDef.drain
      | none => phase
    (bundle.agents.agentDrains.get? drainName).bind fun drain => bundle.agents.agentChains.get? drain.chain

def computeRetryDelay (rc : RecoveryController) (phase agent : String) : Nat :=
  match rc.chainConfigForPhase phase with
  | none => 0
  | some chainConfig =>
    let key := if agent = "" then phase else agentKey phase agent
    computeBackoffMs chainConfig.retryDelayMs (rc.backoffAttempts.getD key 0)

def getMaxRetriesForChain (rc : RecoveryController) (phase : String) : Nat :=
  match rc.chainConfigForPhase phase with
  | some chainConfig => chainConfig.maxRetries
  | none => 3

/-! ## Transitions of the state -/

/-- What a controller method returns or raises, with the controller it leaves behind. -/
structure Outcome where
  controller : RecoveryController
  result : Except PyError (PipelineState × List Effect)

def enterPhaseFailed (rc : RecoveryController) (state : PipelineState) (reason : String)
    (category : FailureCategory) : RecoveryController × Except PyError PipelineState :=
  match rc.policyBundle with
  | none => (rc, .error (.runtimeError
      ("_enter_phase_failed requires policy_bundle to be set on the controller. " ++
        "Without policy, the runtime cannot determine the failure route. " ++
        "Set policy_bundle when constructing RecoveryController.")))
  | some bundle =>
    ({ rc with spentAgents := dropKey rc.spentAgents state.phase },
      .ok { advancePhase state bundle.pipeline.recovery.failedRoute bundle.pipeline with
            lastError := some reason
            recoveryEpoch := state.recoveryEpoch + 1
            lastFailureCategory := some category.name
            lastRetryDelayMs := 0 })

def capExit (rc : RecoveryController) (state : PipelineState) (failure : ClassifiedFailure) : Except PyError (PipelineState × List Effect) := do
  let exit ← exitFailureEffect
    (rc.cap.exitReason state.recoveryCycleCount failure.category.name (takeText 200 failure.reason))
  .ok ({ state with lastRetryDelayMs := 0 }, [exit])

def applyChainRetry (state : PipelineState) (phase : String) (chain : AgentChainState) (retryInSession : Bool) : PipelineState :=
  let retried := state.withPhaseChain phase chain.withRetryIncrement
  match state.lastAgentSessionId with
  | some sessionId =>
    if h : retryInSession = true ∧ sessionId ≠ "" then
      { retried with agentRetryIntent := resumeAgentRetryIntent sessionId h.2 "" }
    else { retried with agentRetryIntent := clearedAgentRetryIntent }
  | none => { retried with agentRetryIntent := clearedAgentRetryIntent }

/-- The watchdog kill that must be resumed in place even on another agent. -/
def preservedSessionId (failure : ClassifiedFailure) : Option String :=
  if failure.watchdogReason = some "no_output_at_start" then
    match failure.resumableSessionId with
    | some sessionId => if sessionId = "" then none else some sessionId
    | none => none
  else none

def applyFallover (state : PipelineState) (phase : String) (chain : AgentChainState) (currentAgent : Option String)
    (failure : ClassifiedFailure) (index : Nat) (nextAgent : String) : PipelineState :=
  let moved := state.withPhaseChain phase { agents := chain.agents, currentIndex := index, retries := 0 }
  PipelineState.withFalloverRecord
    { moved with
      lastRetryDelayMs := 0
      lastAgentSessionId := preservedSessionId failure
      agentRetryIntent := clearedAgentRetryIntent }
    { phase := phase, fromAgent := nameOr s!"agent[{chain.currentIndex}]", toAgent := nextAgent }
where
  /-- `current_agent or default`. -/
  nameOr (default : String) : String :=
    match currentAgent with
    | some name => if name = "" then default else name
    | none => default

def waitingReason (failure : ClassifiedFailure) : String :=
  let last := match failure.unavailabilityReason with
    | some reason => reason.name
    | none => "unknown"
  s!"all agents unavailable (last reason: {last}); waiting for cooldown expiry"

def applyWait (rc : RecoveryController) (state : PipelineState) (phase : String) (chain : AgentChainState)
    (failure : ClassifiedFailure) : Outcome :=
  let (waitMs, rc) := rc.earliestAvailableWaitMs phase chain.agents
  { controller := rc,
    result := .ok ({ state with
      lastError := some (waitingReason failure)
      lastRetryDelayMs := waitMs
      isWaitingState := true }, []) }

/-- Give the phase up: count a recovery cycle, route to the failure phase, and exit when the cap is reached. -/
def exhaustChain (rc : RecoveryController) (state : PipelineState) (failure : ClassifiedFailure) : Outcome :=
  let counted := { state with recoveryCycleCount := state.recoveryCycleCount + 1 }
  match rc.enterPhaseFailed counted failure.reason failure.category with
  | (rc, .error e) => { controller := rc, result := .error e }
  | (rc, .ok failedState) =>
    if rc.cap.isExceeded failedState.recoveryCycleCount then
      { controller := rc, result := rc.capExit failedState failure }
    else { controller := rc, result := .ok (failedState, []) }

/-- The agent has used up its attempts: its budget where one is kept, else the retry limit. -/
def allowanceSpent (rc : RecoveryController) (phase : String) (chain : AgentChainState) (agent : Option String)
    (maxRetries : Nat) (useBudget : Bool) : Bool :=
  match if useBudget then agent.bind fun name => rc.registry.get? (phase, name) else none with
  | some budget => budget.exhausted
  | none => decide (maxRetries ≤ chain.retries)

def noteIfSpent (rc : RecoveryController) (phase : String) (agent : Option String) (spent : Bool) : RecoveryController :=
  match agent with
  | some name => if spent then rc.noteRetryExhaustion phase name else rc
  | none => rc

def selectAgent (rc : RecoveryController) (phase : String) (chain : AgentChainState) (agent : Option String)
    (maxRetries : Nat) (useBudget : Bool) : Option Nat × RecoveryController :=
  let spent := rc.allowanceSpent phase chain agent maxRetries useBudget
  (rc.noteIfSpent phase agent spent).preferredAgentIndex phase chain.agents (some chain.currentIndex) spent

/-- Retry, fall over, wait or give up, by priority selection. -/
def handleRetryProgression (rc : RecoveryController) (state : PipelineState) (failure : ClassifiedFailure)
    (phase : String) (agent : Option String) (retryInSession : Bool) (maxRetries : Nat) (useBudget : Bool) :
    Outcome :=
  match state.chainForPhase phase with
  | none => { controller := rc, result := .ok (state, []) }
  | some chain =>
    let currentAgent := firstAgent agent chain
    match rc.selectAgent phase chain currentAgent maxRetries useBudget with
    | (some index, rc) =>
      if index = chain.currentIndex then
        { controller := rc, result := .ok (applyChainRetry state phase chain retryInSession, []) }
      else match chain.agents[index]? with
        | some nextAgent =>
          { controller := rc,
            result := .ok (applyFallover state phase chain currentAgent failure index nextAgent, []) }
        | none => { controller := rc, result := .error .indexError }
    | (none, rc) =>
      let (anyAvailable, rc) := rc.anyAgentAvailable phase chain.agents
      if anyAvailable then rc.exhaustChain state failure else rc.applyWait state phase chain failure
where
  /-- `agent or chain.agents[chain.current_index]`. -/
  firstAgent (agent : Option String) (chain : AgentChainState) : Option String :=
    match agent with
    | some name => if name = "" then chain.currentAgent else some name
    | none => chain.currentAgent

/-! ## Handling a failure -/

def noteFailure (state : PipelineState) (failure : ClassifiedFailure) (retryDelayMs : Nat) : PipelineState :=
  { state with
    lastFailureCategory := some failure.category.name
    lastRetryDelayMs := retryDelayMs
    isWaitingState := false }

def failPhase (rc : RecoveryController) (state : PipelineState) (reason : String) (category : FailureCategory) : Outcome :=
  match rc.enterPhaseFailed state reason category with
  | (rc, .error e) => { controller := rc, result := .error e }
  | (rc, .ok failedState) => { controller := rc, result := .ok (failedState, []) }

def noteSession (state : PipelineState) (failure : ClassifiedFailure) (retryInSession : Bool) : PipelineState :=
  if failure.resetSession then
    { state with lastAgentSessionId := none, agentRetryIntent := clearedAgentRetryIntent }
  else match failure.resumableSessionId with
    | some sessionId =>
      if retryInSession && sessionId != "" then { state with lastAgentSessionId := some sessionId } else state
    | none => state

def debitAgent (rc : RecoveryController) (phase agent : String) (failure : ClassifiedFailure) : RecoveryController :=
  let rc := { rc with registry := debitBudget rc.registry phase agent failure }
  if failure.countsAgainstBudget then
    let key := agentKey phase agent
    { rc with backoffAttempts := rc.backoffAttempts.set key (rc.backoffAttempts.getD key 0 + 1) }
  else rc

/-- The cap check at the end of the agent path: an exit replaces whatever progression decided. -/
def enforceCap (outcome : Outcome) (failure : ClassifiedFailure) : Outcome :=
  match outcome.result with
  | .error _ => outcome
  | .ok (state, _) =>
    if outcome.controller.cap.isExceeded state.recoveryCycleCount then
      { outcome with result := outcome.controller.capExit state failure }
    else outcome

def isTechnical : FailureCategory → Bool
  | .environmental | .artifactValidation | .ambiguous => true
  | .agent | .userConfig => false

def chargeAgent (rc : RecoveryController) (failure : ClassifiedFailure) (context : FailureContext) : RecoveryController :=
  match context.agent with
  | none => rc
  | some agent =>
    if failure.isUnavailable then rc.markAgentUnavailable context.phase agent failure.unavailabilityReason
    else rc.debitAgent context.phase agent failure

def noteUnavailability (state : PipelineState) (failure : ClassifiedFailure) (context : FailureContext) : PipelineState :=
  if failure.isUnavailable && context.agent.isSome then
    { state with lastUnavailabilityReason := failure.unavailabilityReason.map UnavailabilityReason.name }
  else state

/-- The text of the bound that fired, by the metrics `handle` was called with. -/
def sameShapeBound (rc : RecoveryController) (original : PipelineState) (failure : ClassifiedFailure)
    (context : FailureContext) (chain : Option AgentChainState) : Option String × RecoveryController :=
  match rc.checkBrokenAgentSameShapeBound context.phase context.agent failure chain with
  | (some text, rc) => (some text, rc)
  | (none, rc) =>
    if context.retryInSession then rc.checkSameShapeBound context.phase failure original else (none, rc)

def handleAgentFailure (rc : RecoveryController) (original noted : PipelineState) (failure : ClassifiedFailure)
    (context : FailureContext) (chain : Option AgentChainState) : Outcome :=
  let noted := noteSession (noteUnavailability noted failure context) failure context.retryInSession
  match (rc.chargeAgent failure context).sameShapeBound original failure context chain with
  | (some text, rc) => rc.failPhase noted text failure.category
  | (none, rc) =>
    enforceCap
      (rc.handleRetryProgression noted failure context.phase context.agent context.retryInSession
        (rc.getMaxRetriesForChain context.phase) true)
      failure

def handle (rc : RecoveryController) (state : PipelineState) (rawFailure : RawFailure) (context : FailureContext) : Outcome :=
  let failure := context.classifiedFailure.getD
    (rc.classify rawFailure context.phase context.agent state.lastConnectivityState)
  let chain := state.chainForPhase context.phase
  let retryDelayMs := match chain, context.agent with
    | some _, some agent =>
      if failure.countsAgainstBudget && !failure.isUnavailable then rc.computeRetryDelay context.phase agent else 0
    | _, _ => 0
  let noted := noteFailure state failure retryDelayMs
  if isTechnical failure.category then
    rc.handleRetryProgression { noted with lastError := some failure.reason } failure context.phase context.agent
      context.retryInSession rc.technicalRetryCap false
  else if failure.category = .userConfig then rc.failPhase noted failure.reason failure.category
  else rc.handleAgentFailure state noted failure context chain

end RecoveryController

end RalphWorkflow.Recovery
