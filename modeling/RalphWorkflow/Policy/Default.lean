import RalphWorkflow.Policy.Validators

/-! `ralph/policy/defaults/pipeline.toml`, as the loader compiles its block graph: one phase for each individual
block, in the order of the document, and lifecycle metadata for the completion phase of the group block. -/
namespace RalphWorkflow.Policy.Default
open Lib

/-! ## Phases -/

def planning : PhaseDefinition where
  drain := "planning"
  role := some .execution
  transitions := { onSuccess := "planning_analysis" }

def planningAnalysis : PhaseDefinition where
  drain := "planning_analysis"
  role := some .analysis
  transitions := { onSuccess := "development", onLoopback := some "planning" }
  loopPolicy := some { iterationStateField := "planning_analysis_iteration" }
  decisions := ⟨[("completed", { target := "development", resetLoop := true }),
    ("request_changes", { target := "planning" }),
    ("failed", { target := "planning" })], by decide⟩

def development : PhaseDefinition where
  drain := "development"
  role := some .execution
  transitions := { onSuccess := "development_commit_cleanup", onLoopback := some "development" }
  parallelization := some { dispatchMode := .agentSubagents }

/-- Both commit-cleanup phases: they differ only in the commit they lead to and in their own name. -/
def commitCleanup (name commitPhase : String) : PhaseDefinition where
  drain := "commit"
  role := some .commitCleanup
  transitions := { onSuccess := commitPhase, onFailure := some commitPhase, onLoopback := some name }
  loopPolicy := some { iterationStateField := "commit_cleanup_iteration" }

def developmentCommitCleanup : PhaseDefinition := commitCleanup "development_commit_cleanup" "development_commit"

def developmentCommit : PhaseDefinition where
  drain := "development_commit"
  role := some .commit
  transitions := { onSuccess := "development_analysis", onFailure := some "failed_terminal" }
  commitPolicy := some { skippedAdvancesProgress := false, loopResets := ["commit_cleanup_iteration"] }

def developmentAnalysis : PhaseDefinition where
  drain := "development_analysis"
  role := some .analysis
  transitions := { onSuccess := "development_final_commit_cleanup", onLoopback := some "development" }
  invocationGate := some { upstreamExecutionPhase := "development", minimumElapsedSeconds := 900, alwaysInvokeStatuses := ["partial", "failed"] }
  loopPolicy := some { iterationStateField := "development_analysis_iteration" }
  decisions := ⟨[("completed", { target := "development_final_commit_cleanup", resetLoop := true, cycleOutcome := some .completed }),
    ("request_changes", { target := "development" }),
    ("failed", { target := "development_final_commit_cleanup", resetLoop := true, cycleOutcome := some .failed })], by decide⟩

def developmentFinalCommitCleanup : PhaseDefinition :=
  commitCleanup "development_final_commit_cleanup" "development_final_commit"

def developmentFinalCommit : PhaseDefinition where
  drain := "development_commit"
  role := some .commit
  transitions := { onSuccess := "complete", onFailure := some "failed_terminal" }
  commitPolicy := some { skippedAdvancesProgress := true, incrementsCounter := some "iteration",
                         loopResets := ["development_analysis_iteration", "commit_cleanup_iteration"] }

def terminal (name : String) (outcome : TerminalOutcome) : PhaseDefinition where
  drain := name
  role := some .terminal
  terminalOutcome := some outcome
  transitions := { onSuccess := name, onLoopback := some name }

def complete : PhaseDefinition := terminal "complete" .success

def failedTerminal : PhaseDefinition := terminal "failed_terminal" .failure

/-! ## The document -/

def finalCommitRoute (budgetState : BudgetLabel) (outcome : CycleOutcome) (target : String) : PostCommitRoute where
  when := { phase := "development_final_commit", budgetState := budgetState, cycleOutcome := some outcome }
  target := target

def cycleTimebox : CycleTimeboxPolicy where
  durationSeconds := 7200
  duration_pos := by decide +kernel
  startSource := "planning_analysis"
  startEntry := "development"
  guardedEntry := "development"
  endEntry := "development_final_commit_cleanup"
  finalizationTarget := "development_final_commit_cleanup"
  finalizationCycleOutcome := .completed

def pipeline : PipelinePolicy where
  phases := ⟨[("planning", planning), ("planning_analysis", planningAnalysis), ("development", development),
    ("development_commit_cleanup", developmentCommitCleanup), ("development_commit", developmentCommit),
    ("development_analysis", developmentAnalysis),
    ("development_final_commit_cleanup", developmentFinalCommitCleanup),
    ("development_final_commit", developmentFinalCommit), ("complete", complete),
    ("failed_terminal", failedTerminal)], by decide⟩
  entryPhase := "planning"
  terminalPhase := "complete"
  loopCounters := ⟨[("development_analysis_iteration", { defaultMax := 5 }),
    ("planning_analysis_iteration", { defaultMax := 3 }), ("commit_cleanup_iteration", { defaultMax := 3 }),
    ("commit_cleanup_identity", { defaultMax := 3 })], by decide⟩
  budgetCounters := ⟨[("iteration", { tracksBudget := true, defaultMax := 5 })], by decide⟩
  postCommitRoutes := [finalCommitRoute .remaining .completed "planning",
    finalCommitRoute .exhausted .completed "complete", finalCommitRoute .noReview .completed "complete",
    finalCommitRoute .remaining .failed "planning", finalCommitRoute .exhausted .failed "failed_terminal",
    finalCommitRoute .noReview .failed "failed_terminal"]
  lifecyclePhases := ⟨[("development_final_commit",
    { incrementsCounter := some "iteration",
      loopResets := ["development_analysis_iteration", "commit_cleanup_iteration"] })], by decide⟩
  recovery := { cycleCap := 200, failedRoute := "failed_terminal", terminalFailurePhase := some "failed_terminal" }
  cycleTimebox := some cycleTimebox

theorem pipeline_accepted : pipeline.Accepted := by decide +kernel

end RalphWorkflow.Policy.Default
