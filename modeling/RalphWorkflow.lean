import RalphWorkflow.Proof.SpentBudget
import RalphWorkflow.Proof.CycleBoundary
import RalphWorkflow.Proof.CycleTimer
import RalphWorkflow.Proof.CycleDeadline
import RalphWorkflow.Proof.InvocationGate
import RalphWorkflow.Proof.CycleCap
import RalphWorkflow.Proof.LoopCaps
import RalphWorkflow.Proof.FailedVerdict
import RalphWorkflow.Proof.CommitEntry
import RalphWorkflow.Proof.FailureFlags
import RalphWorkflow.Proof.WorkflowFallback
import RalphWorkflow.Proof.CooldownWait
import RalphWorkflow.Proof.SamePhaseRecovery
import RalphWorkflow.Proof.ElapsedTime
import RalphWorkflow.Proof.FanOut.Resume
import RalphWorkflow.Proof.Integration.Budget
import RalphWorkflow.Proof.Integration.CrashRecovery
import RalphWorkflow.Proof.Integration.Ownership
import RalphWorkflow.Proof.Integration.StopLoop
import RalphWorkflow.Proof.Watchdog.WaitingCeiling
import RalphWorkflow.Proof.Watchdog.HeardAgents
import RalphWorkflow.Proof.Watchdog.ChildWait
import RalphWorkflow.Proof.Workspace.SharedAwareness
import RalphWorkflow.Proof.Explore.MarksKept
import RalphWorkflow.Proof.Explore.ContentCache
import RalphWorkflow.Proof.Explore.StoppedRuns
import RalphWorkflow.Proof.Explore.ScopedRuns
import RalphWorkflow.Proof.Explore.Generations
import RalphWorkflow.Proof.WireLedger.Appends
import RalphWorkflow.Proof.Sessions.EditAreas
import RalphWorkflow.Proof.ScopedAutoCommit
import RalphWorkflow.Proof.ExhaustedBypass
import RalphWorkflow.Proof.Resolution.FairRounds
import RalphWorkflow.Proof.Resolution.Verdict
import RalphWorkflow.Proof.Interrupt.ForcedExit
import RalphWorkflow.Proof.Prompts.SecretDiff
import RalphWorkflow.Proof.Display.SharedCapture
import RalphWorkflow.Proof.Mcp.ServerRestarts
import RalphWorkflow.Process.Shutdown
import RalphWorkflow.ProjectPolicy.PipelineDriver
import RalphWorkflow.Proof.Process.LiveRecords
import RalphWorkflow.Proof.Process.Strangers
import RalphWorkflow.Proof.Process.KilledRecords
import RalphWorkflow.Proof.SameShapeLoops
import RalphWorkflow.Proof.CooldownPruning
import RalphWorkflow.Proof.WatchdogCause
import RalphWorkflow.Proof.Parsers.ToolDispatch
import RalphWorkflow.Proof.Mcp.AnchoredEdits
import RalphWorkflow.Proof.Parsers.TranscriptPolls
import RalphWorkflow.Proof.Mcp.MarkdownLines
import RalphWorkflow.Proof.Parsers.PiBlocks
import RalphWorkflow.Proof.Parsers.ClaudeOnce
import RalphWorkflow.Proof.Parsers.SummaryLeaks
import RalphWorkflow.Proof.Explore.PathQuery
import RalphWorkflow.Proof.Explore.Neighbors
import RalphWorkflow.Proof.Mcp.HistoryOrder
import RalphWorkflow.Proof.Mcp.WriteGuard
import RalphWorkflow.Proof.Mcp.GitGuards
import RalphWorkflow.Proof.Mcp.ReceiptRuns
import RalphWorkflow.Mcp.SaturatedDispatch
import RalphWorkflow.Proof.Watchdog.Replays
import RalphWorkflow.Proof.Watchdog.SinkParity
import RalphWorkflow.Proof.Watchdog.Brackets
import RalphWorkflow.Agents.LinesQueue
import RalphWorkflow.Proof.CompletionLines
import RalphWorkflow.Display.CaptureCap
import RalphWorkflow.Workspace.ReadLines
