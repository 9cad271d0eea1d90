import Patchwright.Library.Runs
import Patchwright.Library.Table
import Patchwright.Core.GitHubActions
import Patchwright.Engine.Jobs
import Patchwright.Engine.Pagination
import Patchwright.Engine.Monitoring
import Patchwright.Engine.Store
import Patchwright.Engine.Delivery
import Patchwright.Engine.FingerprintBinding
import Patchwright.Codex.Process
import Patchwright.Engine.DeliveryOutcome
import Patchwright.Engine.Evidence
import Patchwright.Engine.CrashRecovery
import Patchwright.Engine.System
import Patchwright.Engine.History
import Patchwright.Engine.SyncJobs
import Patchwright.Engine.Verification
import Patchwright.Engine.Restarts
import Patchwright.Codex.Interruption
import Patchwright.Codex.TurnStatus
import Patchwright.Engine.WebhookAgreement
import Patchwright.Engine.MonitorRuns
import Patchwright.Engine.JobLedger
import Patchwright.Engine.KillSwitch
import Patchwright.Engine.PreparationClaims
import Patchwright.Relay.InboxRuns
import Patchwright.Codex.Redaction
import Patchwright.Codex.DecoderRuns
import Patchwright.Codex.StartFailures
import Patchwright.Codex.RuntimeApprovals
import Patchwright.Core.ActionBoundary
import Patchwright.Core.ContractSnapshots
import Patchwright.Core.QueueOrder
import Patchwright.Core.QueueScores
import Patchwright.Core.QueueDigests
import Patchwright.Core.WorkspaceFilters
import Patchwright.Core.Instructions
import Patchwright.Core.StoredTimestamps
import Patchwright.Engine.Conversion
import Patchwright.Engine.Migrations
import Patchwright.Engine.QueueIntake
import Patchwright.Engine.ReviewVerdicts
import Patchwright.Relay.GuardedWrites
import Patchwright.Relay.RequestPaths
import Patchwright.Workspace.EventSync
import Patchwright.Workspace.Transcript
import Patchwright.Workspace.Exchange
import Patchwright.Library.Outbox
import Patchwright.Engine.WebhookWakes
import Patchwright.Relay.Forwarding
import Patchwright.Relay.ForwardingPasses
