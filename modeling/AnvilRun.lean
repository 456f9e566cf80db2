import AnvilRun.Replacement
import AnvilRun.Masking
import AnvilRun.HoldBack
import AnvilRun.JsString
import AnvilRun.JsNumber
import AnvilRun.Json
import AnvilRun.JsonRoundTrip
import AnvilRun.Utf8
import AnvilRun.Lines
import AnvilRun.LogStream
import AnvilRun.AgentRedactor
import AnvilRun.ServerRedactor
import AnvilRun.TaskLogStorage
import AnvilRun.TaskLogCodec
import AnvilRun.TaskLogRoundTrip
import AnvilRun.ValidationPrimitives
import AnvilRun.FormSchema.FieldTypes
import AnvilRun.FormSchema.Validate
import AnvilRun.FormSchema.Values
import AnvilRun.FormSchema.Idempotence
import AnvilRun.FormSchema.FileFields
import AnvilRun.SensitiveValues
import AnvilRun.Fallible
import AnvilRun.Table
import AnvilRun.TaskStatus
import AnvilRun.TaskDatabase
import AnvilRun.AgentRegistry
import AnvilRun.TaskQueue
import AnvilRun.TasksService
import AnvilRun.ArtifactsService
import AnvilRun.AgentGateway
import AnvilRun.TransitionSystem
import AnvilRun.ExclusiveSlot
import AnvilRun.ExecutionSlot
import AnvilRun.SlotPreservation
import AnvilRun.SlotSystem
import AnvilRun.TaskOperations
import AnvilRun.TaskMoves
import AnvilRun.TaskRuns
import AnvilRun.StatusHistory
import AnvilRun.RecoveryFields
import AnvilRun.ClaimCache
import AnvilRun.SlotPointer
import AnvilRun.ConnectionEndings
import AnvilRun.QueueEffects
import AnvilRun.WakeUps
import AnvilRun.AgentMessages
import AnvilRun.AgentIsolation
import AnvilRun.TerminalReports
import AnvilRun.Websocket.Agreement
import AnvilRun.LogBuffer.Queue
import AnvilRun.TaskInput.Once
import AnvilRun.TaskInputService.OneAtATime
import AnvilRun.ArtifactScan.Accepted
import AnvilRun.TaskLogSubscription.DeliveredOnce
import AnvilRun.ArtifactUploads.Integrity
import AnvilRun.ArtifactArchive.Recovered
import AnvilRun.ClaimOrder
import AnvilRun.ClientLogGateway
import AnvilRun.RefreshSessions
import AnvilRun.Preparation
import AnvilRun.ConfigFiles.Cleanup
import AnvilRun.Execution
import AnvilRun.Utf8.Reads
import AnvilRun.SortedLists
import AnvilRun.ArtifactUploads.Manifests
import AnvilRun.ArtifactUploads.Storable
import AnvilRun.GitBranches
import AnvilRun.LogBuffer.Retries
import AnvilRun.AgentRuntime
import AnvilRun.AgentMessages.StoredChunks
import AnvilRun.TaskLogSubscription.Retries
import AnvilRun.HelloReconciliation
import AnvilRun.AgentRuntime.ChunkSizes
import AnvilRun.TaskInput.LeaseTokens
import AnvilRun.RelativePaths
import AnvilRun.Websocket.Timestamps
import AnvilRun.FormSchema.ProtocolConfig
import AnvilRun.AgentRuntime.CanceledOutput
import AnvilRun.AgentRuntime.ReportedSuccess
import AnvilRun.AgentRuntime.LogSequence
import AnvilRun.TerminalAgreement
import AnvilRun.RecoveryHandshake
import AnvilRun.AccessControl
import AnvilRun.LoginRateLimiter
import AnvilRun.InputFiles
import AnvilRun.CommandRuns
import AnvilRun.FormSchema.SchemaAgreement
