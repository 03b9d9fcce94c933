import AwesomeAgent.Agent.CitationCollection
import AwesomeAgent.Agent.CitedAnswers
import AwesomeAgent.Agent.ToolProtocol
import AwesomeAgent.Application.ExportSizes
import AwesomeAgent.Application.Readiness
import AwesomeAgent.Changes.BatchCapacity
import AwesomeAgent.Changes.Inverse
import AwesomeAgent.Changes.MutationRecovery
import AwesomeAgent.Changes.NetEffect
import AwesomeAgent.Changes.OperationAtomicity
import AwesomeAgent.Changes.ScopeSafety
import AwesomeAgent.Composer.Editing
import AwesomeAgent.Composer.Layout
import AwesomeAgent.Context.Compaction
import AwesomeAgent.Context.ExplicitPaths
import AwesomeAgent.Context.Packing
import AwesomeAgent.Conversations.CursorTraversal
import AwesomeAgent.Conversations.Invariants
import AwesomeAgent.Conversations.StorableTitles
import AwesomeAgent.Events.Delivery
import AwesomeAgent.Interactions.Resolution
import AwesomeAgent.Mcp.ManagerRuns
import AwesomeAgent.Mcp.Rendering
import AwesomeAgent.Mcp.SchemaClosure
import AwesomeAgent.Memory.DocumentEdits
import AwesomeAgent.Modeling.Chunking
import AwesomeAgent.Modeling.RetryAccounting
import AwesomeAgent.Operations.Lifecycle
import AwesomeAgent.PendingInputs.KeptInputs
import AwesomeAgent.Protocol.Framing
import AwesomeAgent.Protocol.Session
import AwesomeAgent.Providers.CredentialAtomicity
import AwesomeAgent.Providers.ModelAtomicity
import AwesomeAgent.Skills.Delimiters
import AwesomeAgent.Storage.MigrationOutcomes
import AwesomeAgent.Storage.StateReset
import AwesomeAgent.Storage.WorkerSettlement
import AwesomeAgent.Surface.DeltaBatching
import AwesomeAgent.Surface.Hydration
import AwesomeAgent.Surface.StaleThreads
import AwesomeAgent.Tools.EditFile
import AwesomeAgent.Tools.FetchGuard
import AwesomeAgent.Tools.GlobRoot
import AwesomeAgent.Tools.ReadPages
import AwesomeAgent.Tools.RegistryUpdates
import AwesomeAgent.Tools.ToolGating
