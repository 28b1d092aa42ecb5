import Agent33.Agents.BudgetCoverage
import Agent33.Agents.ConfinedChildren
import Agent33.Agents.DoomLoop
import Agent33.Agents.ErrorThreshold
import Agent33.Agents.HandoffWipe
import Agent33.Agents.IterationBudget
import Agent33.Agents.MalformedOutput
import Agent33.Agents.Pairing
import Agent33.Agents.Parity
import Agent33.Agents.Truncation
import Agent33.Agents.VerifiedOutput
import Agent33.Automation.WebhookDelivery
import Agent33.Autonomy.CheckSequences
import Agent33.Autonomy.PausedInvocations
import Agent33.Autonomy.Restart
import Agent33.Backup.AllOrNothing
import Agent33.Connectors.Accounting
import Agent33.Connectors.Backoff
import Agent33.Connectors.LateOutcomes
import Agent33.Execution.ProgrammaticToolChain
import Agent33.Hooks.Registry
import Agent33.Improvement.Generation
import Agent33.Ingestion.Exposure
import Agent33.Ingestion.JournalChain
import Agent33.Ingestion.Mailbox
import Agent33.Ingestion.ReviewGate
import Agent33.Llm.StreamingFallback
import Agent33.McpServer.ProxyRouting
import Agent33.Memory.Bm25
import Agent33.Memory.CompressionRounds
import Agent33.Memory.EmbeddingCache
import Agent33.Memory.Hybrid
import Agent33.Memory.RagPrompt
import Agent33.Memory.SessionLineage
import Agent33.Memory.SharedMemory
import Agent33.Memory.TokenChunker
import Agent33.Messaging.Pairing
import Agent33.Packs.Agreement
import Agent33.Packs.Conflicts
import Agent33.Packs.Curation
import Agent33.Packs.Resolution
import Agent33.Packs.Sessions
import Agent33.Plugins.Lifecycle
import Agent33.Plugins.Tenancy
import Agent33.Plugins.Version
import Agent33.Processes.Bookkeeping
import Agent33.Provenance.Receipts
import Agent33.Releases.Gate
import Agent33.Releases.Restart
import Agent33.Releases.SyncTargets
import Agent33.Review.Service
import Agent33.Scaling.LockExclusion
import Agent33.Security.TenantRateLimit
import Agent33.Sessions.Lineage
import Agent33.Tools.ApprovalBinding
import Agent33.Tools.FileOps
import Agent33.Tools.PatchAtomicity
import Agent33.Tools.PatchGrammar
import Agent33.Tools.PatchLines
import Agent33.Tools.PolicyPrecedence
import Agent33.Tools.RateLimits
import Agent33.Workflows.ArchivePages
import Agent33.Workflows.ArtifactNames
import Agent33.Workflows.Branches
import Agent33.Workflows.CycleReports
import Agent33.Workflows.Equivalence
import Agent33.Workflows.Migration
import Agent33.Workflows.Modes
import Agent33.Workflows.StateMachine
import Agent33.Workflows.WsBookkeeping
