import CorpusKit.Library.Arrival
import CorpusKit.Library.Avoidance
import CorpusKit.Library.Base64
import CorpusKit.Library.Confinement
import CorpusKit.Library.Csv
import CorpusKit.Library.Decimal
import CorpusKit.Library.Effects
import CorpusKit.Library.Files
import CorpusKit.Library.Frame
import CorpusKit.Library.Framing
import CorpusKit.Library.Journal
import CorpusKit.Library.Json
import CorpusKit.Library.JsonEquality
import CorpusKit.Library.JsonBytes
import CorpusKit.Library.JsonReader
import CorpusKit.Library.Lines
import CorpusKit.Library.Machine
import CorpusKit.Library.Options
import CorpusKit.Library.Paging
import CorpusKit.Library.Program
import CorpusKit.Library.Rules
import CorpusKit.Library.Script
import CorpusKit.Library.Shell
import CorpusKit.Library.ShellWords
import CorpusKit.Library.Solo
import CorpusKit.Library.Table
import CorpusKit.Library.Transaction
import CorpusKit.Library.Words
import CorpusKit.Domain.Artifacts
import CorpusKit.Domain.AuditHash
import CorpusKit.Domain.CliParity
import CorpusKit.Domain.Corpora
import CorpusKit.Domain.Datg
import CorpusKit.Domain.Documents
import CorpusKit.Domain.Errors
import CorpusKit.Domain.Jobs
import CorpusKit.Domain.Manifests
import CorpusKit.Domain.ModelRuntime
import CorpusKit.Domain.Platform
import CorpusKit.Domain.RunSpecs
import CorpusKit.Persistence.Cancellations
import CorpusKit.Persistence.Changes
import CorpusKit.Persistence.Evidence
import CorpusKit.Persistence.Evolution
import CorpusKit.Persistence.FilesystemStore
import CorpusKit.Persistence.History
import CorpusKit.Persistence.Invariants
import CorpusKit.Persistence.Ledger
import CorpusKit.Persistence.Lifecycle
import CorpusKit.Persistence.Models
import CorpusKit.Persistence.ObjectStore
import CorpusKit.Persistence.Storage
import CorpusKit.Persistence.Progress
import CorpusKit.Persistence.S3Listing
import CorpusKit.Persistence.Rows
import CorpusKit.Persistence.RunLog
import CorpusKit.Persistence.Session
import CorpusKit.Services.Artifacts
import CorpusKit.Services.AuditChain
import CorpusKit.Services.CliParity
import CorpusKit.Services.Datg
import CorpusKit.Services.Exports
import CorpusKit.Services.Filenames
import CorpusKit.Services.Jobs
import CorpusKit.Services.ModelRuntime
import CorpusKit.Services.Platform
import CorpusKit.Services.Projects
import CorpusKit.Services.RateLimits
import CorpusKit.Services.Reproducibility
import CorpusKit.Services.RunQueries
import CorpusKit.Services.SpecIntegrity
import CorpusKit.Adapters.Candidates
import CorpusKit.Adapters.DatgIndex
import CorpusKit.Adapters.HostedBudget
import CorpusKit.Adapters.Snapshots
import CorpusKit.Adapters.SourceRepository
import CorpusKit.Workflows.Progress
import CorpusKit.Workflows.ProcessMessages
import CorpusKit.Workflows.RepositoryGeneration
import CorpusKit.Workflows.Store
import CorpusKit.Workflows.TrustedInputs
import CorpusKit.Maintenance.Sweep
import CorpusKit.Maintenance.Runner
import CorpusKit.System.Chains
import CorpusKit.Auth.Verifier
import CorpusKit.Services.CorpusQueries
import CorpusKit.Library.Pacing
import CorpusKit.Web.RunEvents
import CorpusKit.Web.Service
import CorpusKit.Web.Sessions
import CorpusKit.Web.Transactions
import CorpusKit.Refinement.Content
import CorpusKit.Refinement.Lineage
import CorpusKit.Refinement.Provenance
import CorpusKit.Refinement.Runs
import CorpusKit.Refinement.Statements
import CorpusKit.Refinement.Submissions
import CorpusKit.Refinement.Usage
import CorpusKit.Refinement.Scopes
import CorpusKit.Refinement.Tenancy
import CorpusKit.Refinement.Workspaces
import CorpusKit.System.Contract
import CorpusKit.System.Machine
import CorpusKit.System.Obligations
import CorpusKit.System.Programs
import CorpusKit.System.World
import CorpusKit.Properties.Cancellation
import CorpusKit.Properties.Access
import CorpusKit.Properties.Adoptions
import CorpusKit.Properties.AuditedStates
import CorpusKit.Properties.Authentication
import CorpusKit.Properties.Candidates
import CorpusKit.Properties.CliCommands
import CorpusKit.Properties.CliOptions
import CorpusKit.Properties.CliPreviews
import CorpusKit.Properties.Corpora
import CorpusKit.Properties.CorpusReads
import CorpusKit.Properties.CorpusFiles
import CorpusKit.Properties.DatgIndexes
import CorpusKit.Properties.Deletion
import CorpusKit.Properties.EventFeeds
import CorpusKit.Properties.Filenames
import CorpusKit.Properties.FilesystemStore
import CorpusKit.Properties.Finishing
import CorpusKit.Properties.GenerationProgress
import CorpusKit.Properties.HostedBudget
import CorpusKit.Properties.Lineage
import CorpusKit.Properties.LoginTransactions
import CorpusKit.Properties.Maintenance
import CorpusKit.Properties.Provenance
import CorpusKit.Properties.QuotaLedger
import CorpusKit.Properties.QuotaPolicy
import CorpusKit.Properties.Reclamation
import CorpusKit.Properties.ReplayOutputs
import CorpusKit.Properties.Replays
import CorpusKit.Properties.Retention
import CorpusKit.Properties.Manifests
import CorpusKit.Properties.ModelCache
import CorpusKit.Properties.Outbox
import CorpusKit.Properties.ProcessMessages
import CorpusKit.Properties.Progress
import CorpusKit.Properties.RateLimits
import CorpusKit.Properties.RunLogs
import CorpusKit.Properties.RunSpecs
import CorpusKit.Properties.S3Listing
import CorpusKit.Properties.SessionRecords
import CorpusKit.Properties.Snapshots
import CorpusKit.Properties.SourceRepository
import CorpusKit.Properties.StoredObjects
import CorpusKit.Properties.Submissions
import CorpusKit.Properties.Tenancy
import CorpusKit.Properties.TrustedInputs
import CorpusKit.Domain.ManifestJson
