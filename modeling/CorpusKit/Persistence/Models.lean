import CorpusKit.Domain.Platform
import CorpusKit.Library.Table
import CorpusKit.Workflows.Progress

/-! # Rows and tables

The columns the modelled services read or write. Primary keys are the keys of
the tables, so a row does not repeat its own. A uniqueness constraint on other
columns is checked where a row is inserted, and raises `Error.integrity`. -/

namespace CorpusKit

inductive Role
  | owner
  | admin
  | editor
  | viewer
  deriving DecidableEq, Repr

inductive ServiceIdentity
  | dispatcher
  | worker
  | adoption
  | maintenance
  | platform
  deriving DecidableEq, Repr

/-- A user joined with one membership. -/
structure Membership where
  organizationId : Uuid
  subject : String
  userId : Uuid
  role : Role
  deriving DecidableEq, Repr

/-- The lifecycle columns; the check constraint `lifecycle_consistent` leaves
exactly these combinations. -/
inductive ProjectLifecycle
  | active
  | deletionPending (requestedAt retentionUntil : Instant) (corpusSentences : Nat)
  deriving DecidableEq, Repr

structure Project where
  organizationId : Uuid
  createdBy : Uuid
  name : String
  lifecycle : ProjectLifecycle
  deriving DecidableEq, Repr

structure Corpus where
  organizationId : Uuid
  projectId : Uuid
  createdBy : Uuid
  name : String
  deriving DecidableEq, Repr

structure CorpusVersion where
  organizationId : Uuid
  corpusId : Uuid
  parentVersionId : Option Uuid
  createdBy : Uuid
  versionNumber : Nat
  language : String
  sentenceCount : Nat
  contentSha256 : Sha256
  deriving DecidableEq, Repr

/-- A sentence, keyed by its version and ordinal. -/
structure Sentence where
  organizationId : Uuid
  normalizedText : String
  deriving DecidableEq, Repr

/-- The projection of a result: the artifact that holds it, or other bounded JSON. -/
inductive ResultSummary
  | artifact (artifactId : Uuid) (mediaType schemaId : String) (sha256 : Sha256)
      (sizeBytes : Nat)
  | data (summary : String)
  deriving DecidableEq, Repr

structure Run where
  organizationId : Uuid
  projectId : Uuid
  corpusVersionId : Option Uuid
  parentRunId : Option Uuid
  createdBy : Uuid
  kind : RunKind
  state : RunState
  idempotencyKey : String
  attempt : Nat
  eventSequence : Nat
  spec : RunSpec
  specSha256 : Sha256
  resultSummary : Option ResultSummary
  failureCode : Option String
  cancellationRequestedAt : Option Instant
  deriving DecidableEq, Repr

/-- The keys an event payload may have. -/
structure EventPayload where
  state : Option RunState := none
  sourceRunId : Option Uuid := none
  sourceManifestId : Option Uuid := none
  resultSummary : Option ResultSummary := none
  failureCode : Option String := none
  activityAttempt : Option Nat := none
  progress : Option DurableRunProgress := none
  deriving DecidableEq, Repr

/-- An event, keyed by its run and sequence number. -/
structure RunEvent where
  organizationId : Uuid
  eventType : String
  payload : EventPayload
  deriving DecidableEq, Repr

inductive OutboxState
  | pending
  | claimed
  | published
  deriving DecidableEq, Repr

structure OutboxPayload where
  runId : Uuid
  kind : RunKind
  specSha256 : Sha256
  deriving DecidableEq, Repr

structure OutboxMessage where
  organizationId : Uuid
  runId : Uuid
  eventType : String
  payload : OutboxPayload
  state : OutboxState
  createdAt : Instant
  availableAt : Instant
  claimedAt : Option Instant
  claimedBy : Option String
  processedAt : Option Instant
  attempts : Nat
  lastErrorCode : Option String
  deriving DecidableEq, Repr

structure Artifact where
  organizationId : Uuid
  projectId : Uuid
  runId : Option Uuid
  createdBy : Uuid
  /-- The run, or the whole project. -/
  scopeKey : Option Uuid
  kind : ArtifactKind
  sha256 : Sha256
  sizeBytes : Nat
  storageKey : StorageKey
  mediaType : String
  filename : String
  state : ArtifactState
  retentionUntil : Instant
  tombstonedAt : Option Instant
  deletedAt : Option Instant
  deriving DecidableEq, Repr

structure DatgIndexPublication where
  organizationId : Uuid
  projectId : Uuid
  buildRunId : Uuid
  createdBy : Uuid
  cacheKeySha256 : Sha256
  contentSha256 : Sha256
  runtimeId : String
  language : String
  unit : String
  vocabularySize : Nat
  indexedTokenCount : Nat
  sizeBytes : Nat
  deriving DecidableEq, Repr

/-- Server-authored worker facts, as far as submission and manifests read them. -/
structure TrustedExecutionFacts where
  sha256 : Sha256
  corpuskitVersion : String
  corpusgenVersion : String
  inputArtifactIds : List Uuid
  determinism : DeterminismClass
  deriving DecidableEq, Repr

/-- A digest recorded for an execution input. -/
structure InputDigest where
  name : String
  sha256 : Sha256
  sizeBytes : Nat
  artifactId : Option Uuid
  deriving DecidableEq, Repr

structure RunExecutionFact where
  organizationId : Uuid
  projectId : Uuid
  facts : TrustedExecutionFacts
  factsSha256 : Sha256
  inputDigests : List InputDigest
  manifestArtifactId : Option Uuid
  manifestSha256 : Option Sha256
  deriving DecidableEq, Repr

structure RunReplay where
  organizationId : Uuid
  projectId : Uuid
  sourceRunId : Uuid
  sourceManifestArtifactId : Uuid
  expectedManifestSha256 : Sha256
  observedManifestArtifactId : Option Uuid
  classification : DeterminismClass
  createdBy : Uuid
  deriving DecidableEq, Repr

@[ext] structure QuotaUsage where
  activeCpuJobs : Nat := 0
  activeExpensiveJobs : Nat := 0
  artifactBytes : Nat := 0
  artifactCount : Nat := 0
  corpusSentences : Nat := 0
  deriving DecidableEq, Repr

structure QuotaReservation where
  organizationId : Uuid
  runId : Uuid
  quotaClass : RunQuotaClass
  state : QuotaReservationState
  expiresAt : Instant
  releasedAt : Option Instant
  deriving DecidableEq, Repr

inductive AuditIdentity
  | user (userId : Uuid)
  | service (identity : ServiceIdentity)
  deriving DecidableEq, Repr

def AuditIdentity.kind : AuditIdentity → AuditActorKind
  | .user _ => .user
  | .service _ => .service

inductive AuditValue
  | nat (value : Nat)
  | text (value : String)
  | id (value : Uuid)
  | digest (value : Sha256)
  | texts (values : List String)
  deriving DecidableEq, Repr

/-- An audit event, keyed by its organization and sequence number. -/
structure AuditEvent where
  actor : AuditIdentity
  action : AuditAction
  resourceType : AuditResourceType
  resourceId : Uuid
  requestId : Option String
  occurredAt : Instant
  details : List (String × AuditValue)
  deriving DecidableEq, Repr

/-- The database: every table, and the supply of fresh identifiers. -/
structure Db where
  nextId : Uuid := 0
  memberships : List Membership := []
  projects : Table Uuid Project := ∅
  corpora : Table Uuid Corpus := ∅
  corpusVersions : Table Uuid CorpusVersion := ∅
  sentences : Table (Uuid × Nat) Sentence := ∅
  runs : Table Uuid Run := ∅
  runEvents : Table (Uuid × Nat) RunEvent := ∅
  outboxMessages : Table Uuid OutboxMessage := ∅
  artifacts : Table Uuid Artifact := ∅
  datgIndexPublications : Table Uuid DatgIndexPublication := ∅
  runExecutionFacts : Table Uuid RunExecutionFact := ∅
  runReplays : Table Uuid RunReplay := ∅
  quotaPolicies : Table Uuid QuotaPolicyValues := ∅
  quotaUsages : Table Uuid QuotaUsage := ∅
  quotaReservations : Table Uuid QuotaReservation := ∅
  auditHeads : Table Uuid Nat := ∅
  auditEvents : Table (Uuid × Nat) AuditEvent := ∅

end CorpusKit
