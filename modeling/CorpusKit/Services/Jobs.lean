import CorpusKit.Services.Platform

/-! # Durable job control plane and transactional outbox

The transaction bodies of `JobControlPlane` and `TransactionalOutbox`: reads
that take no lock are bodies of their own, and each mutation is one body that
re-evaluates what it holds locks on. -/

namespace CorpusKit

open Transaction

structure JobActor where
  subject : String
  organizationId : Uuid
  requestId : Option String
  deriving DecidableEq, Repr

structure RunSubmission where
  projectId : Uuid
  kind : RunKind
  spec : RawSpec
  corpusVersionId : Option Uuid
  deriving DecidableEq, Repr

/-- The arguments of `_submit_in_session`. A retry names its source run and the
source's attempt number. -/
structure NewSubmission where
  organizationId : Uuid
  userId : Uuid
  requestId : Option String
  projectId : Uuid
  kind : RunKind
  corpusVersionId : Option Uuid
  spec : RunSpec
  specSha256 : Sha256
  idempotencyKey : String
  source : Option (Uuid × Nat)
  deriving DecidableEq, Repr

def NewSubmission.parentRunId (s : NewSubmission) : Option Uuid := s.source.map (·.1)

def NewSubmission.attempt (s : NewSubmission) : Nat :=
  match s.source with
  | some (_, attempt) => attempt + 1
  | none => 1

def NewSubmission.operation (s : NewSubmission) : String :=
  match s.source with
  | some _ => "run.retry"
  | none => "run.submit"

def NewSubmission.initialEventType (s : NewSubmission) : String :=
  match s.source with
  | some _ => "run.retry_submitted"
  | none => "run.submitted"

def NewSubmission.initialEventPayload (s : NewSubmission) : EventPayload :=
  match s.source with
  | some (sourceRunId, _) => { sourceRunId := some sourceRunId }
  | none => { state := some .queued }

structure SubmissionResult where
  runId : Uuid
  run : Run
  outboxState : OutboxState
  created : Bool
  deriving DecidableEq, Repr

/-- `_idempotency_key`: one to 128 printable ASCII characters without blanks. -/
def isIdempotencyKey (value : String) : Bool :=
  value != "" && decide (value.length ≤ 128) &&
    value.toList.all fun c => decide (33 ≤ c.toNat ∧ c.toNat ≤ 126)

def isWriter (role : Role) : Bool := role != .viewer

namespace JobControlPlane

/-! ## Reads -/

def actor (who : JobActor) : DbTx (Uuid × Role) := do
  let db ← get
  let row ← found (db.memberships.find? fun row =>
      row.subject == who.subject && row.organizationId == who.organizationId)
    (.resourceNotFound "run.identity")
  pure (row.userId, row.role)

/-- A run of a project that is not being deleted. -/
def activeRun (organizationId runId : Uuid) : DbTx Run := do
  let db ← get
  let run ← found (db.run? organizationId runId) (.resourceNotFound "run.get")
  require (db.activeProject organizationId run.projectId = true) (.resourceNotFound "run.get")
  pure run

/-- The version belongs to a corpus of the project. -/
def Db.versionInProject (db : Db) (organizationId projectId versionId : Uuid) :
    Option CorpusVersion := do
  let version ← db.corpusVersions.lookup versionId
  let corpus ← db.corpora.lookup version.corpusId
  if version.organizationId = organizationId ∧ corpus.projectId = projectId then some version
  else none

/-- `_submission_scope`. -/
def submissionScope (organizationId : Uuid) (submission : RunSubmission) : DbTx Unit := do
  let db ← get
  require (db.activeProject organizationId submission.projectId = true)
    (.resourceNotFound "run.submit")
  require (∀ versionId ∈ submission.corpusVersionId,
      (Db.versionInProject db organizationId submission.projectId versionId).isSome = true)
    (.resourceNotFound "run.submit")

def dispatchState (runId : Uuid) : DbTx OutboxState := do
  let db ← get
  let messages := db.outboxMessages.select fun _ message =>
    message.runId == runId && message.eventType == "run.dispatch"
  let latest := messages.insertionSort fun a b =>
    b.2.createdAt < a.2.createdAt ∨ (b.2.createdAt = a.2.createdAt ∧ b.1 ≤ a.1)
  let message ← found latest.head? (.runtime "run has no durable dispatch intent")
  pure message.2.state

/-- `_same_submission`. -/
def sameSubmission (run : Run) (s : NewSubmission) : DbTx Unit :=
  require (run.kind = s.kind ∧ run.projectId = s.projectId ∧
      run.corpusVersionId = s.corpusVersionId ∧ run.parentRunId = s.parentRunId ∧
      run.specSha256 = s.specSha256)
    (.resourceConflict "run.idempotency")

/-- The answer for a key that already has a run, if it has one. -/
def existingSubmission (s : NewSubmission) : DbTx (Option SubmissionResult) := do
  let db ← get
  match db.idempotentRun s.organizationId s.idempotencyKey with
  | none => pure none
  | some (runId, run) =>
    sameSubmission run s
    let outboxState ← dispatchState runId
    pure (some ⟨runId, run, outboxState, false⟩)

/-- `_authorize_datg_index`. -/
def authorizeDatgIndex (s : NewSubmission) : DbTx Unit := do
  if s.kind = .generateDatg then
    match s.spec.request with
    | .datgGeneration request => do
      let db ← get
      let publication := db.datgIndexPublications.find fun _ record =>
        record.organizationId == s.organizationId && record.projectId == s.projectId &&
          record.cacheKeySha256 == request.indexCacheKeySha256 &&
          record.runtimeId == request.runtimeId && record.language == request.language &&
          record.unit == request.unit
      require (publication.isSome = true) (.resourceNotFound "run.datg_index")
    | _ => throw (.invalidRequest "run.submit")
  else pure ()

/-- The artifact a specification takes as input, with its kind. -/
def inputArtifact (s : NewSubmission) : DbTx (Option (ArtifactReference × ArtifactKind)) :=
  match s.kind, s.spec.request with
  | .trainPhonRl, .training request =>
    pure (request.staticPromptSource.map fun source => (source, .promptSet))
  | .trainPhonRl, _ => throw (.invalidRequest "run.submit")
  | .generateLocal, .local request =>
    pure (request.phonRlAdapter.map fun adapter => (adapter, .runResult))
  | .generateLocal, _ => throw (.invalidRequest "run.submit")
  | _, _ => pure none

/-- The succeeded training run an adapter must come from. -/
def requireTrainingRun (db : Db) (s : NewSubmission) (artifact : Artifact) : DbTx Unit :=
  require (∃ runId ∈ artifact.runId, ∃ run ∈ db.run? s.organizationId runId,
      run.projectId = s.projectId ∧ run.kind = .trainPhonRl ∧ run.state = .succeeded)
    (.resourceNotFound "run.input_artifact")

/-- `_authorize_advanced_artifact`. -/
def authorizeAdvancedArtifact (s : NewSubmission) : DbTx Unit := do
  match ← inputArtifact s with
  | none => pure ()
  | some (reference, kind) =>
    let db ← get
    let artifact ← found ((db.artifacts.lookup reference.artifactId).filter fun row =>
        row.organizationId == s.organizationId && row.projectId == s.projectId &&
          row.kind == kind && row.state == .active && row.sha256 == reference.sha256)
      (.resourceNotFound "run.input_artifact")
    if kind = .runResult then requireTrainingRun db s artifact else pure ()

/-- The inline corpus of a specification that may be linked to a corpus version,
with its language. -/
def inlineCorpus (kind : RunKind) (request : RunRequest) : Option (String × List String) :=
  match kind, request with
  | .phonemize, .phonemize request => some (request.language, request.text.elim request.texts ([·]))
  | .evaluate, .evaluate request => some (request.language, request.sentences)
  | .select, .select request => some (request.language, request.candidates)
  | _, _ => none

/-- `_authorize_corpus_lineage`: permit a corpus-version link only when the
executable inline corpus is identical. `prepare` is `prepare_corpus` under the
limits of the check. -/
def authorizeCorpusLineage (prepare : CorpusImportRequest → Except Error PreparedCorpus)
    (s : NewSubmission) : DbTx Unit :=
  match s.corpusVersionId with
  | none => pure ()
  | some versionId => do
    let (language, sentences) ← found (inlineCorpus s.kind s.spec.request)
      (.invalidRequest "run.corpus_lineage")
    let request ← found (corpusImportRequest language sentences)
      (.invalidRequest "run.corpus_lineage")
    let prepared ← found (prepare request).toOption (.invalidRequest "run.corpus_lineage")
    let db ← get
    let version ← found (Db.versionInProject db s.organizationId s.projectId versionId)
      (.resourceNotFound "run.submit")
    require (version.language = prepared.language ∧
        version.sentenceCount = prepared.sentences.length ∧
        version.contentSha256 = prepared.contentSha256)
      (.invalidRequest "run.corpus_lineage")

def lineageLimits : CorpusImportLimits := ⟨10000, 2000⟩

/-- The three authorization reads between the first existence check and the insert. -/
def authorize (prepare : CorpusImportRequest → Except Error PreparedCorpus) (s : NewSubmission) :
    DbTx Unit := do
  authorizeDatgIndex s
  authorizeAdvancedArtifact s
  authorizeCorpusLineage prepare s

/-! ## Submission -/

def queuedRun (s : NewSubmission) : Run where
  organizationId := s.organizationId
  projectId := s.projectId
  corpusVersionId := s.corpusVersionId
  parentRunId := s.parentRunId
  createdBy := s.userId
  kind := s.kind
  state := .queued
  idempotencyKey := s.idempotencyKey
  attempt := s.attempt
  eventSequence := 1
  spec := s.spec
  specSha256 := s.specSha256
  resultSummary := none
  failureCode := none
  cancellationRequestedAt := none

/-- Insert a queued run under a fresh identifier, and read it back in its project. -/
def insertRun (run : Run) (notFound : Error) : DbTx Uuid := do
  let runId ← uuid4
  let db ← get
  require ((db.projects.lookup run.projectId).isSome = true)
    (.integrity "fk_runs_project_id_projects")
  setRun runId run
  require (db.activeProject run.organizationId run.projectId = true) notFound
  pure runId

def submissionAudit (s : NewSubmission) : AuditAction × List (String × AuditValue) :=
  let metadata := [("attempt", .nat s.attempt), ("kind", .text s.kind.value),
    ("quota_class", .text (runQuotaClass s.kind).value)]
  match s.source with
  | some (sourceRunId, _) =>
    (.runRetrySubmitted, metadata ++ [("source_run_id", .id sourceRunId)])
  | none => (.runSubmitted, metadata)

/-- The rows of a new run: reservation, first event, dispatch intent, audit event. -/
def submitNew (policy : Option QuotaPolicyValues) (s : NewSubmission) (now : Instant) :
    DbTx SubmissionResult := do
  let run := queuedRun s
  let runId ← insertRun run (.resourceNotFound "run.get")
  let _ ← QuotaManager.reserveRun policy s.organizationId runId run now
  addRunEvent s.organizationId runId 1 s.initialEventType s.initialEventPayload
  addOutboxMessage runId run "run.dispatch" now
  let (action, metadata) := submissionAudit s
  AuditWriter.append s.organizationId (.user s.userId) action .run runId s.requestId metadata now
  let outboxState ← dispatchState runId
  pure ⟨runId, run, outboxState, true⟩

/-- `_submit_in_session` from its insert on; on a conflict it answers for the
run that holds the key. -/
def insertSubmission (policy : Option QuotaPolicyValues) (s : NewSubmission) (now : Instant) :
    DbTx SubmissionResult := do
  match ← existingSubmission s with
  | some result => pure result
  | none => submitNew policy s now

/-! ## Cancellation -/

/-- The compare-and-set of `request_cancellation` from the row it read, with the
rows it adds; `none` when the row has moved on. -/
def commitCancellation (who : JobActor) (userId runId : Uuid) (read : Run) (now : Instant) :
    DbTx (Option (Run × OutboxState)) := do
  let db ← get
  ensureTransition read.state .cancelling
  let hit := (db.run? who.organizationId runId).filter fun run =>
    run.state == read.state && run.eventSequence == read.eventSequence
  match hit with
  | none => pure none
  | some run =>
    let updated := { run with
      state := .cancelling, cancellationRequestedAt := some now
      eventSequence := run.eventSequence + 1 }
    setRun runId updated
    addRunEvent who.organizationId runId updated.eventSequence "run.cancellation_requested"
      { state := some .cancelling }
    addOutboxMessage runId updated "run.cancel" now
    -- the update has been synchronized onto the loaded run
    AuditWriter.append who.organizationId (.user userId) .runCancellationRequested .run runId
      who.requestId [("prior_state", .text updated.state.value)] now
    let snapshot ← activeRun who.organizationId runId
    let outboxState ← dispatchState runId
    pure (some (snapshot, outboxState))

end JobControlPlane

/-! ## Outbox -/

structure DispatchMessage where
  id : Uuid
  organizationId : Uuid
  runId : Uuid
  eventType : String
  payload : OutboxPayload
  attempt : Nat
  deriving DecidableEq, Repr

structure DispatchResult where
  claimed : Nat
  published : Nat
  failed : Nat
  deriving DecidableEq, Repr

def dispatchMessage (id : Uuid) (message : OutboxMessage) : DispatchMessage :=
  ⟨id, message.organizationId, message.runId, message.eventType, message.payload,
    message.attempts⟩

namespace TransactionalOutbox

/-- Unprocessed, and pending or claimed under a lease that ran out before `expired`. -/
def isClaimable (expired : Instant) (message : OutboxMessage) : Bool :=
  message.processedAt == none &&
    (message.state == .pending || (message.state == .claimed &&
      message.claimedAt.any fun claimedAt => decide (claimedAt < expired)))

/-- The candidates of a claim: claimable and due, oldest first. -/
def candidates (now expired : Instant) (limit : Nat) : DbTx (List Uuid) := do
  let db ← get
  let due := db.outboxMessages.select fun _ message =>
    decide (message.availableAt ≤ now) && isClaimable expired message
  let ordered := due.insertionSort fun a b =>
    a.2.createdAt < b.2.createdAt ∨ (a.2.createdAt = b.2.createdAt ∧ a.1 ≤ b.1)
  pure ((ordered.take limit).map (·.1))

/-- Whether the update of one candidate hits; its row stays locked if so. -/
def touches (id : Uuid) (expired : Instant) : DbTx Bool := do
  let db ← get
  pure ((db.outboxMessages.lookup id).any (isClaimable expired))

def claimedMessage (message : OutboxMessage) (workerId : String) (now : Instant) :
    OutboxMessage :=
  { message with
    state := .claimed, claimedAt := some now, claimedBy := some workerId
    attempts := message.attempts + 1, lastErrorCode := none }

/-- The update of one candidate. -/
def claimOne (workerId : String) (now expired : Instant) (id : Uuid) :
    DbTx (Option DispatchMessage) := do
  let db ← get
  match (db.outboxMessages.lookup id).filter (isClaimable expired) with
  | none => pure none
  | some message =>
    let claimed := claimedMessage message workerId now
    set { db with outboxMessages := db.outboxMessages.insert id claimed }
    pure (some (dispatchMessage id claimed))

/-- The commit of a claim: all its updates at once. -/
def claimAll (workerId : String) (now expired : Instant) : List Uuid → DbTx (List DispatchMessage)
  | [] => pure []
  | id :: ids => do
    let claimed ← claimOne workerId now expired id
    let rest ← claimAll workerId now expired ids
    pure (claimed.toList ++ rest)

def publisherRetryDelay : Duration := seconds 5

/-- The row both acknowledgements address: claimed, and by this worker. -/
def ownClaim (id : Uuid) (workerId operation : String) : DbTx OutboxMessage := do
  let db ← get
  found ((db.outboxMessages.lookup id).filter fun message =>
      message.state == .claimed && message.claimedBy == some workerId)
    (.resourceConflict operation)

def markPublished (id : Uuid) (workerId : String) (now : Instant) : DbTx Unit := do
  let message ← ownClaim id workerId "outbox.acknowledge"
  modify fun db => { db with
    outboxMessages := db.outboxMessages.insert id
      { message with state := .published, processedAt := some now } }

def releaseFailed (id : Uuid) (workerId : String) (now : Instant) : DbTx Unit := do
  let message ← ownClaim id workerId "outbox.release"
  modify fun db => { db with
    outboxMessages := db.outboxMessages.insert id
      { message with
        state := .pending, claimedAt := none, claimedBy := none
        availableAt := now + publisherRetryDelay
        lastErrorCode := some "publisher_unavailable" } }

end TransactionalOutbox

end CorpusKit
