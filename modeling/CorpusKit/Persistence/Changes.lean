import CorpusKit.Services.Reproducibility
import CorpusKit.Services.Artifacts
import CorpusKit.Persistence.Ledger
import CorpusKit.Services.Projects
import Mathlib.Logic.Relation

/-! # What a transaction can do to the database

The vocabulary of effects: every transaction of every service is a sequence of
the changes below, each of which is meaningful by itself. The invariants are
proved once for each change (`Persistence/Invariants`), and each transaction
body is shown to be a sequence of changes (`Refinement`). What a transaction
was given to work with is its `Permit`: a change that charges quota names the
policy its transaction had read, and the bound it checked against it. -/

namespace CorpusKit

/-- The run after a state change: its identity columns stay. -/
def Run.moved (run : Run) (target : RunState) (summary : Option ResultSummary)
    (failureCode : Option String) (askedAt : Option Instant) : Run :=
  { run with
    state := target, eventSequence := run.eventSequence + 1
    resultSummary := summary, failureCode, cancellationRequestedAt := askedAt }

/-- The time of a request is kept, or set on the way to a cancellation. -/
def AskedAt (run : Run) (target : RunState) (askedAt : Option Instant) : Prop :=
  askedAt = run.cancellationRequestedAt ∨
    askedAt ≠ none ∧ (target = .cancelling ∨ target = .cancelled)

/-- A job slot of the class is free. -/
def QuotaPolicyValues.HasSlot (policy : QuotaPolicyValues) (usage : QuotaUsage) :
    RunQuotaClass → Prop
  | .cpu => usage.activeCpuJobs < policy.maxConcurrentCpuJobs
  | .expensive => usage.activeExpensiveJobs < policy.maxConcurrentExpensiveJobs

/-- The policy leaves room for the usage. -/
structure QuotaPolicyValues.Bounds (policy : QuotaPolicyValues) (usage : QuotaUsage) : Prop where
  cpu : usage.activeCpuJobs ≤ policy.maxConcurrentCpuJobs
  expensive : usage.activeExpensiveJobs ≤ policy.maxConcurrentExpensiveJobs
  bytes : usage.artifactBytes ≤ policy.maxArtifactBytes
  count : usage.artifactCount ≤ policy.maxArtifactCount
  sentences : usage.corpusSentences ≤ policy.maxCorpusSentences

/-- The version follows the latest one of its corpus, or is its first. -/
def Db.NextVersion (db : Db) (version : CorpusVersion) : Prop :=
  match ProjectWorkspace.latestVersion db version.organizationId version.corpusId with
  | none => version.versionNumber = 1 ∧ version.parentVersionId = none
  | some latest => version.versionNumber = latest.2.versionNumber + 1 ∧
      version.parentVersionId = some latest.1

/-- What a transaction may do: the quota policy it has read of each organization,
the corpus it was given, and whether it may submit runs, retire artifacts, erase
projects or replace a policy. -/
structure Permit where
  policy : Uuid → Option QuotaPolicyValues := fun _ => none
  content : Option PreparedCorpus := none
  submits : Bool := false
  retires : Bool := false
  erases : Bool := false
  replaces : Bool := false

/-- The permit of a transaction that read one organization's policy. -/
def Permit.reading (organizationId : Uuid) (policy : Option QuotaPolicyValues) : Permit where
  policy org := if org = organizationId then policy else none

/-- The permit of a transaction that may also submit a run. -/
def Permit.submitting (organizationId : Uuid) (policy : Option QuotaPolicyValues) : Permit :=
  { Permit.reading organizationId policy with submits := true }

def submissionActions : List AuditAction := [.runSubmitted, .runRetrySubmitted, .runReplaySubmitted]

/-- The evidence of an adoption: its artifact, and the run it ended. -/
def AuditEvent.isAdoption (event : AuditEvent) : Bool :=
  event.action == .artifactAdopted ||
    (event.action == .runSucceeded && event.actor == .service .adoption)

/-- Evidence that no other change accounts for. -/
def AuditEvent.isPlain (event : AuditEvent) : Bool :=
  !submissionActions.contains event.action && !event.isAdoption

/-- The storage key is that of the row's place and content. -/
def Artifact.Keyed (a : Artifact) : Prop :=
  a.storageKey = artifactStorageKey a.organizationId a.projectId a.runId a.kind a.sha256

/-- The attempt and the sequence number a progress report is ordered by. -/
def EventPayload.mark (payload : EventPayload) : Option (Nat × Nat) := do
  let attempt ← payload.activityAttempt
  let progress ← payload.progress
  pure (attempt, progress.sequence)

/-- Both are progress reports, and the first is of an earlier attempt, or of the same
attempt and earlier in it. -/
def EventPayload.Before (earlier later : EventPayload) : Prop :=
  ∃ a s a' s', earlier.mark = some (a, s) ∧ later.mark = some (a', s') ∧
    (a < a' ∨ a = a' ∧ s < s')

def RunEvent.isProgress (event : RunEvent) : Prop := event.eventType = "run.progress"

def RunEvent.isStart (event : RunEvent) : Prop := event.eventType = "run.started"

/-- The title of a state change: only a start is called one, and none is progress. -/
def RunEvent.Titled (event : RunEvent) (target : RunState) : Prop :=
  ¬ event.isProgress ∧ (event.isStart ↔ target = .running)

/-- The evidence of a cancellation: what it says of the state before, and that the
run has an event of its own for it. -/
def Db.ShowsCancellation (db : Db) (event : AuditEvent) : Prop :=
  event.details = [("prior_state", .text RunState.cancelling.value)] ∧
    ∃ run n e, db.runs.lookup event.resourceId = some run ∧ 1 < n ∧
      db.runEvents.lookup (event.resourceId, n) = some e ∧ e.payload.state = some .cancelling

inductive Change (permit : Permit) : Db → Db → Prop
  /-- An audit event is appended at the head of the organization's chain. -/
  | evidence {db : Db} {org head : Nat} (event : AuditEvent)
      (hhead : db.auditHeads.lookup org = some head)
      (hfree : db.auditEvents.lookup (org, head + 1) = none)
      (hplain : event.isPlain = true)
      (hshown : event.action = .runCancellationRequested → db.ShowsCancellation event) :
      Change permit db { db with
        auditEvents := db.auditEvents.insert (org, head + 1) event
        auditHeads := db.auditHeads.insert org (head + 1) }
  /-- An identifier is drawn and not used. -/
  | id (db : Db) : Change permit db { db with nextId := db.nextId + 1 }
  /-- A run moves to a live state. -/
  | move {db : Db} {runId : Uuid} {run : Run} {target : RunState} {summary code askedAt}
      {event : RunEvent} (hrun : db.runs.lookup runId = some run)
      (hmove : Moves run.state target) (hlive : isTerminal target = false)
      (hask : AskedAt run target askedAt)
      (hfree : db.runEvents.lookup (runId, run.eventSequence + 1) = none)
      (horg : event.organizationId = run.organizationId)
      (hevent : event.payload.state = some target) (htitle : event.Titled target) :
      Change permit db { db with
        runs := db.runs.insert runId (run.moved target summary code askedAt)
        runEvents := db.runEvents.insert (runId, run.eventSequence + 1) event }
  /-- A run reaches a terminal state and gives its reservation back. -/
  | finish {db : Db} {runId rid : Uuid} {run : Run} {target : RunState} {summary code askedAt}
      {event : RunEvent} {reservation : QuotaReservation} {usage : QuotaUsage}
      {ending : QuotaReservationState} {time : Instant}
      (hrun : db.runs.lookup runId = some run)
      (hmove : Moves run.state target) (hend : isTerminal target = true)
      (hcancel : run.state = .cancelling → target = .cancelled)
      (hask : AskedAt run target askedAt)
      (hfree : db.runEvents.lookup (runId, run.eventSequence + 1) = none)
      (horg : event.organizationId = run.organizationId)
      (hevent : event.payload.state = some target)
      (hres : db.quotaReservations.lookup rid = some reservation)
      (hown : reservation.runId = runId ∧ reservation.organizationId = run.organizationId)
      (hactive : reservation.state = .active) (hending : ending ≠ .active)
      (husage : db.quotaUsages.lookup run.organizationId = some usage)
      (htitle : event.Titled target) :
      Change permit db { db with
        runs := db.runs.insert runId (run.moved target summary code askedAt)
        runEvents := db.runEvents.insert (runId, run.eventSequence + 1) event
        quotaUsages := db.quotaUsages.insert run.organizationId
          (usage.discharge reservation.quotaClass)
        quotaReservations := db.quotaReservations.insert rid
          { reservation with state := ending, releasedAt := some time } }
  /-- A running run succeeds with the artifact that holds its result. -/
  | adopt {db : Db} {runId rid : Uuid} {run : Run} {artifact : Artifact}
      {event : RunEvent} {reservation : QuotaReservation} {usage : QuotaUsage}
      {policy : QuotaPolicyValues} {head : Nat} {adopted succeeded : AuditEvent}
      (time : Instant) (mediaType schemaId : String)
      (hrun : db.runs.lookup runId = some run) (hstate : run.state = .running)
      (hask : run.cancellationRequestedAt = none)
      (hfree : db.runEvents.lookup (runId, run.eventSequence + 1) = none)
      (horg : event.organizationId = run.organizationId)
      (hevent : event.payload.state = some .succeeded)
      (hres : db.quotaReservations.lookup rid = some reservation)
      (hown : reservation.runId = runId ∧ reservation.organizationId = run.organizationId)
      (hactive : reservation.state = .active)
      (hkept : artifact.state = .active) (hsize : 0 < artifact.sizeBytes)
      (hplace : artifact.organizationId = run.organizationId ∧
        artifact.projectId = run.projectId ∧ artifact.runId = some runId ∧
        artifact.kind = .runResult)
      (hkeyed : artifact.Keyed)
      (hscope : db.artifacts.find (fun _ row => row.sameScopeDigest artifact) = none)
      (hkey : db.artifacts.find (fun _ row => row.storageKey == artifact.storageKey) = none)
      (hpolicy : permit.policy run.organizationId = some policy)
      (husage : db.quotaUsages.lookup run.organizationId = some usage)
      (hcount : usage.artifactCount + 1 ≤ policy.maxArtifactCount)
      (hbytes : usage.artifactBytes + artifact.sizeBytes ≤ policy.maxArtifactBytes)
      (hhead : db.auditHeads.lookup run.organizationId = some head)
      (hfirst : db.auditEvents.lookup (run.organizationId, head + 1) = none)
      (hsecond : db.auditEvents.lookup (run.organizationId, head + 2) = none)
      (hadopted : adopted.action = .artifactAdopted ∧ adopted.resourceId = db.nextId)
      (hsucceeded : succeeded.action = .runSucceeded ∧ succeeded.actor = .service .adoption ∧
        succeeded.resourceId = runId)
      (htitle : event.Titled .succeeded) :
      Change permit db { db with
        nextId := db.nextId + 1
        artifacts := db.artifacts.insert db.nextId artifact
        runs := db.runs.insert runId (run.moved .succeeded
          (some (.artifact db.nextId mediaType schemaId artifact.sha256 artifact.sizeBytes)) none
          run.cancellationRequestedAt)
        runEvents := db.runEvents.insert (runId, run.eventSequence + 1) event
        quotaUsages := db.quotaUsages.insert run.organizationId
          ((usage.store artifact.sizeBytes).discharge reservation.quotaClass)
        quotaReservations := db.quotaReservations.insert rid
          { reservation with state := .released, releasedAt := some time }
        auditEvents := (db.auditEvents.insert (run.organizationId, head + 1) adopted).insert
          (run.organizationId, head + 2) succeeded
        auditHeads := db.auditHeads.insert run.organizationId (head + 2) }
  /-- A running run gets a progress report after all it has. -/
  | note {db : Db} {runId : Uuid} {run : Run} {event : RunEvent}
      (hrun : db.runs.lookup runId = some run) (hstate : run.state = .running)
      (hfree : db.runEvents.lookup (runId, run.eventSequence + 1) = none)
      (horg : event.organizationId = run.organizationId)
      (hevent : event.payload.state = none) (htitle : event.isProgress)
      (hnext : ∀ {n e}, db.runEvents.lookup (runId, n) = some e → e.isProgress →
        e.payload.Before event.payload) :
      Change permit db { db with
        runs := db.runs.insert runId { run with eventSequence := run.eventSequence + 1 }
        runEvents := db.runEvents.insert (runId, run.eventSequence + 1) event }
  /-- A cancelled run is marked as asked to cancel, with nothing else to show. -/
  | settle {db : Db} {runId : Uuid} {run : Run} {askedAt : Instant}
      (hrun : db.runs.lookup runId = some run) (hstate : run.state = .cancelled) :
      Change permit db { db with
        runs := db.runs.insert runId { run with
          cancellationRequestedAt := some askedAt, resultSummary := none, failureCode := none } }
  /-- A reservation is extended. -/
  | renew {db : Db} {rid : Uuid} {reservation : QuotaReservation} {expiresAt : Instant}
      (hres : db.quotaReservations.lookup rid = some reservation) :
      Change permit db { db with
        quotaReservations := db.quotaReservations.insert rid { reservation with expiresAt } }
  /-- A queued run appears, with everything a submission owes it. -/
  | submit {db : Db} {run : Run} {usage : QuotaUsage} {policy : QuotaPolicyValues}
      {expiresAt now : Instant} {event : RunEvent} {head : Nat} {audit : AuditEvent}
      (hpermit : permit.submits = true)
      (hproject : db.activeProject run.organizationId run.projectId = true)
      (hkey : db.idempotentRun run.organizationId run.idempotencyKey = none)
      (hstate : run.state = .queued) (hseq : run.eventSequence = 1)
      (hasked : run.cancellationRequestedAt = none) (hsummary : run.resultSummary = none)
      (hpolicy : permit.policy run.organizationId = some policy)
      (husage : db.quotaUsages.lookup run.organizationId = some usage)
      (hslot : policy.HasSlot usage (runQuotaClass run.kind))
      (hadmits : Admits policy run.kind run.spec)
      (horg : event.organizationId = run.organizationId)
      (hhead : db.auditHeads.lookup run.organizationId = some head)
      (hfree : db.auditEvents.lookup (run.organizationId, head + 1) = none)
      (haudit : audit.resourceId = db.nextId ∧
        submissionActions.contains audit.action = true)
      (htitle : event.Titled .queued) :
      Change permit db { db with
        nextId := db.nextId + 3
        runs := db.runs.insert db.nextId run
        quotaUsages := db.quotaUsages.insert run.organizationId
          (usage.charge (runQuotaClass run.kind))
        quotaReservations := db.quotaReservations.insert (db.nextId + 1)
          { organizationId := run.organizationId, runId := db.nextId
            quotaClass := runQuotaClass run.kind, state := .active, expiresAt, releasedAt := none }
        runEvents := db.runEvents.insert (db.nextId, 1) event
        outboxMessages := db.outboxMessages.insert (db.nextId + 2)
          { organizationId := run.organizationId, runId := db.nextId, eventType := "run.dispatch"
            payload := ⟨db.nextId, run.kind, run.specSha256⟩, state := .pending, createdAt := now
            availableAt := now, claimedAt := none, claimedBy := none, processedAt := none
            attempts := 0, lastErrorCode := none }
        auditEvents := db.auditEvents.insert (run.organizationId, head + 1) audit
        auditHeads := db.auditHeads.insert run.organizationId (head + 1) }
  /-- Replay lineage of a run that has none. -/
  | lineage {db : Db} {runId : Uuid} (replay : RunReplay) (hid : runId < db.nextId)
      (hfree : db.runReplays.lookup runId = none) :
      Change permit db { db with runReplays := db.runReplays.insert runId replay }
  /-- The manifest observed for a replay is recorded. -/
  | observe {db : Db} {runId : Uuid} {replay : RunReplay} (manifest : Uuid)
      (hreplay : db.runReplays.lookup runId = some replay) :
      Change permit db { db with
        runReplays := db.runReplays.insert runId
          { replay with observedManifestArtifactId := some manifest } }
  /-- Execution facts of a run that has none. -/
  | record {db : Db} {runId : Uuid} (facts : RunExecutionFact)
      (hfree : db.runExecutionFacts.lookup runId = none) :
      Change permit db { db with runExecutionFacts := db.runExecutionFacts.insert runId facts }
  /-- The manifest of recorded facts. -/
  | manifest {db : Db} {runId : Uuid} {facts : RunExecutionFact} (artifactId : Uuid)
      (sha256 : Sha256) (hfacts : db.runExecutionFacts.lookup runId = some facts) :
      Change permit db { db with
        runExecutionFacts := db.runExecutionFacts.insert runId
          { facts with manifestArtifactId := some artifactId, manifestSha256 := some sha256 } }
  /-- An active artifact row appears and is charged. -/
  | store {db : Db} (artifact : Artifact) {usage : QuotaUsage} {policy : QuotaPolicyValues}
      (hproject : db.activeProject artifact.organizationId artifact.projectId = true)
      (hkind : artifact.kind ≠ .runResult) (hactive : artifact.state = .active) (hsize : 0 < artifact.sizeBytes)
      (hkeyed : artifact.Keyed)
      (hscope : db.artifacts.find (fun _ row => row.sameScopeDigest artifact) = none)
      (hkey : db.artifacts.find (fun _ row => row.storageKey == artifact.storageKey) = none)
      (hpolicy : permit.policy artifact.organizationId = some policy)
      (husage : db.quotaUsages.lookup artifact.organizationId = some usage)
      (hcount : usage.artifactCount + 1 ≤ policy.maxArtifactCount)
      (hbytes : usage.artifactBytes + artifact.sizeBytes ≤ policy.maxArtifactBytes) :
      Change permit db { db with
        nextId := db.nextId + 1
        artifacts := db.artifacts.insert db.nextId artifact
        quotaUsages := db.quotaUsages.insert artifact.organizationId
          (usage.store artifact.sizeBytes) }
  /-- An active artifact is tombstoned. -/
  | tombstone {db : Db} {id : Uuid} {artifact : Artifact} {time : Instant}
      (hpermit : permit.retires = true)
      (hrow : db.artifacts.lookup id = some artifact) (hactive : artifact.state = .active) :
      Change permit db { db with
        artifacts := db.artifacts.insert id
          { artifact with state := .tombstoned, tombstonedAt := some time } }
  /-- A tombstoned artifact is deleted and no longer charged. -/
  | discard {db : Db} {id : Uuid} {artifact : Artifact} {time : Instant} {usage : QuotaUsage}
      (hpermit : permit.retires = true)
      (hrow : db.artifacts.lookup id = some artifact) (hdead : artifact.state = .tombstoned)
      (husage : db.quotaUsages.lookup artifact.organizationId = some usage) :
      Change permit db { db with
        artifacts := db.artifacts.insert id { artifact with state := .deleted, deletedAt := some time }
        quotaUsages := db.quotaUsages.insert artifact.organizationId
          (usage.unstore artifact.sizeBytes) }
  /-- An index of a project is published under a cache key it has no index for. -/
  | publish {db : Db} (publication : DatgIndexPublication)
      (hfree : db.datgIndexPublications.find (fun _ row => row.sameIndex publication) = none) :
      Change permit db { db with
        nextId := db.nextId + 1
        datgIndexPublications := db.datgIndexPublications.insert db.nextId publication }
  /-- A cancellation intent. -/
  | intent {db : Db} {run : Run} (message : OutboxMessage)
      (hrun : db.runs.lookup message.runId = some run)
      (horg : message.organizationId = run.organizationId)
      (hpending : message.state = .pending) (hnew : message.processedAt = none)
      (htype : message.eventType ≠ "run.dispatch") :
      Change permit db { db with
        nextId := db.nextId + 1
        outboxMessages := db.outboxMessages.insert db.nextId message }
  | claim {db : Db} {id : Uuid} {message : OutboxMessage} (workerId : String) (now expired : Instant)
      (hrow : db.outboxMessages.lookup id = some message)
      (hclaim : TransactionalOutbox.isClaimable expired message = true) :
      Change permit db { db with
        outboxMessages := db.outboxMessages.insert id
          (TransactionalOutbox.claimedMessage message workerId now) }
  | acknowledge {db : Db} {id : Uuid} {message : OutboxMessage} (now : Instant)
      (hrow : db.outboxMessages.lookup id = some message) (hclaimed : message.state = .claimed) :
      Change permit db { db with
        outboxMessages := db.outboxMessages.insert id
          { message with state := .published, processedAt := some now } }
  | release {db : Db} {id : Uuid} {message : OutboxMessage} (availableAt : Instant)
      (hrow : db.outboxMessages.lookup id = some message) (hclaimed : message.state = .claimed) :
      Change permit db { db with
        outboxMessages := db.outboxMessages.insert id
          { message with
            state := .pending, claimedAt := none, claimedBy := none, availableAt
            lastErrorCode := some "publisher_unavailable" } }
  | project {db : Db} (project : Project) (hactive : project.lifecycle = .active) :
      Change permit db { db with
        nextId := db.nextId + 1, projects := db.projects.insert db.nextId project }
  | corpus {db : Db} (corpus : Corpus)
      (hproject : db.activeProject corpus.organizationId corpus.projectId = true) :
      Change permit db { db with
        nextId := db.nextId + 1, corpora := db.corpora.insert db.nextId corpus }
  /-- The next version of a corpus appears with its sentences, which are charged. -/
  | version {db : Db} (version : CorpusVersion) (texts : List String) {corpus : Corpus}
      {usage : QuotaUsage} {policy : QuotaPolicyValues}
      (hcorpus : db.corpora.lookup version.corpusId = some corpus)
      (horg : corpus.organizationId = version.organizationId)
      (hproject : db.activeProject version.organizationId corpus.projectId = true)
      (hnext : db.NextVersion version)
      (hcontent : permit.content =
        some ⟨version.language, texts, version.contentSha256⟩)
      (hcount : version.sentenceCount = texts.length)
      (hpolicy : permit.policy version.organizationId = some policy)
      (husage : db.quotaUsages.lookup version.organizationId = some usage)
      (hroom : usage.corpusSentences + texts.length ≤ policy.maxCorpusSentences) :
      Change permit db { db with
        nextId := db.nextId + 1
        corpusVersions := db.corpusVersions.insert db.nextId version
        sentences := ProjectWorkspace.insertSentences version.organizationId db.nextId 0 texts
          db.sentences
        quotaUsages := db.quotaUsages.insert version.organizationId
          { usage with corpusSentences := usage.corpusSentences + texts.length } }
  /-- A quiescent project is scheduled for deletion, and its artifacts with it. -/
  | schedule {db : Db} {org projectId : Uuid} {project : Project} {requestedAt retentionUntil : Instant}
      {corpusSentences : Nat} (hpermit : permit.retires = true)
      (hproject : db.projects.lookup projectId = some project)
      (horg : project.organizationId = org) (hactive : project.lifecycle = .active)
      (hquiet : ProjectDeletion.quiescent db org projectId = true) :
      Change permit db { db with
        artifacts := db.artifacts.mapRows fun _ artifact =>
          ProjectDeletion.scheduleArtifact org projectId requestedAt retentionUntil artifact
        projects := db.projects.insert projectId
          { project with lifecycle := .deletionPending requestedAt retentionUntil corpusSentences } }
  /-- The rows of a due project are erased and its sentences no longer charged. -/
  | erase {db : Db} {org projectId : Uuid} {project : Project} {usages}
      (hpermit : permit.erases = true)
      (hproject : db.projects.lookup projectId = some project)
      (horg : project.organizationId = org) (hdead : project.lifecycle ≠ .active)
      (hready : ProjectDeletion.databasePreconditions db org projectId = true)
      (husages : (ProjectDeletion.corpusSentenceCount db org projectId = 0 ∧
          usages = db.quotaUsages) ∨
        ∃ usage, db.quotaUsages.lookup org = some usage ∧
          usages = db.quotaUsages.insert org { usage with
            corpusSentences :=
              usage.corpusSentences - ProjectDeletion.corpusSentenceCount db org projectId }) :
      Change permit db { ProjectDeletion.eraseRows db org projectId with
        quotaUsages := usages, projects := db.projects.erase projectId }
  /-- The policy of an organization is replaced by one its usage and runs satisfy. -/
  | policy {db : Db} {org : Uuid} {committed loaded new : QuotaPolicyValues} {usage : QuotaUsage}
      (hreplaces : permit.replaces = true) (hfree : permit.policy org = none)
      (hpolicy : db.quotaPolicies.lookup org = some committed)
      (husage : db.quotaUsages.lookup org = some usage) (hbounds : new.Bounds usage)
      (hruns : db.ActiveRunsAdmitted org new) :
      Change permit db { db with
        quotaPolicies := db.quotaPolicies.insert org (committed.write loaded new) }
  /-- The rows every organization has are created where they are missing. -/
  | provision {db : Db} (org : Uuid) :
      Change permit db { db with
        quotaPolicies := match db.quotaPolicies.lookup org with
          | some _ => db.quotaPolicies
          | none => db.quotaPolicies.insert org {}
        quotaUsages := match db.quotaUsages.lookup org with
          | some _ => db.quotaUsages
          | none => db.quotaUsages.insert org {}
        auditHeads := match db.auditHeads.lookup org with
          | some _ => db.auditHeads
          | none => db.auditHeads.insert org 0 }

/-- What one transaction did. -/
abbrev Changes (permit : Permit) : Db → Db → Prop :=
  Relation.ReflTransGen (Change permit)

end CorpusKit
