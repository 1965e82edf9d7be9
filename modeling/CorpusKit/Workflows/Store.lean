import CorpusKit.Services.Platform

/-! # Compare-and-swap persistence for durable execution activities

The transaction bodies of `DurableRunStore`. A body that decides on a row it
read without a lock takes that row as an argument: its compare-and-set repeats
the read columns in its condition and answers whether it hit. -/

namespace CorpusKit

open Transaction

structure RunWorkflowReference where
  organizationId : Uuid
  runId : Uuid
  specSha256 : Sha256
  deriving DecidableEq, Repr

structure AdoptedDatgIndex where
  cacheKeySha256 : Sha256
  contentSha256 : Sha256
  runtimeId : String
  language : String
  unit : String
  vocabularySize : Nat
  indexedTokenCount : Nat
  sizeBytes : Nat
  deriving DecidableEq, Repr

structure AdoptedArtifact where
  sha256 : Sha256
  sizeBytes : Nat
  storageKey : StorageKey
  mediaType : String
  filename : String
  schemaId : String
  retentionUntil : Instant
  datgIndex : Option AdoptedDatgIndex
  deriving DecidableEq, Repr

structure ArtifactCommit where
  state : RunState
  artifactId : Option Uuid
  created : Bool
  deriving DecidableEq, Repr

namespace DurableRunStore

def maxCasAttempts : Nat := 8

def runRow (organizationId runId : Uuid) : DbTx Run := do
  let db ← get
  found (db.run? organizationId runId) (.runStore "run_not_found")

def verifySpec (run : Run) (expectedHash : Sha256) : DbTx Unit :=
  require (run.specSha256 = expectedHash ∧ run.spec.sha256 = expectedHash)
    (.runStore "spec_integrity_violation")

/-- The run a reference names, after the check of its specification. -/
def readRun (reference : RunWorkflowReference) : DbTx Run := do
  let run ← runRow reference.organizationId reference.runId
  verifySpec run reference.specSha256
  pure run

/-- The state changes the activities ask `_transition` for. -/
inductive Transition
  | prepare
  | beginExecution
  | complete (summary : ResultSummary)
  | fail (code : String)
  | requestCancellation (prior : RunState)
  | acknowledgeCancellation
  deriving DecidableEq, Repr

def Transition.expected : Transition → List RunState
  | .prepare => [.queued]
  | .beginExecution => [.provisioning]
  | .complete _ => [.running]
  | .fail _ => [.queued, .provisioning, .running]
  | .requestCancellation prior => [prior]
  | .acknowledgeCancellation => [.cancelling]

def Transition.target : Transition → RunState
  | .prepare => .provisioning
  | .beginExecution => .running
  | .complete _ => .succeeded
  | .fail _ => .failed
  | .requestCancellation _ => .cancelling
  | .acknowledgeCancellation => .cancelled

def Transition.eventType : Transition → String
  | .prepare => "run.provisioning"
  | .beginExecution => "run.started"
  | .complete _ => "run.succeeded"
  | .fail _ => "run.failed"
  | .requestCancellation _ => "run.cancellation_observed"
  | .acknowledgeCancellation => "run.cancelled"

def Transition.resultSummary : Transition → Option ResultSummary
  | .complete summary => some summary
  | _ => none

def Transition.failureCode : Transition → Option String
  | .fail code => some code
  | _ => none

def Transition.payload (transition : Transition) : EventPayload where
  state := some transition.target
  resultSummary := transition.resultSummary
  failureCode := transition.failureCode

/-- `_apply_transition_controls`. The update has been synchronized onto the
loaded run, so `run` already is in the target state. -/
def applyTransitionControls (organizationId runId : Uuid) (run : Run) (target : RunState)
    (failureCode : Option String) (now : Instant) : DbTx Unit := do
  match target with
  | .running =>
    let renewed ← QuotaManager.renewRun organizationId runId run now
    require (renewed = true) (.runtime "active run has no quota reservation")
  | .cancelling =>
    AuditWriter.append organizationId (.service .worker) .runCancellationRequested .run runId none
      [("prior_state", .text run.state.value)] now
  | .succeeded =>
    let _ ← QuotaManager.releaseRun organizationId runId .released now
    AuditWriter.append organizationId (.service .worker) .runSucceeded .run runId none
      [("kind", .text run.kind.value)] now
  | .failed =>
    let _ ← QuotaManager.releaseRun organizationId runId .released now
    AuditWriter.append organizationId (.service .worker) .runFailed .run runId none
      [("kind", .text run.kind.value),
       ("failure_code", .text (failureCode.getD "execution_failed"))] now
  | .cancelled =>
    let _ ← QuotaManager.releaseRun organizationId runId .released now
    AuditWriter.append organizationId (.service .worker) .runCancelled .run runId none
      [("kind", .text run.kind.value)] now
  | .draft => pure ()
  | .queued => pure ()
  | .provisioning => pure ()

/-- The compare-and-set of `_transition` from the row it read, with the event
and the quota and audit controls; `false` when the row has moved on. -/
def commitTransition (reference : RunWorkflowReference) (read : Run) (transition : Transition)
    (now : Instant) : DbTx Bool := do
  ensureTransition read.state transition.target
  let db ← get
  let hit := (db.run? reference.organizationId reference.runId).filter fun run =>
    run.specSha256 == reference.specSha256 && run.state == read.state &&
      run.eventSequence == read.eventSequence
  match hit with
  | none => pure false
  | some run =>
    let updated := { run with
      state := transition.target, eventSequence := run.eventSequence + 1
      resultSummary := transition.resultSummary, failureCode := transition.failureCode }
    setRun reference.runId updated
    addRunEvent reference.organizationId reference.runId updated.eventSequence
      transition.eventType transition.payload
    applyTransitionControls reference.organizationId reference.runId updated transition.target
      transition.failureCode now
    pure true

/-! ## Progress -/

/-- The latest `run.progress` event of the run. -/
def latestProgress (organizationId runId : Uuid) : DbTx (Option RunEvent) := do
  let db ← get
  let events := db.runEvents.select fun key event =>
    key.1 == runId && event.organizationId == organizationId && event.eventType == "run.progress"
  pure ((events.insertionSort fun a b => b.1.2 ≤ a.1.2).head?.map (·.2))

/-- The compare-and-set of `record_progress` from the row it read. -/
def commitProgress (reference : RunWorkflowReference) (read : Run) (payload : EventPayload) :
    DbTx Bool := do
  let db ← get
  let hit := (db.run? reference.organizationId reference.runId).filter fun run =>
    run.specSha256 == reference.specSha256 && run.state == .running &&
      run.eventSequence == read.eventSequence
  match hit with
  | none => pure false
  | some run =>
    setRun reference.runId { run with eventSequence := run.eventSequence + 1 }
    addRunEvent reference.organizationId reference.runId (run.eventSequence + 1) "run.progress"
      payload
    pure true

/-! ## Adoption -/

def artifactResultSummary (artifactId : Uuid) (adopted : AdoptedArtifact) : ResultSummary :=
  .artifact artifactId adopted.mediaType adopted.schemaId adopted.sha256 adopted.sizeBytes

def sameDatgPublication (existing : DatgIndexPublication) (expected : AdoptedDatgIndex) : Bool :=
  existing.cacheKeySha256 == expected.cacheKeySha256 &&
    existing.contentSha256 == expected.contentSha256 &&
    existing.runtimeId == expected.runtimeId && existing.language == expected.language &&
    existing.unit == expected.unit && existing.vocabularySize == expected.vocabularySize &&
    existing.indexedTokenCount == expected.indexedTokenCount &&
    existing.sizeBytes == expected.sizeBytes

def publicationOf (db : Db) (run : Run) (cacheKeySha256 : Sha256) : Option DatgIndexPublication :=
  (db.datgIndexPublications.find fun _ record =>
    record.organizationId == run.organizationId && record.projectId == run.projectId &&
      record.cacheKeySha256 == cacheKeySha256).map (·.2)

def verifyPublication (run : Run) (publication : AdoptedDatgIndex) : DbTx Unit := do
  let db ← get
  require (∃ existing ∈ publicationOf db run publication.cacheKeySha256,
      sameDatgPublication existing publication = true)
    (.runStore "artifact_integrity_violation")

def verifyExistingDatgPublication (run : Run) (adopted : AdoptedArtifact) : DbTx Unit :=
  match adopted.datgIndex with
  | none => pure ()
  | some publication => verifyPublication run publication

def commitDatgPublication (runId : Uuid) (run : Run) (adopted : AdoptedArtifact) : DbTx Unit :=
  match adopted.datgIndex with
  | none => pure ()
  | some publication => do
    require (run.kind = .buildDatgIndex) (.runStore "artifact_integrity_violation")
    let id ← uuid4
    let db ← get
    -- on conflict do nothing: the project's cache key, or the build run
    if publicationOf db run publication.cacheKeySha256 = none ∧
        db.datgIndexPublications.find (fun _ record => record.buildRunId == runId) = none then
      set { db with
        datgIndexPublications := db.datgIndexPublications.insert id
          { organizationId := run.organizationId, projectId := run.projectId, buildRunId := runId
            createdBy := run.createdBy, cacheKeySha256 := publication.cacheKeySha256
            contentSha256 := publication.contentSha256, runtimeId := publication.runtimeId
            language := publication.language, unit := publication.unit
            vocabularySize := publication.vocabularySize
            indexedTokenCount := publication.indexedTokenCount
            sizeBytes := publication.sizeBytes } }
    else verifyPublication run publication

/-- `_record_terminal_audit`. -/
def recordTerminalAudit (runId : Uuid) (run : Run) (action : AuditAction)
    (identity : ServiceIdentity) (now : Instant) : DbTx Unit := do
  let _ ← QuotaManager.releaseRun run.organizationId runId .released now
  AuditWriter.append run.organizationId (.service identity) action .run runId none
    [("kind", .text run.kind.value)] now

/-- The first half of `_cancel_locked`: a run that is not cancelling yet starts to. -/
def observeCancellation (runId : Uuid) (run : Run) : DbTx Run :=
  if run.state = .cancelling ∨ run.state = .cancelled then pure run
  else do
    ensureTransition run.state .cancelling
    let updated := { run with state := .cancelling, eventSequence := run.eventSequence + 1 }
    setRun runId updated
    addRunEvent run.organizationId runId updated.eventSequence "run.cancellation_observed"
      { state := some .cancelling }
    pure updated

/-- The second half: a cancelling run is cancelled. -/
def finishCancellation (runId : Uuid) (run : Run) (now : Instant) : DbTx Bool :=
  if run.state = .cancelling then do
    ensureTransition run.state .cancelled
    let updated := { run with
      state := .cancelled, eventSequence := run.eventSequence + 1
      cancellationRequestedAt := some (run.cancellationRequestedAt.getD now)
      resultSummary := none, failureCode := none }
    setRun runId updated
    addRunEvent run.organizationId runId updated.eventSequence "run.cancelled"
      { state := some .cancelled }
    pure true
  else do
    setRun runId { run with
      cancellationRequestedAt := some (run.cancellationRequestedAt.getD now)
      resultSummary := none, failureCode := none }
    pure false

/-- `_cancel_locked` of a run row held `FOR UPDATE`. -/
def cancelLocked (runId : Uuid) (run : Run) (now : Instant) : DbTx Bool := do
  let observed ← observeCancellation runId run
  finishCancellation runId observed now

/-- The branch of an adoption that finds the run cancelled or asked to cancel. -/
def adoptCancelled (runId : Uuid) (run : Run) (now : Instant) : DbTx ArtifactCommit := do
  let cancelled ← cancelLocked runId run now
  if cancelled then do
    recordTerminalAudit runId run .runCancelled .adoption now
    pure ⟨.cancelled, none, false⟩
  else pure ⟨.cancelled, none, false⟩

/-- The branch of an adoption that finds the run succeeded: nothing is written. -/
def adoptAgain (runId : Uuid) (run : Run) (adopted : AdoptedArtifact) : DbTx ArtifactCommit := do
  let db ← get
  let existing ← found (db.artifacts.find fun _ row =>
      row.organizationId == run.organizationId && row.projectId == run.projectId &&
        row.runId == some runId && row.kind == .runResult && row.sha256 == adopted.sha256)
    (.runStore "artifact_integrity_violation")
  require (existing.2.createdBy = run.createdBy ∧ existing.2.scopeKey = some runId ∧
      existing.2.sizeBytes = adopted.sizeBytes ∧ existing.2.storageKey = adopted.storageKey ∧
      existing.2.mediaType = adopted.mediaType ∧ existing.2.filename = adopted.filename ∧
      existing.2.state = .active ∧
      run.resultSummary = some (artifactResultSummary existing.1 adopted))
    (.runStore "artifact_integrity_violation")
  verifyExistingDatgPublication run adopted
  pure ⟨run.state, some existing.1, false⟩

/-- The branch of an adoption that publishes the artifact and ends the run. -/
def adoptResult (policy : Option QuotaPolicyValues) (runId : Uuid) (run : Run)
    (adopted : AdoptedArtifact) (now : Instant) : DbTx ArtifactCommit := do
  let artifactId ← uuid4
  let summary := artifactResultSummary artifactId adopted
  let sequence := run.eventSequence + 1
  insertArtifact artifactId
    { organizationId := run.organizationId, projectId := run.projectId, runId := some runId
      createdBy := run.createdBy, scopeKey := some runId, kind := .runResult
      sha256 := adopted.sha256, sizeBytes := adopted.sizeBytes, storageKey := adopted.storageKey
      mediaType := adopted.mediaType, filename := adopted.filename, state := .active
      retentionUntil := adopted.retentionUntil, tombstonedAt := none, deletedAt := none }
  commitDatgPublication runId run adopted
  QuotaManager.consumeArtifact policy run.organizationId .runResult adopted.sizeBytes
  ensureTransition run.state .succeeded
  let updated := { run with
    state := .succeeded, eventSequence := sequence, resultSummary := some summary
    failureCode := none }
  setRun runId updated
  addRunEvent run.organizationId runId sequence "run.succeeded"
    { resultSummary := some summary, state := some .succeeded }
  AuditWriter.append run.organizationId (.service .adoption) .artifactAdopted .artifact artifactId
    none [("kind", .text ArtifactKind.runResult.value), ("schema_id", .text adopted.schemaId),
      ("sha256", .digest adopted.sha256), ("size_bytes", .nat adopted.sizeBytes)] now
  recordTerminalAudit runId updated .runSucceeded .adoption now
  pure ⟨.succeeded, some artifactId, true⟩

/-- `commit_adopted_result`, with the policy its transaction read. -/
def commitAdoptedResult (policy : Option QuotaPolicyValues) (reference : RunWorkflowReference)
    (adopted : AdoptedArtifact) (now : Instant) : DbTx ArtifactCommit := do
  let run ← readRun reference
  require (adopted.storageKey = artifactStorageKey run.organizationId run.projectId
      (some reference.runId) .runResult adopted.sha256)
    (.runStore "artifact_integrity_violation")
  if (run.state = .cancelling ∨ run.state = .cancelled) ∨ run.cancellationRequestedAt ≠ none then
    adoptCancelled reference.runId run now
  else if run.state = .succeeded then adoptAgain reference.runId run adopted
  else do
    require (run.state = .running) (.runStore "invalid_run_state")
    adoptResult policy reference.runId run adopted now

end DurableRunStore

end CorpusKit
