import CorpusKit.System.World

/-! # The services, step by step

Each service call as a program: what it reads in which session, what it commits,
and what it asks of the object store, in the order of the source. A statement
that a transaction evaluates before it takes its locks is a read of its own, so
that others can move in between. What comes from outside (uploaded bytes, staged
results, whether a publish call succeeds) is an argument of the call. -/

namespace CorpusKit

open Transaction Program

abbrev Service := Prog Op Error

/-- A value of the world at one moment. -/
def look {β : Type} (f : World → β) : Service β := .perform (.query fun w => .ok (f w))

/-- A session that only reads. -/
def read {β : Type} (body : DbTx β) : Service β :=
  .perform (.query fun w => (body.run w.db).map (·.1))

def write {β : Type} (action : Action β) : Service β := .perform (.write action)

def ask {β : Type} (request : Request β) : Service β := .perform (.request request)

def clock : Service Instant := look World.now

/-- `except (ObjectStoreError, ValueError)`. -/
def isStoreFailure : Error → Bool
  | .objectStore _ => true
  | .objectNotFound _ => true
  | .value _ => true
  | _ => false

/-- A put whose failure is the dependency's. -/
def store (key : StorageKey) (sha256 : Sha256) (sizeBytes : Nat) (mediaType operation : String) :
    Service Unit :=
  Prog.handle (ask (.put key sha256 sizeBytes mediaType))
    fun e => if isStoreFailure e then throw (.dependencyUnavailable operation) else throw e

/-- The quota policy, as the first statement of `_locked` reads it. -/
def readPolicy (organizationId : Uuid) : Service (Option QuotaPolicyValues) :=
  look fun w => w.db.quotaPolicies.lookup organizationId

/-! ## Workflow activities -/

namespace DurableRunStore

def state (reference : RunWorkflowReference) : Service RunState := do
  let run ← CorpusKit.read (readRun reference)
  pure run.state

/-- The loop of `_transition`, with this many attempts left. -/
def transitionLoop (reference : RunWorkflowReference) (transition : Transition) :
    Nat → Service RunState
  | 0 => throw (.runStore "state_conflict")
  | attempts + 1 => do
    let run ← write (.readFor reference transition)
    if run.state = transition.target then pure transition.target
    else if isTerminal run.state = true then pure run.state
    else if run.state ∈ transition.expected then do
      let now ← clock
      let changed ← write (.transition reference run transition now)
      if changed then pure transition.target else transitionLoop reference transition attempts
    else pure run.state

/-- `_transition`. -/
def transition (reference : RunWorkflowReference) (t : Transition) : Service RunState :=
  transitionLoop reference t maxCasAttempts

def requestCancellation (reference : RunWorkflowReference) : Service RunState := do
  let s ← state reference
  if s = .queued ∨ s = .provisioning ∨ s = .running then
    transition reference (.requestCancellation s)
  else pure s

def acknowledgeCancellation (reference : RunWorkflowReference) : Service RunState := do
  let s ← requestCancellation reference
  if s = .cancelling then transition reference .acknowledgeCancellation else pure s

def cancellationRequested (reference : RunWorkflowReference) : Service Bool := do
  let s ← state reference
  pure (s == .cancelling || s == .cancelled)

def prepare (reference : RunWorkflowReference) : Service RunState := do
  let s ← state reference
  match s with
  | .queued => transition reference .prepare
  | .cancelling => acknowledgeCancellation reference
  | .provisioning => pure s
  | .running => pure s
  | .cancelled => pure s
  | .succeeded => pure s
  | .failed => pure s
  | .draft => throw (.runStore "invalid_run_state")

/-- The first step of `begin_execution`: a queued run is prepared. -/
def leaveQueue (reference : RunWorkflowReference) (s : RunState) : Service RunState :=
  if s = .queued then prepare reference else pure s

/-- The second step: a provisioning run starts. -/
def start (reference : RunWorkflowReference) (s : RunState) : Service RunState :=
  if s = .provisioning then transition reference .beginExecution else pure s

/-- Whether execution should go on. -/
def beginExecution (reference : RunWorkflowReference) : Service Bool := do
  let read ← state reference
  let prepared ← leaveQueue reference read
  let started ← start reference prepared
  if started = .cancelling then do
    let _ ← acknowledgeCancellation reference
    pure false
  else pure (started == .running)

def complete (reference : RunWorkflowReference) (summary : ResultSummary) : Service RunState := do
  let s ← state reference
  if s = .cancelling then acknowledgeCancellation reference
  else if s = .cancelled ∨ s = .succeeded ∨ s = .failed then pure s
  else transition reference (.complete summary)

/-- `fail`; an unsafe code has been replaced. -/
def fail (reference : RunWorkflowReference) (code : String) : Service RunState := do
  let s ← state reference
  if s = .cancelling then acknowledgeCancellation reference
  else if s = .cancelled ∨ s = .succeeded ∨ s = .failed then pure s
  else transition reference (.fail code)

def progressPayload (activityAttempt : Nat) (progress : DurableRunProgress) : EventPayload where
  activityAttempt := some activityAttempt
  progress := some progress

/-- Whether a progress report is behind the latest one; `none` if that is malformed. -/
def isStaleProgress (activityAttempt : Nat) (progress : DurableRunProgress) :
    Option RunEvent → Option Bool
  | none => some false
  | some latest => do
    let latestAttempt ← latest.payload.activityAttempt
    let latestProgress ← latest.payload.progress
    pure (decide (activityAttempt < latestAttempt) ||
      (activityAttempt == latestAttempt && decide (progress.sequence ≤ latestProgress.sequence)))

def recordProgressLoop (reference : RunWorkflowReference) (activityAttempt : Nat)
    (progress : DurableRunProgress) : Nat → Service Bool
  | 0 => throw (.runStore "state_conflict")
  | attempts + 1 => do
    let run ← CorpusKit.read (readRun reference)
    if run.state = .running then do
      let latest ← CorpusKit.read (latestProgress reference.organizationId reference.runId)
      let stale ← Prog.found (isStaleProgress activityAttempt progress latest)
        (.runStore "progress_integrity_violation")
      if stale then pure false
      else do
        let changed ← write (.progress reference run (progressPayload activityAttempt progress))
        if changed then pure true
        else recordProgressLoop reference activityAttempt progress attempts
    else pure false

def recordProgress (reference : RunWorkflowReference) (activityAttempt : Nat)
    (progress : DurableRunProgress) : Service Bool := do
  Prog.require (1 ≤ activityAttempt ∧ activityAttempt ≤ 100) (.runStore "invalid_progress")
  recordProgressLoop reference activityAttempt progress maxCasAttempts

/-- `commit_adopted_result`. -/
def commitAdopted (reference : RunWorkflowReference) (adopted : AdoptedArtifact) :
    Service ArtifactCommit := do
  let policy ← readPolicy reference.organizationId
  let now ← clock
  write (.adopt policy reference adopted now)

end DurableRunStore

/-! ## Adoption -/

/-- A staged result whose bytes have been read back and validated. -/
structure StagedResult where
  sha256 : Sha256
  sizeBytes : Nat
  mediaType : String
  schemaId : String
  datgIndex : Option AdoptedDatgIndex
  deriving DecidableEq, Repr

namespace ArtifactAdoptionService

/-- An adoption that finds the run asked to cancel acknowledges it instead. -/
def acknowledge (reference : RunWorkflowReference) : Service ArtifactCommit := do
  let s ← DurableRunStore.acknowledgeCancellation reference
  pure ⟨s, none, false⟩

/-- Whether the record just read, or the run by now, says so. -/
def isAsked (reference : RunWorkflowReference) (record : Run) : Service Bool :=
  if record.state = .cancelling ∨ record.state = .cancelled then pure true
  else DurableRunStore.cancellationRequested reference

/-- `adopt` of a valid staged result. -/
def adopt (dep : Deployment) (reference : RunWorkflowReference) (claim : StagedResult) :
    Service ArtifactCommit := do
  let record ← read (DurableRunStore.readRun reference)
  let asked ← isAsked reference record
  if asked then acknowledge reference
  else do
    -- meanwhile the staged bytes are read and validated
    let asked ← DurableRunStore.cancellationRequested reference
    if asked then acknowledge reference
    else do
      let key := artifactStorageKey record.organizationId record.projectId (some reference.runId)
        .runResult claim.sha256
      ask (.put key claim.sha256 claim.sizeBytes claim.mediaType)
      let now ← clock
      DurableRunStore.commitAdopted reference
        { sha256 := claim.sha256, sizeBytes := claim.sizeBytes, storageKey := key
          mediaType := claim.mediaType, filename := record.kind.value ++ "-result.json"
          schemaId := claim.schemaId, retentionUntil := now + dep.artifactRetention
          datgIndex := claim.datgIndex }

end ArtifactAdoptionService

/-! ## The control plane -/

namespace JobControlPlane

/-- `_submit_in_session`. -/
def submitInSession (dep : Deployment) (s : NewSubmission) : Service SubmissionResult := do
  let existing ← read (existingSubmission s)
  match existing with
  | some result => pure result
  | none => do
    Prog.require (dep.admits s.kind s.spec = true) (.invalidRequest s.operation)
    read (authorizeDatgIndex s)
    read (authorizeAdvancedArtifact s)
    read (authorizeCorpusLineage (prepareCorpus dep.nfc dep.sha256 lineageLimits) s)
    let policy ← readPolicy s.organizationId
    let now ← clock
    write (.submit policy s now)

def submit (dep : Deployment) (who : JobActor) (submission : RunSubmission)
    (idempotencyKey : String) : Service SubmissionResult := do
  Prog.require (isIdempotencyKey idempotencyKey = true) (.invalidRequest "run.idempotency")
  let spec ← Prog.found submission.spec (.invalidRequest "run.submit")
  let (userId, role) ← read (actor who)
  Prog.require (isWriter role = true) (.resourceNotFound "run.submit")
  read (submissionScope who.organizationId submission)
  submitInSession dep
    { organizationId := who.organizationId, userId, requestId := who.requestId
      projectId := submission.projectId, kind := submission.kind
      corpusVersionId := submission.corpusVersionId, spec, specSha256 := spec.sha256
      idempotencyKey, source := none }

def retry (dep : Deployment) (who : JobActor) (runId : Uuid) (idempotencyKey : String) :
    Service SubmissionResult := do
  Prog.require (isIdempotencyKey idempotencyKey = true) (.invalidRequest "run.idempotency")
  let (userId, role) ← read (actor who)
  Prog.require (isWriter role = true) (.resourceNotFound "run.retry")
  let source ← read (activeRun who.organizationId runId)
  Prog.require (source.state = .failed ∨ source.state = .cancelled)
    (.invalidStateTransition "run.retry")
  submitInSession dep
    { organizationId := who.organizationId, userId, requestId := who.requestId
      projectId := source.projectId, kind := source.kind
      corpusVersionId := source.corpusVersionId, spec := source.spec
      specSha256 := source.specSha256, idempotencyKey, source := some (runId, source.attempt) }

def maxCancellationAttempts : Nat := 3

def requestCancellationLoop (who : JobActor) (userId runId : Uuid) :
    Nat → Service (Run × OutboxState)
  | 0 => throw (.resourceConflict "run.cancel")
  | attempts + 1 => do
    let run ← read (activeRun who.organizationId runId)
    if run.state = .cancelling then do
      let outboxState ← read (dispatchState runId)
      pure (run, outboxState)
    else do
      let now ← clock
      let snapshot ← write (.cancel who userId runId run now)
      match snapshot with
      | some snapshot => pure snapshot
      | none => requestCancellationLoop who userId runId attempts

def requestCancellation (who : JobActor) (runId : Uuid) : Service (Run × OutboxState) := do
  let (userId, role) ← read (actor who)
  Prog.require (isWriter role = true) (.resourceNotFound "run.cancel")
  requestCancellationLoop who userId runId maxCancellationAttempts

end JobControlPlane

/-! ## Manifests and replays -/

namespace RunManifestService

/-- `_load_manifest` of a stored manifest whose bytes parse to `stored`. -/
def loadManifest (artifact : Artifact) (runId : Uuid) (stored : RunManifest) :
    Service RunManifest := do
  Prog.require (artifact.kind = .runManifest) (.reproducibility "manifest_metadata_conflict")
  let object ← look fun w => w.objects.lookup artifact.storageKey
  let object ← Prog.found object (.dependencyUnavailable "manifest.read")
  Prog.require (object.sha256 = artifact.sha256 ∧ object.sizeBytes = artifact.sizeBytes ∧
      stored.sha256 = artifact.sha256 ∧ stored.sizeBytes = artifact.sizeBytes ∧
      stored.projectId = artifact.projectId ∧ artifact.runId = some stored.runId ∧
      stored.runId = runId)
    (.reproducibility "manifest_integrity_violation")
  pure stored

def submitReplay (who : JobActor) (projectId sourceRunId : Uuid) (idempotencyKey : String)
    (stored : RunManifest) : Service ReplayCreation := do
  Prog.require (isIdempotencyKey idempotencyKey = true) (.invalidRequest "replay.idempotency")
  let _ ← read (actor who)
  let source ← read (sourceManifestRows who.organizationId projectId sourceRunId)
  let expected ← loadManifest source.artifact sourceRunId stored
  let policy ← readPolicy who.organizationId
  let now ← clock
  write (.replay policy ⟨who, projectId, sourceRunId, idempotencyKey, expected⟩ now)

/-- What finalization computes from durable facts, beside the rows. -/
structure Observation where
  manifest : RunManifest
  expected : Option RunManifest
  comparison : List (String × AuditValue)
  deriving DecidableEq, Repr

def finalize (dep : Deployment) (reference : RunWorkflowReference) (observed : Observation) :
    Service (Uuid × Bool) := do
  let build ← read (manifestBuild reference)
  match build with
  | .existing artifactId _ => do
    let now ← clock
    write (.completeReplay reference artifactId observed.expected observed.comparison now)
    pure (artifactId, false)
  | .fresh run factsSha256 outputs => do
    store (manifestKey reference.runId run observed.manifest.sha256) observed.manifest.sha256
      observed.manifest.sizeBytes "application/json" "manifest.create"
    let policy ← readPolicy reference.organizationId
    let now ← clock
    write (.finalize policy reference factsSha256 outputs observed.manifest observed.expected
      observed.comparison (now + dep.artifactRetention) now)

end RunManifestService

/-! ## Artifacts -/

namespace ArtifactService

/-- `_PUBLIC_UPLOAD_KINDS`. -/
def isPublicUpload (kind : ArtifactKind) : Bool := kind == .corpusText || kind == .promptSet

/-- `_read_all` of a row of the same content, unless its object is missing. What cannot be
verified is not reported as a success. -/
def readAll (row : Artifact) (w : World) : Except Error (Option StoredObject) :=
  if w.available then
    match w.objects.lookup row.storageKey with
    | none => .ok none
    | some object =>
      if object.sha256 = row.sha256 ∧ object.sizeBytes = row.sizeBytes ∧
          object.mediaType = row.mediaType then .ok (some object)
      else .error (.dependencyUnavailable "artifact.create")
  else .error (.dependencyUnavailable "artifact.create")

/-- The stored object of a row of the same content, if there is such a row. -/
def objectOf : Option (Uuid × Artifact) → Service (Option StoredObject)
  | none => pure none
  | some (_, row) => .perform (.query (readAll row))

/-- The upload route, then `create` of validated content. -/
def create (dep : Deployment) (who : ArtifactActor) (upload : Upload) :
    Service (Uuid × Bool) := do
  Prog.require (isPublicUpload upload.kind = true) (.invalidRequest "artifact.create")
  let userId ← read (authorizeScope who upload.projectId upload.runId true "artifact.create")
  let existing ← read (duplicate who upload)
  Prog.require (∀ row ∈ existing, row.2.state = .active) (.resourceConflict "artifact.create")
  let object ← objectOf existing
  match existing, object with
  | some (id, _), some _ => pure (id, false)
  | _, _ => do
    let key := artifactStorageKey who.organizationId upload.projectId upload.runId upload.kind
      upload.sha256
    store key upload.sha256 upload.sizeBytes upload.mediaType "artifact.create"
    let created ← clock
    let policy ← readPolicy who.organizationId
    let now ← clock
    Prog.handle
      (do
        let id ← write (.upload policy who userId upload (created + dep.artifactRetention) now)
        pure (id, true))
      fun e =>
        match e with
        | .integrity _ => do
          let raced ← read (duplicate who upload)
          match raced with
          | some (id, row) =>
            if row.state = .active then pure (id, false)
            else throw (.resourceConflict "artifact.create")
          | none => throw (.resourceConflict "artifact.create")
        | e => throw e

def tombstoneArtifact (who : ArtifactActor) (projectId artifactId : Uuid) : Service Unit := do
  let now ← clock
  write (.tombstone who projectId artifactId now)

/-- The exceptions a purge counts as a failure of one candidate. -/
def isPurgeFailure : Error → Bool
  | .objectStore _ => true
  | .objectNotFound _ => true
  | .integrity _ => true
  | _ => false

/-- One candidate of `purge_due`: its object first, then its row. -/
def purgeOne (id : Uuid) (row : Artifact) (cutoff : Instant) : Service Bool :=
  Prog.handle
    (do
      ask (.purgeObject id row cutoff)
      let now ← clock
      write (.markPurged id row cutoff now))
    fun e => if isPurgeFailure e then pure false else throw e

def purgeAll (cutoff : Instant) : List (Uuid × Artifact) → Service Nat
  | [] => pure 0
  | (id, row) :: rows => do
    let purged ← purgeOne id row cutoff
    let rest ← purgeAll cutoff rows
    pure (if purged then rest + 1 else rest)

def purgeDue (limit : Nat) : Service Nat := do
  let cutoff ← clock
  let rows ← read (purgeCandidates cutoff limit)
  purgeAll cutoff rows

/-- One key that is unreferenced in `seen`: an old object is deleted, a young one deferred. -/
def collectOne (seen : Db) (orphanCutoff : Instant) (key : String) : Service Bool :=
  Prog.handle
    (do
      let object ← look fun w => (w.objects.find fun k _ => k.render == key).map (·.2)
      let object ← Prog.found object (.objectNotFound "object not found")
      if orphanCutoff < object.modifiedAt then pure false
      else do
        ask (.collect key seen)
        pure true)
    fun e => if isPurgeFailure e then pure false else throw e

def collectAll (seen : Db) (orphanCutoff : Instant) : List String → Service Nat
  | [] => pure 0
  | key :: keys => do
    let collected ← collectOne seen orphanCutoff key
    let rest ← collectAll seen orphanCutoff keys
    pure (if collected then rest + 1 else rest)

/-- The keys a listing sees. -/
def World.storedKeys (w : World) : List String := w.objects.keys.map StorageKey.render

/-- `reconcile_orphans`: the deletions and the next cursor. -/
def reconcileOrphans (dep : Deployment) (cursor : Option String) (limit : Nat) :
    Service (Nat × Option String) := do
  Prog.require (ObjectStore.validListing limit cursor = true) (.invalidRequest "artifact.reconcile")
  let keys ← look fun w => ObjectStore.listKeys (World.storedKeys w) limit cursor
  let (seen, page) ← look fun w => (w.db, reconciliationPage w.db.artifacts keys cursor limit)
  let now ← clock
  let deleted ← collectAll seen (now - dep.orphanGrace) page.orphans
  pure (deleted, page.nextCursor)

end ArtifactService

/-! ## Workspaces -/

namespace ProjectWorkspace

def openProject (who : WorkspaceActor) (name : String) : Service Uuid := do
  let now ← clock
  write (.createProject who name now)

/-- `prepare_corpus` under the settings of the deployment. -/
def prepare (dep : Deployment) (request : CorpusImportRequest) : Service PreparedCorpus :=
  match prepareCorpus dep.nfc dep.sha256 dep.corpusLimits request with
  | .ok prepared => pure prepared
  | .error e => throw e

def importCorpus (dep : Deployment) (who : WorkspaceActor) (projectId : Uuid) (name : String)
    (request : CorpusImportRequest) : Service Uuid := do
  let prepared ← prepare dep request
  let policy ← readPolicy who.organizationId
  let now ← clock
  write (.createCorpus policy who projectId name prepared now)

def importVersion (dep : Deployment) (who : WorkspaceActor) (projectId corpusId : Uuid)
    (request : CorpusImportRequest) (operation : String) : Service Uuid := do
  let prepared ← prepare dep request
  let policy ← readPolicy who.organizationId
  let now ← clock
  write (.createVersion policy who projectId corpusId prepared operation now)

end ProjectWorkspace

namespace ProjectDeletion

def requestDeletion (dep : Deployment) (who : WorkspaceActor) (projectId : Uuid)
    (confirmation : String) : Service Unit := do
  let now ← clock
  write (.requestDeletion who projectId confirmation dep.projectRetention now)

/-- The key lies under the project's prefix. -/
def underProject (organizationId projectId : Uuid) : StorageKey → Bool
  | .artifact org project _ _ _ => org == organizationId && project == projectId
  | .staged _ => false

/-- Some object is stored under the project's prefix. -/
def World.hasObjects (w : World) (organizationId projectId : Uuid) : Bool :=
  w.objects.keys.any (underProject organizationId projectId)

/-- `_purge_candidate`. -/
def purgeCandidate (organizationId projectId : Uuid) (cutoff : Instant) : Service Bool := do
  let due ← read (ready organizationId projectId cutoff)
  match due with
  | none => pure false
  | some _ => do
    let stored ← look fun w => World.hasObjects w organizationId projectId
    if stored then pure false else write (.purgeProject organizationId projectId cutoff)

/-- The exceptions a project purge counts as a failure of one candidate. -/
def isPurgeFailure : Error → Bool
  | .objectStore _ => true
  | .objectNotFound _ => true
  | .integrity _ => true
  | .runtime _ => true
  | .value _ => true
  | _ => false

def purgeAll (cutoff : Instant) : List (Uuid × Uuid) → Service Nat
  | [] => pure 0
  | (projectId, organizationId) :: rest => do
    let purged ← Prog.handle (purgeCandidate organizationId projectId cutoff)
      fun e => if isPurgeFailure e then pure false else throw e
    let later ← purgeAll cutoff rest
    pure (if purged then later + 1 else later)

def purgeDue (limit : Nat) : Service Nat := do
  Prog.require (1 ≤ limit ∧ limit ≤ 1000) (.value "project purge limit must be between 1 and 1000")
  let cutoff ← clock
  let due ← read (candidates cutoff limit)
  purgeAll cutoff due

end ProjectDeletion

/-! ## Quotas -/

namespace QuotaManager

def expireAll (cutoff : Instant) : List (Uuid × Uuid × Uuid) → Service Nat
  | [] => pure 0
  | (reservationId, organizationId, runId) :: rest => do
    let now ← clock
    let expired ← write (.expire cutoff reservationId organizationId runId now)
    let later ← expireAll cutoff rest
    pure (if expired then later + 1 else later)

def expireStale (limit : Nat) : Service Nat := do
  Prog.require (1 ≤ limit ∧ limit ≤ 10000)
    (.value "quota expiry limit must be between 1 and 10000")
  let cutoff ← clock
  let stale ← look fun w => w.db.staleReservations cutoff limit
  expireAll cutoff stale

end QuotaManager

def updatePolicy (organizationId : Uuid) (policy : QuotaPolicyValues)
    (requestId : Option String) : Service Unit := do
  let current ← readPolicy organizationId
  let now ← clock
  write (.replacePolicy current organizationId policy requestId now)

/-! ## Dispatch -/

namespace TransactionalOutbox

/-- The candidates whose update hits, each looked up when its turn comes. -/
def touchAll (expired : Instant) : List Uuid → Service (List Uuid)
  | [] => pure []
  | id :: ids => do
    let hit ← read (touches id expired)
    let hits ← touchAll expired ids
    pure (if hit then id :: hits else hits)

def claim (workerId : String) (limit : Nat) (lease : Duration) : Service (List DispatchMessage) := do
  Prog.require (workerId ≠ "" ∧ workerId.length ≤ 80)
    (.value "worker_id must be between 1 and 80 characters")
  let now ← clock
  let ids ← read (candidates now (now - lease) limit)
  let hits ← touchAll (now - lease) ids
  write (.claim workerId now (now - lease) hits)

/-- Publish claimed messages; `reaches` says which publish calls return. -/
def publishAll (workerId : String) (reaches : DispatchMessage → Bool) :
    List DispatchMessage → Service (Nat × Nat)
  | [] => pure (0, 0)
  | message :: messages => do
    if reaches message then do
      ask (.publish message)
      let now ← clock
      write (.markPublished message.id workerId now)
      let (published, failed) ← publishAll workerId reaches messages
      pure (published + 1, failed)
    else do
      let now ← clock
      write (.releaseFailed message.id workerId now)
      let (published, failed) ← publishAll workerId reaches messages
      pure (published, failed + 1)

def dispatchBatch (dep : Deployment) (workerId : String) (limit : Nat)
    (reaches : DispatchMessage → Bool) : Service DispatchResult := do
  let messages ← claim workerId limit dep.leaseDuration
  let (published, failed) ← publishAll workerId reaches messages
  pure ⟨messages.length, published, failed⟩

end TransactionalOutbox

end CorpusKit
