import CorpusKit.Services.Platform
import CorpusKit.Persistence.ObjectStore

/-! # Artifact metadata, retention and reconciliation

The database side of `ArtifactService`; its object-store steps are operations of
their own. -/

namespace CorpusKit

open Transaction

structure ArtifactActor where
  subject : String
  organizationId : Uuid
  requestId : Option String
  deriving DecidableEq, Repr

namespace ArtifactService

/-- What a creation stores once its content and names have been validated. -/
structure Upload where
  projectId : Uuid
  runId : Option Uuid
  kind : ArtifactKind
  sha256 : Sha256
  sizeBytes : Nat
  mediaType : String
  filename : String
  deriving DecidableEq, Repr

/-- `_authorize_scope`. -/
def authorizeScope (who : ArtifactActor) (projectId : Uuid) (runId : Option Uuid) (write : Bool)
    (operation : String) : DbTx Uuid := do
  let db ← get
  let row ← found (db.memberships.find? fun row =>
      row.subject == who.subject && row.organizationId == who.organizationId)
    (.resourceNotFound operation)
  require (db.activeProject who.organizationId projectId = true) (.resourceNotFound operation)
  require (¬ (write = true ∧ row.role = .viewer)) (.resourceNotFound operation)
  require (∀ id ∈ runId, ∃ run ∈ db.run? who.organizationId id, run.projectId = projectId)
    (.resourceNotFound operation)
  pure row.userId

def newArtifact (who : ArtifactActor) (userId : Uuid) (upload : Upload)
    (retentionUntil : Instant) : Artifact where
  organizationId := who.organizationId
  projectId := upload.projectId
  runId := upload.runId
  createdBy := userId
  scopeKey := upload.runId
  kind := upload.kind
  sha256 := upload.sha256
  sizeBytes := upload.sizeBytes
  storageKey := artifactStorageKey who.organizationId upload.projectId upload.runId upload.kind
    upload.sha256
  mediaType := upload.mediaType
  filename := upload.filename
  state := .active
  retentionUntil
  tombstonedAt := none
  deletedAt := none

/-- `_duplicate`: the row of the same scope, kind and digest, in any state. -/
def duplicate (who : ArtifactActor) (upload : Upload) : DbTx (Option (Uuid × Artifact)) := do
  let db ← get
  pure (db.artifacts.find fun _ row =>
    row.organizationId == who.organizationId && row.projectId == upload.projectId &&
      row.scopeKey == upload.runId && row.kind == upload.kind && row.sha256 == upload.sha256)

/-- The metadata transaction of `create`, with the policy it read. -/
def insertUpload (policy : Option QuotaPolicyValues) (who : ArtifactActor) (userId : Uuid)
    (upload : Upload) (retentionUntil : Instant) (now : Instant) : DbTx Uuid := do
  let _ ← authorizeScope who upload.projectId upload.runId true "artifact.create"
  QuotaManager.consumeArtifact policy who.organizationId upload.kind upload.sizeBytes
  let id ← uuid4
  insertArtifact id (newArtifact who userId upload retentionUntil)
  AuditWriter.append who.organizationId (.user userId) .artifactCreated .artifact id who.requestId
    [("kind", .text upload.kind.value), ("sha256", .digest upload.sha256),
     ("size_bytes", .nat upload.sizeBytes)] now
  pure id

def tombstone (who : ArtifactActor) (projectId artifactId : Uuid) (now : Instant) : DbTx Unit := do
  let userId ← authorizeScope who projectId none true "artifact.delete"
  let db ← get
  let artifact ← found ((db.artifacts.lookup artifactId).filter fun row =>
      row.organizationId == who.organizationId && row.projectId == projectId &&
        row.state == .active)
    (.resourceNotFound "artifact.delete")
  set { db with
    artifacts := db.artifacts.insert artifactId
      { artifact with state := .tombstoned, tombstonedAt := some now } }
  AuditWriter.append who.organizationId (.user userId) .artifactTombstoned .artifact artifactId
    who.requestId
    [("kind", .text artifact.kind.value), ("size_bytes", .nat artifact.sizeBytes)] now

/-! ## Purging -/

/-- The candidates of `purge_due`, as rows read before anything is deleted. -/
def purgeCandidates (cutoff : Instant) (limit : Nat) : DbTx (List (Uuid × Artifact)) := do
  let db ← get
  let due := db.artifacts.select fun _ row =>
    row.state == .tombstoned && decide (row.retentionUntil ≤ cutoff)
  let ordered := due.insertionSort fun a b => a.2.retentionUntil < b.2.retentionUntil ∨
    (a.2.retentionUntil = b.2.retentionUntil ∧ a.1 ≤ b.1)
  pure (ordered.take limit)

/-- The update after the object of candidate `read` has been deleted. -/
def markPurged (id : Uuid) (read : Artifact) (cutoff now : Instant) : DbTx Bool := do
  let db ← get
  match (db.artifacts.lookup id).filter fun row => row.state == .tombstoned with
  | none => pure false
  | some row =>
    set { db with
      artifacts := db.artifacts.insert id { row with state := .deleted, deletedAt := some cutoff } }
    QuotaManager.releaseArtifact read.organizationId read.sizeBytes
    AuditWriter.append read.organizationId (.service .maintenance) .artifactPurged .artifact id none
      [("kind", .text read.kind.value), ("size_bytes", .nat read.sizeBytes)] now
    pure true

/-! ## Reconciliation -/

/-- The metadata page of `reconcile_orphans`: rows that are not deleted, by key. -/
def auditArtifacts (artifacts : Table Uuid Artifact) (cursor : Option String) (limit : Nat) :
    List Artifact :=
  let rows := (artifacts.rows.map (·.2)).filter fun row =>
    row.state != .deleted && decide (cursor.getD "" < row.storageKey.render)
  (rows.insertionSort fun a b => a.storageKey.render ≤ b.storageKey.render).take limit

/-- `_reconciliation_cursor`: the lower full-page boundary of the two streams. -/
def reconciliationCursor (keys : List String) (artifacts : List Artifact) (limit : Nat) :
    Option String :=
  let ofKeys := if keys.length = limit then keys.getLast? else none
  let ofArtifacts := if artifacts.length = limit
    then artifacts.getLast?.map fun row => row.storageKey.render else none
  match ofKeys, ofArtifacts with
  | some a, some b => some (min a b)
  | some a, none => some a
  | none, some b => some b
  | none, none => none

/-- One page of a reconciliation: its keys, those of them a row references, its
metadata rows, and where the next page starts. -/
structure Page where
  keys : List String
  referenced : List String
  artifacts : List Artifact
  nextCursor : Option String
  deriving DecidableEq, Repr

/-- The keys of the page that no row references. -/
def Page.orphans (page : Page) : List String :=
  page.keys.filter fun key => !page.referenced.contains key

/-- The metadata session of `reconcile_orphans` for the keys just listed. -/
def reconciliationPage (artifacts : Table Uuid Artifact) (keys : List String)
    (cursor : Option String) (limit : Nat) : Page :=
  let audited := auditArtifacts artifacts cursor limit
  let nextCursor := reconciliationCursor keys audited limit
  let within (key : String) : Bool := nextCursor.all fun boundary => decide (key ≤ boundary)
  let pageKeys := keys.filter within
  { keys := pageKeys
    referenced := pageKeys.filter fun key =>
      artifacts.rows.any fun e => e.2.storageKey.render == key
    artifacts := audited.filter fun row => within row.storageKey.render
    nextCursor }

/-- `reconcile_orphans` up to its deletions: the listing, then the session. -/
def reconcile (stored : List String) (artifacts : Table Uuid Artifact) (cursor : Option String)
    (limit : Nat) : Except Error Page :=
  if ObjectStore.validListing limit cursor then
    .ok (reconciliationPage artifacts (ObjectStore.listKeys stored limit cursor) cursor limit)
  else .error (.invalidRequest "artifact.reconcile")

end ArtifactService

end CorpusKit
