import CorpusKit.Persistence.Models

/-! # Statements

The statements the services issue inside a transaction: fresh identifiers, the
reads shared by several services, and inserts with the uniqueness constraints
the database enforces on them. -/

namespace CorpusKit

open Transaction

abbrev DbTx := Tx Db Error

/-- `uuid4()`. -/
def uuid4 : DbTx Uuid := do
  let db ← get
  set { db with nextId := db.nextId + 1 }
  pure db.nextId

/-! ## Runs and their events -/

/-- The run with this identifier in this organization. -/
def Db.run? (db : Db) (organizationId runId : Uuid) : Option Run :=
  (db.runs.lookup runId).filter fun run => run.organizationId == organizationId

def setRun (runId : Uuid) (run : Run) : DbTx Unit :=
  modify fun db => { db with runs := db.runs.insert runId run }

/-- Insert an event; a run has at most one event for each sequence number. -/
def addRunEvent (organizationId runId : Uuid) (sequence : Nat) (eventType : String)
    (payload : EventPayload) : DbTx Unit := do
  let db ← get
  require (db.runEvents.lookup (runId, sequence) = none) (.integrity "uq_run_events_run_id")
  set { db with
    runEvents := db.runEvents.insert (runId, sequence) ⟨organizationId, eventType, payload⟩ }

/-- The run an idempotency key of the organization belongs to. -/
def Db.idempotentRun (db : Db) (organizationId : Uuid) (idempotencyKey : String) :
    Option (Uuid × Run) :=
  db.runs.find fun _ run =>
    run.organizationId == organizationId && run.idempotencyKey == idempotencyKey

/-- Whether the project accepts work: it exists and is not being deleted. -/
def Db.activeProject (db : Db) (organizationId projectId : Uuid) : Bool :=
  match db.projects.lookup projectId with
  | some project => project.organizationId == organizationId && project.lifecycle == .active
  | none => false

/-! ## Outbox -/

/-- `_outbox`: an intent for the run, available at once. -/
def addOutboxMessage (runId : Uuid) (run : Run) (eventType : String) (now : Instant) :
    DbTx Unit := do
  let id ← uuid4
  modify fun db => { db with
    outboxMessages := db.outboxMessages.insert id
      { organizationId := run.organizationId, runId, eventType
        payload := ⟨runId, run.kind, run.specSha256⟩
        state := .pending, createdAt := now, availableAt := now
        claimedAt := none, claimedBy := none, processedAt := none
        attempts := 0, lastErrorCode := none } }

/-! ## Artifacts -/

def Artifact.sameScopeDigest (a b : Artifact) : Bool :=
  a.organizationId == b.organizationId && a.projectId == b.projectId &&
    a.scopeKey == b.scopeKey && a.kind == b.kind && a.sha256 == b.sha256

/-- The columns of `uq_datg_index_publications_project_cache_key` agree. -/
def DatgIndexPublication.sameIndex (a b : DatgIndexPublication) : Bool :=
  a.organizationId == b.organizationId && a.projectId == b.projectId &&
    a.cacheKeySha256 == b.cacheKeySha256

/-- Insert an artifact row under its identifier. -/
def insertArtifact (id : Uuid) (artifact : Artifact) : DbTx Unit := do
  let db ← get
  require (0 < artifact.sizeBytes) (.integrity "ck_artifacts_positive_size")
  require (db.artifacts.find (fun _ row => row.sameScopeDigest artifact) = none)
    (.integrity "uq_artifacts_scope_digest")
  require (db.artifacts.find (fun _ row => row.storageKey == artifact.storageKey) = none)
    (.integrity "uq_artifacts_storage_key")
  set { db with artifacts := db.artifacts.insert id artifact }

end CorpusKit
