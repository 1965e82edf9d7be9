import CorpusKit.Library.Machine
import CorpusKit.Services.Artifacts
import CorpusKit.Services.Jobs
import CorpusKit.Services.Projects
import CorpusKit.Services.Reproducibility

/-! # The world the services share

A database, an object store, the clock, and the workflow service that accepts
dispatched messages. Every step of a service is one operation on it: a read,
the commit of a transaction, or a request to the object store or the workflow
service. The bodies of the transactions are those of the services. -/

namespace CorpusKit

open Transaction Program Interleaving

structure StoredObject where
  sha256 : Sha256
  sizeBytes : Nat
  mediaType : String
  modifiedAt : Instant
  deriving DecidableEq, Repr

structure World where
  db : Db
  objects : Table StorageKey StoredObject
  now : Instant
  /-- Whether the object store answers. -/
  available : Bool
  /-- The outbox messages a publish call returned for. -/
  delivered : List Uuid
  /-- The runs whose workflow has received the cancellation signal. -/
  signalled : List Uuid

/-- What differs between deployments: the Unicode normalization and the digest of
the platform, the admission policy, and the settings. -/
structure Deployment where
  nfc : List Char → List Char
  sha256 : List Char → Sha256
  admits : RunKind → RunSpec → Bool
  corpusLimits : CorpusImportLimits
  artifactRetention : Duration
  orphanGrace : Duration
  projectRetention : Duration
  leaseDuration : Duration

/-! ## Transactions -/

/-- The transactions that write, with what each was given or had read before. -/
inductive Action : Type → Type
  | submit (policy : Option QuotaPolicyValues) (s : NewSubmission) (now : Instant) :
      Action SubmissionResult
  | replay (policy : Option QuotaPolicyValues) (s : RunManifestService.NewReplay)
      (now : Instant) : Action RunManifestService.ReplayCreation
  | cancel (who : JobActor) (userId runId : Uuid) (read : Run) (now : Instant) :
      Action (Option (Run × OutboxState))
  /-- The read of `_transition`, which takes no lock. -/
  | readFor (reference : RunWorkflowReference) (transition : DurableRunStore.Transition) : Action Run
  | transition (reference : RunWorkflowReference) (read : Run)
      (transition : DurableRunStore.Transition) (now : Instant) : Action Bool
  | progress (reference : RunWorkflowReference) (read : Run) (payload : EventPayload) : Action Bool
  | adopt (policy : Option QuotaPolicyValues) (reference : RunWorkflowReference)
      (adopted : AdoptedArtifact) (now : Instant) : Action ArtifactCommit
  | expire (cutoff : Instant) (reservationId organizationId runId : Uuid) (now : Instant) :
      Action Bool
  | replacePolicy (current : Option QuotaPolicyValues) (organizationId : Uuid)
      (policy : QuotaPolicyValues) (requestId : Option String) (now : Instant) : Action Unit
  | provision (organizationId : Uuid) : Action Unit
  | upload (policy : Option QuotaPolicyValues) (who : ArtifactActor) (userId : Uuid)
      (upload : ArtifactService.Upload) (retentionUntil now : Instant) : Action Uuid
  | tombstone (who : ArtifactActor) (projectId artifactId : Uuid) (now : Instant) : Action Unit
  | markPurged (id : Uuid) (read : Artifact) (cutoff now : Instant) : Action Bool
  | recordExecution (reference : RunWorkflowReference) (facts : TrustedExecutionFacts)
      (inputs : List InputDigest) : Action Bool
  | finalize (policy : Option QuotaPolicyValues) (reference : RunWorkflowReference)
      (factsSha256 : Sha256) (outputs : List (Uuid × Artifact)) (manifest : RunManifest)
      (expected : Option RunManifest) (comparison : List (String × AuditValue))
      (retentionUntil now : Instant) : Action (Uuid × Bool)
  | completeReplay (reference : RunWorkflowReference) (manifestArtifactId : Uuid)
      (expected : Option RunManifest) (comparison : List (String × AuditValue)) (now : Instant) :
      Action Unit
  | createProject (who : WorkspaceActor) (name : String) (now : Instant) : Action Uuid
  | createCorpus (policy : Option QuotaPolicyValues) (who : WorkspaceActor) (projectId : Uuid)
      (name : String) (prepared : PreparedCorpus) (now : Instant) : Action Uuid
  | createVersion (policy : Option QuotaPolicyValues) (who : WorkspaceActor)
      (projectId corpusId : Uuid) (prepared : PreparedCorpus) (operation : String)
      (now : Instant) : Action Uuid
  | requestDeletion (who : WorkspaceActor) (projectId : Uuid) (confirmation : String)
      (retention : Duration) (now : Instant) : Action Unit
  | purgeProject (organizationId projectId : Uuid) (cutoff : Instant) : Action Bool
  | claim (workerId : String) (now expired : Instant) (ids : List Uuid) :
      Action (List DispatchMessage)
  | markPublished (id : Uuid) (workerId : String) (now : Instant) : Action Unit
  | releaseFailed (id : Uuid) (workerId : String) (now : Instant) : Action Unit

def Action.body (dep : Deployment) {β : Type} : Action β → DbTx β
  | .submit policy s now => JobControlPlane.insertSubmission policy s now
  | .replay policy s now => RunManifestService.insertReplay dep.admits policy s now
  | .cancel who userId runId read now => JobControlPlane.commitCancellation who userId runId read now
  | .readFor reference _ => DurableRunStore.readRun reference
  | .transition reference read target now =>
    DurableRunStore.commitTransition reference read target now
  | .progress reference read payload => DurableRunStore.commitProgress reference read payload
  | .adopt policy reference adopted now =>
    DurableRunStore.commitAdoptedResult policy reference adopted now
  | .expire cutoff reservationId organizationId runId now =>
    QuotaManager.expireReservation cutoff reservationId organizationId runId now
  | .replacePolicy current organizationId policy requestId now =>
    CorpusKit.replacePolicy current organizationId policy requestId now
  | .provision organizationId => ensurePlatformRows organizationId
  | .upload policy who userId content retentionUntil now =>
    ArtifactService.insertUpload policy who userId content retentionUntil now
  | .tombstone who projectId artifactId now => ArtifactService.tombstone who projectId artifactId now
  | .markPurged id read cutoff now => ArtifactService.markPurged id read cutoff now
  | .recordExecution reference facts inputs =>
    RunManifestService.recordExecution reference facts inputs
  | .finalize policy reference factsSha256 outputs manifest expected comparison retentionUntil now =>
    RunManifestService.finalizeManifest policy reference factsSha256 outputs manifest expected
      comparison retentionUntil now
  | .completeReplay reference manifestArtifactId expected comparison now =>
    RunManifestService.completeReplay reference manifestArtifactId expected comparison now
  | .createProject who name now => ProjectWorkspace.createProject who name now
  | .createCorpus policy who projectId name prepared now =>
    ProjectWorkspace.createCorpus policy who projectId name prepared now
  | .createVersion policy who projectId corpusId prepared operation now =>
    ProjectWorkspace.createVersion policy who projectId corpusId prepared operation now
  | .requestDeletion who projectId confirmation retention now =>
    ProjectDeletion.request who projectId confirmation retention now
  | .purgeProject organizationId projectId cutoff =>
    ProjectDeletion.purge organizationId projectId cutoff
  | .claim workerId now expired ids => TransactionalOutbox.claimAll workerId now expired ids
  | .markPublished id workerId now => TransactionalOutbox.markPublished id workerId now
  | .releaseFailed id workerId now => TransactionalOutbox.releaseFailed id workerId now

/-! ## Requests to other services -/

inductive Request : Type → Type
  /-- Store content under a key. The first writer wins: an object that exists is
  only compared with what was to be stored. -/
  | put (key : StorageKey) (sha256 : Sha256) (sizeBytes : Nat) (mediaType : String) : Request Unit
  /-- Delete the object of an artifact row read before. -/
  | purgeObject (id : Uuid) (read : Artifact) (cutoff : Instant) : Request Unit
  /-- Delete an object a reconciliation found unreferenced in the rows of `seen`. -/
  | collect (key : String) (seen : Db) : Request Unit
  /-- Hand a message to the workflow service. -/
  | publish (message : DispatchMessage) : Request Unit

abbrev WorldTx := Tx World Error

/-- The object store's own failure. -/
def reachStore : WorldTx Unit := do
  let w ← get
  require (w.available = true) (.objectStore "object store is unavailable")

/-- `put`. -/
def putObject (key : StorageKey) (sha256 : Sha256) (sizeBytes : Nat) (mediaType : String) :
    WorldTx Unit := do
  reachStore
  let w ← get
  match w.objects.lookup key with
  | some stored =>
    require (stored.sha256 = sha256 ∧ stored.sizeBytes = sizeBytes ∧ stored.mediaType = mediaType)
      (.objectStore "stored object does not match")
  | none =>
    set { w with objects := w.objects.insert key ⟨sha256, sizeBytes, mediaType, w.now⟩ }

def Request.body {β : Type} : Request β → WorldTx β
  | .put key sha256 sizeBytes mediaType => putObject key sha256 sizeBytes mediaType
  | .purgeObject _ read _ => do
    reachStore
    modify fun w => { w with objects := w.objects.erase read.storageKey }
  | .collect key _ => do
    reachStore
    modify fun w => { w with objects := w.objects.deleteWhere fun k _ => k.render == key }
  | .publish message => modify fun w => { w with delivered := message.id :: w.delivered }

/-! ## Operations -/

/-- One step of a service. -/
inductive Op (β : Type) : Type
  | query (q : World → Except Error β)
  | write (action : Action β)
  | request (request : Request β)

/-- A transaction of the database, in the world. -/
def transact {β : Type} (body : DbTx β) : WorldTx β := fun w =>
  match body.run w.db with
  | .ok (b, db) => .ok (b, { w with db })
  | .error e => .error e

def Op.exec (dep : Deployment) {β : Type} : Op β → WorldTx β
  | .query q => fun w => (q w).map fun b => (b, w)
  | .write action => transact (action.body dep)
  | .request r => r.body

/-- What happens without any service: time passes, the object store comes and
goes, and a workflow receives a cancellation signal. -/
inductive Tick
  | pass (duration : Duration)
  | store (available : Bool)
  | signal (runId : Uuid)

def Tick.apply : Tick → World → World
  | .pass duration, w => { w with now := w.now + duration }
  | .store available, w => { w with available }
  | .signal runId, w => { w with signalled := runId :: w.signalled }

/-! ## What an operation is about -/

/-- The key under which an object is stored. -/
def Request.put? {β : Type} : Request β → Option StorageKey
  | .put key _ _ _ => some key
  | _ => none

def Op.put? {β : Type} : Op β → Option StorageKey
  | .request r => r.put?
  | _ => none

/-- The candidate and the cutoff of an object delete of `purge_due`. -/
def Request.purge? {β : Type} : Request β → Option (Uuid × Artifact × Instant)
  | .purgeObject id read cutoff => some (id, read, cutoff)
  | _ => none

def Op.purge? {β : Type} : Op β → Option (Uuid × Artifact × Instant)
  | .request r => r.purge?
  | _ => none

/-- The organization, the project and the cutoff of the erasure of a project. -/
def Action.erase? {β : Type} : Action β → Option (Uuid × Uuid × Instant)
  | .purgeProject organizationId projectId cutoff => some (organizationId, projectId, cutoff)
  | _ => none

def Op.erase? {β : Type} : Op β → Option (Uuid × Uuid × Instant)
  | .write action => action.erase?
  | _ => none

/-! ## What an operation does -/

section Inversion

variable {β : Type} {w w' : World} {b : β}

theorem transact_returns {body : DbTx β} (h : Returns (transact body) w b w') :
    ∃ db, Returns body w.db b db ∧ w' = { w with db } := by
  simp only [Returns, transact, StateT.run] at h
  split at h
  · next b' db hrun =>
    cases h
    exact ⟨db, hrun, rfl⟩
  · cases h

theorem query_returns {dep : Deployment} {q : World → Except Error β}
    (h : Returns ((Op.query q).exec dep) w b w') : q w = .ok b ∧ w = w' := by
  simp only [Returns, Op.exec, StateT.run] at h
  cases hq : q w with
  | error e => rw [hq] at h; cases h
  | ok a =>
    rw [hq] at h
    cases h
    exact ⟨rfl, rfl⟩

theorem reachStore_returns {u : Unit} (h : Returns reachStore w u w') : w = w' := by
  obtain ⟨x, w₁, hget, h⟩ := h.bind
  obtain ⟨rfl, rfl⟩ := hget.get
  exact h.require.2

theorem putObject_returns {key : StorageKey} {sha256 : Sha256} {sizeBytes : Nat}
    {mediaType : String} {u : Unit} (h : Returns (putObject key sha256 sizeBytes mediaType) w u w') :
    (w = w' ∧ ∃ stored, w.objects.lookup key = some stored ∧ stored.sha256 = sha256 ∧
        stored.sizeBytes = sizeBytes ∧ stored.mediaType = mediaType) ∨
      (w.objects.lookup key = none ∧
        w' = { w with objects := w.objects.insert key ⟨sha256, sizeBytes, mediaType, w.now⟩ }) := by
  obtain ⟨u₁, w₁, hreach, h⟩ := h.bind
  obtain rfl := reachStore_returns hreach
  obtain ⟨x, w₂, hget, h⟩ := h.bind
  obtain ⟨rfl, rfl⟩ := hget.get
  split at h
  · next stored hstored =>
    obtain ⟨hsame, rfl⟩ := h.require
    exact .inl ⟨rfl, stored, hstored, hsame⟩
  · next hnone => exact .inr ⟨hnone, h.set.symm⟩

theorem purgeObject_returns {id : Uuid} {read : Artifact} {cutoff : Instant} {u : Unit}
    (h : Returns (Request.purgeObject id read cutoff).body w u w') :
    w' = { w with objects := w.objects.erase read.storageKey } := by
  obtain ⟨u₁, w₁, hreach, h⟩ := h.bind
  obtain rfl := reachStore_returns hreach
  exact h.modify.symm

theorem collect_returns {key : String} {seen : Db} {u : Unit}
    (h : Returns (Request.collect key seen).body w u w') :
    w' = { w with objects := w.objects.deleteWhere fun k _ => k.render == key } := by
  obtain ⟨u₁, w₁, hreach, h⟩ := h.bind
  obtain rfl := reachStore_returns hreach
  exact h.modify.symm

theorem publish_returns {message : DispatchMessage} {u : Unit}
    (h : Returns (Request.publish message).body w u w') :
    w' = { w with delivered := message.id :: w.delivered } := h.modify.symm

/-- No request touches the database. -/
theorem Request.db_eq {request : Request β} (h : Returns request.body w b w') : w'.db = w.db := by
  cases request with
  | put key sha256 sizeBytes mediaType =>
    obtain ⟨rfl, -⟩ | ⟨-, rfl⟩ := putObject_returns h <;> rfl
  | purgeObject id read cutoff => rw [purgeObject_returns h]
  | collect key seen => rw [collect_returns h]
  | publish message => rw [publish_returns h]

/-- An object that is there afterwards was there before, or has just been put. -/
theorem Op.objects_grow {dep : Deployment} {o : Op β} (h : Returns (o.exec dep) w b w')
    {key : StorageKey} (hkey : w'.objects.lookup key ≠ none) :
    w.objects.lookup key ≠ none ∨ o.put? = some key := by
  cases o with
  | query q =>
    obtain ⟨-, rfl⟩ := query_returns h
    exact .inl hkey
  | write action =>
    obtain ⟨db, -, rfl⟩ := transact_returns h
    exact .inl hkey
  | request r =>
    have h : Returns r.body w b w' := h
    cases r with
    | put stored sha256 sizeBytes mediaType =>
      obtain ⟨rfl, -⟩ | ⟨-, rfl⟩ := putObject_returns h
      · exact .inl hkey
      · by_cases hsame : key = stored
        · exact .inr (hsame ▸ rfl)
        · exact .inl fun hnone => hkey ((AList.lookup_insert_ne hsame).trans hnone)
    | purgeObject id read cutoff =>
      rw [purgeObject_returns h] at hkey
      by_cases hsame : key = read.storageKey
      · subst hsame
        exact absurd (AList.lookup_erase _ _) hkey
      · exact .inl fun hnone => hkey ((AList.lookup_erase_ne hsame).trans hnone)
    | collect gone seen =>
      rw [collect_returns h] at hkey
      obtain ⟨object, hobject⟩ := Option.ne_none_iff_exists'.mp hkey
      exact .inl (Option.ne_none_iff_exists'.mpr
        ⟨object, (Table.lookup_deleteWhere.mp hobject).1⟩)
    | publish message =>
      rw [publish_returns h] at hkey
      exact .inl hkey

end Inversion

end CorpusKit
