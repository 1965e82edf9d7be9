import CorpusKit.Services.Platform

/-! # Projects, corpora and their deletion

`ProjectService` and the workspace transactions around it, then
`ProjectDeletionService` and the final erasure of `ProjectDeletionMaintenance`.
Names arrive normalized and corpora prepared. -/

namespace CorpusKit

open Transaction

structure WorkspaceActor where
  subject : String
  organizationId : Uuid
  requestId : Option String
  deriving DecidableEq, Repr

namespace ProjectWorkspace

def actor (who : WorkspaceActor) : DbTx (Uuid × Role) := do
  let db ← get
  let row ← found (db.memberships.find? fun row =>
      row.subject == who.subject && row.organizationId == who.organizationId)
    (.resourceNotFound "workspace.identity")
  pure (row.userId, row.role)

def requireWriter (role : Role) (operation : String) : DbTx Unit :=
  require (role ≠ .viewer) (.resourceNotFound operation)

def requireAdmin (role : Role) (operation : String) : DbTx Unit :=
  require (role = .owner ∨ role = .admin) (.resourceNotFound operation)

def createProject (who : WorkspaceActor) (name : String) (now : Instant) : DbTx Uuid := do
  let (userId, role) ← actor who
  requireWriter role "project.create"
  let projectId ← uuid4
  let db ← get
  require (db.projects.find (fun _ row =>
      row.organizationId == who.organizationId && row.name == name) = none)
    (.resourceConflict "create_project")
  set { db with
    projects := db.projects.insert projectId ⟨who.organizationId, userId, name, .active⟩ }
  AuditWriter.append who.organizationId (.user userId) .projectCreated .project projectId
    who.requestId [] now
  pure projectId

/-! ## Corpora -/

/-- Sentence rows of a version, with consecutive ordinals from `ordinal`. -/
def insertSentences (organizationId versionId : Uuid) :
    Nat → List String → Table (Uuid × Nat) Sentence → Table (Uuid × Nat) Sentence
  | _, [], sentences => sentences
  | ordinal, text :: texts, sentences =>
    insertSentences organizationId versionId (ordinal + 1) texts
      (sentences.insert (versionId, ordinal) ⟨organizationId, text⟩)

/-- Insert a version with its sentences. -/
def insertVersion (version : CorpusVersion) (texts : List String) (operation : String) :
    DbTx Uuid := do
  let versionId ← uuid4
  let db ← get
  require (db.corpusVersions.find (fun _ row =>
      row.corpusId == version.corpusId && (row.versionNumber == version.versionNumber ||
        row.contentSha256 == version.contentSha256)) = none)
    (.resourceConflict operation)
  set { db with
    corpusVersions := db.corpusVersions.insert versionId version
    sentences := insertSentences version.organizationId versionId 0 texts db.sentences }
  pure versionId

/-- `_persist_corpus`, with the policy its transaction read. -/
def createCorpus (policy : Option QuotaPolicyValues) (who : WorkspaceActor) (projectId : Uuid)
    (name : String) (prepared : PreparedCorpus) (now : Instant) : DbTx Uuid := do
  let (userId, role) ← actor who
  requireWriter role "corpus.create"
  QuotaManager.consumeCorpusSentences policy who.organizationId prepared.sentences.length
    "corpus.create"
  let db ← get
  require (db.activeProject who.organizationId projectId = true) (.resourceNotFound "create_corpus")
  require (db.corpora.find (fun _ row => row.projectId == projectId && row.name == name) = none)
    (.resourceConflict "create_corpus")
  let corpusId ← uuid4
  modify fun db => { db with
    corpora := db.corpora.insert corpusId ⟨who.organizationId, projectId, userId, name⟩ }
  let _ ← insertVersion
    { organizationId := who.organizationId, corpusId, parentVersionId := none, createdBy := userId
      versionNumber := 1, language := prepared.language
      sentenceCount := prepared.sentences.length, contentSha256 := prepared.contentSha256 }
    prepared.sentences "create_corpus"
  AuditWriter.append who.organizationId (.user userId) .corpusCreated .corpus corpusId who.requestId
    [("content_sha256", .digest prepared.contentSha256), ("language", .text prepared.language),
     ("sentence_count", .nat prepared.sentences.length)] now
  pure corpusId

/-- The latest version of a corpus, by version number. -/
def latestVersion (db : Db) (organizationId corpusId : Uuid) : Option (Uuid × CorpusVersion) :=
  let versions := db.corpusVersions.select fun _ version =>
    version.organizationId == organizationId && version.corpusId == corpusId
  (versions.insertionSort fun a b => b.2.versionNumber < a.2.versionNumber ∨
    (b.2.versionNumber = a.2.versionNumber ∧ b.1 ≤ a.1)).head?

/-- `_persist_version`, with the policy its transaction read. -/
def createVersion (policy : Option QuotaPolicyValues) (who : WorkspaceActor)
    (projectId corpusId : Uuid) (prepared : PreparedCorpus) (operation : String)
    (now : Instant) : DbTx Uuid := do
  let (userId, role) ← actor who
  requireWriter role operation
  QuotaManager.consumeCorpusSentences policy who.organizationId prepared.sentences.length operation
  let db ← get
  require (db.activeProject who.organizationId projectId = true) (.resourceNotFound operation)
  require (∃ corpus ∈ db.corpora.lookup corpusId,
      corpus.organizationId = who.organizationId ∧ corpus.projectId = projectId)
    (.resourceNotFound operation)
  let latest ← found (latestVersion db who.organizationId corpusId) (.resourceConflict operation)
  let versionId ← insertVersion
    { organizationId := who.organizationId, corpusId, parentVersionId := some latest.1
      createdBy := userId, versionNumber := latest.2.versionNumber + 1
      language := prepared.language, sentenceCount := prepared.sentences.length
      contentSha256 := prepared.contentSha256 }
    prepared.sentences operation
  AuditWriter.append who.organizationId (.user userId) .corpusVersionCreated .corpus corpusId
    who.requestId
    [("content_sha256", .digest prepared.contentSha256), ("language", .text prepared.language),
     ("parent_version_id", .id latest.1), ("sentence_count", .nat prepared.sentences.length),
     ("version_number", .nat (latest.2.versionNumber + 1))] now
  pure versionId

end ProjectWorkspace

/-! ## Deletion -/

namespace ProjectDeletion

/-- The sentence's version belongs to a corpus of the project. -/
def inProject (db : Db) (organizationId projectId : Uuid) (versionId : Uuid) : Bool :=
  match db.corpusVersions.lookup versionId with
  | none => false
  | some version =>
    version.organizationId == organizationId &&
      (db.corpora.lookup version.corpusId).any fun corpus =>
        corpus.organizationId == organizationId && corpus.projectId == projectId

/-- The sentence rows of a project. -/
def projectSentences (db : Db) (organizationId projectId : Uuid) : List ((Uuid × Nat) × Sentence) :=
  db.sentences.select fun key sentence =>
    sentence.organizationId == organizationId && inProject db organizationId projectId key.1

def corpusSentenceCount (db : Db) (organizationId projectId : Uuid) : Nat :=
  (projectSentences db organizationId projectId).length

def isProjectRun (organizationId projectId : Uuid) (run : Run) : Bool :=
  run.organizationId == organizationId && run.projectId == projectId

/-- No run of the project is live, and none holds an active reservation. -/
def quiescent (db : Db) (organizationId projectId : Uuid) : Bool :=
  (db.runs.rows.all fun e => !(isProjectRun organizationId projectId e.2 && !isTerminal e.2.state)) &&
  db.quotaReservations.rows.all fun e =>
    !(e.2.organizationId == organizationId && e.2.state == .active &&
      (db.runs.lookup e.2.runId).any (isProjectRun organizationId projectId))

def isProjectArtifact (organizationId projectId : Uuid) (artifact : Artifact) : Bool :=
  artifact.organizationId == organizationId && artifact.projectId == projectId

/-- A deletion request tombstones what is left, and never shortens a retention. -/
def scheduleArtifact (organizationId projectId : Uuid) (requestedAt retentionUntil : Instant)
    (artifact : Artifact) : Artifact :=
  if isProjectArtifact organizationId projectId artifact && artifact.state != .deleted then
    { artifact with
      state := .tombstoned
      tombstonedAt := some (artifact.tombstonedAt.getD requestedAt)
      retentionUntil := max artifact.retentionUntil retentionUntil }
  else artifact

def minimumProjectRetention : Duration := seconds (30 * 24 * 60 * 60)

/-- The request under the locks on the project and its artifacts. -/
def schedule (organizationId userId projectId : Uuid) (project : Project)
    (requestId : Option String) (retention : Duration) (now : Instant) : DbTx Unit := do
  let db ← get
  require (quiescent db organizationId projectId = true) (.resourceConflict "project.delete")
  let corpusSentences := corpusSentenceCount db organizationId projectId
  let artifactCount := (db.artifacts.select fun _ artifact =>
    isProjectArtifact organizationId projectId artifact && artifact.state != .deleted).length
  set { db with
    artifacts := db.artifacts.mapRows fun _ artifact =>
      scheduleArtifact organizationId projectId now (now + retention) artifact
    projects := db.projects.insert projectId
      { project with lifecycle := .deletionPending now (now + retention) corpusSentences } }
  AuditWriter.append organizationId (.user userId) .projectDeletionRequested .project projectId
    requestId
    [("artifact_count", .nat artifactCount), ("corpus_sentences", .nat corpusSentences),
     ("retention_until", .nat (now + retention))] now

/-- `ProjectDeletionService.request` in its transaction. -/
def request (who : WorkspaceActor) (projectId : Uuid) (confirmation : String)
    (retention : Duration) (now : Instant) : DbTx Unit := do
  let (userId, role) ← ProjectWorkspace.actor who
  ProjectWorkspace.requireAdmin role "project.delete"
  require (minimumProjectRetention ≤ retention)
    (.value "project deletion retention must be at least 30 days")
  let db ← get
  let project ← found ((db.projects.lookup projectId).filter fun row =>
      row.organizationId == who.organizationId)
    (.resourceNotFound "project.delete")
  require (confirmation = "DELETE " ++ project.name) (.invalidRequest "project.delete")
  match project.lifecycle with
  | .deletionPending _ _ _ => pure ()
  | .active => schedule who.organizationId userId projectId project who.requestId retention now

/-- A project whose retention has run out, with its accounted sentences. -/
def dueProject (db : Db) (organizationId projectId : Uuid) (cutoff : Instant) : Option Nat := do
  let project ← db.projects.lookup projectId
  match project.lifecycle with
  | .active => none
  | .deletionPending _ retentionUntil corpusSentences =>
    if project.organizationId = organizationId ∧ retentionUntil ≤ cutoff then some corpusSentences
    else none

/-- `_database_preconditions`. -/
def databasePreconditions (db : Db) (organizationId projectId : Uuid) : Bool :=
  (db.artifacts.rows.all fun e =>
    !(isProjectArtifact organizationId projectId e.2 && e.2.state != .deleted)) &&
  quiescent db organizationId projectId

/-- The candidates of one `purge_due` pass, earliest retention first. -/
def candidates (cutoff : Instant) (limit : Nat) : DbTx (List (Uuid × Uuid)) := do
  let db ← get
  let due := db.projects.rows.filterMap fun e =>
    match e.2.lifecycle with
    | .active => none
    | .deletionPending _ retentionUntil _ =>
      if retentionUntil ≤ cutoff then some (retentionUntil, e.1, e.2.organizationId) else none
  let ordered := due.insertionSort fun a b => a.1 < b.1 ∨ (a.1 = b.1 ∧ a.2.1 ≤ b.2.1)
  pure ((ordered.take limit).map (·.2))

/-- The checks of either session of `_purge_candidate`. -/
def ready (organizationId projectId : Uuid) (cutoff : Instant) : DbTx (Option Nat) := do
  let db ← get
  match dueProject db organizationId projectId cutoff with
  | none => pure none
  | some corpusSentences =>
    if databasePreconditions db organizationId projectId then pure (some corpusSentences)
    else pure none

/-- A row of the organization that belongs to a run of the project. -/
def ofProjectRun (db : Db) (organizationId projectId rowOrganizationId runId : Uuid) : Bool :=
  rowOrganizationId == organizationId &&
    (db.runs.lookup runId).any (isProjectRun organizationId projectId)

/-- Every row of the project but the project itself. -/
def eraseRows (db : Db) (organizationId projectId : Uuid) : Db :=
  { db with
    runReplays := db.runReplays.deleteWhere fun _ row =>
      row.organizationId == organizationId && row.projectId == projectId
    runExecutionFacts := db.runExecutionFacts.deleteWhere fun _ row =>
      row.organizationId == organizationId && row.projectId == projectId
    datgIndexPublications := db.datgIndexPublications.deleteWhere fun _ row =>
      row.organizationId == organizationId && row.projectId == projectId
    artifacts := db.artifacts.deleteWhere fun _ row =>
      isProjectArtifact organizationId projectId row && row.state == .deleted
    quotaReservations := db.quotaReservations.deleteWhere fun _ row =>
      ofProjectRun db organizationId projectId row.organizationId row.runId
    outboxMessages := db.outboxMessages.deleteWhere fun _ row =>
      ofProjectRun db organizationId projectId row.organizationId row.runId
    runEvents := db.runEvents.deleteWhere fun key row =>
      ofProjectRun db organizationId projectId row.organizationId key.1
    runs := db.runs.deleteWhere fun _ row => isProjectRun organizationId projectId row
    sentences := db.sentences.deleteWhere fun key row =>
      row.organizationId == organizationId && inProject db organizationId projectId key.1
    corpusVersions := db.corpusVersions.deleteWhere fun key _ =>
      inProject db organizationId projectId key
    corpora := db.corpora.deleteWhere fun _ row =>
      row.organizationId == organizationId && row.projectId == projectId }

/-- The release of an accounted allocation; nothing is accounted for no sentences. -/
def releaseSentences (organizationId : Uuid) (corpusSentences : Nat) : DbTx Unit :=
  if corpusSentences = 0 then pure ()
  else QuotaManager.releaseCorpusSentences organizationId corpusSentences

/-- The second session of `_purge_candidate`. -/
def purge (organizationId projectId : Uuid) (cutoff : Instant) : DbTx Bool := do
  match ← ready organizationId projectId cutoff with
  | none => pure false
  | some corpusSentences =>
    let db ← get
    require (corpusSentenceCount db organizationId projectId = corpusSentences)
      (.runtime "project corpus quota accounting is inconsistent")
    let artifactCount := (db.artifacts.select fun _ artifact =>
      isProjectArtifact organizationId projectId artifact).length
    set (eraseRows db organizationId projectId)
    releaseSentences organizationId corpusSentences
    AuditWriter.append organizationId (.service .maintenance) .projectPurged .project projectId none
      [("artifact_count", .nat artifactCount), ("corpus_sentences", .nat corpusSentences)] cutoff
    modify fun db => { db with projects := db.projects.erase projectId }
    pure true

end ProjectDeletion

end CorpusKit
