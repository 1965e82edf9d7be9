import CorpusKit.Domain.Manifests
import CorpusKit.Services.Jobs
import CorpusKit.Workflows.Store

/-! # Run manifests and replays

The database side of `RunManifestService`. A manifest is kept as its digest,
size and the facts other services compare; its construction from the run is the
caller's. -/

namespace CorpusKit

open Transaction

/-- A manifest as stored and parsed back. -/
structure RunManifest where
  sha256 : Sha256
  sizeBytes : Nat
  projectId : Uuid
  runId : Uuid
  determinism : DeterminismClass
  deriving DecidableEq, Repr

namespace RunManifestService

/-- `_run`: a run of a project that is not being deleted. -/
def runRow (organizationId runId : Uuid) : DbTx Run := do
  let db ← get
  let run ← found (db.run? organizationId runId) (.reproducibility "run_not_found")
  require (db.activeProject organizationId run.projectId = true) (.reproducibility "run_not_found")
  pure run

def verifyReference (run : Run) (reference : RunWorkflowReference) : DbTx Unit :=
  require (run.specSha256 = reference.specSha256 ∧ run.spec.sha256 = run.specSha256)
    (.reproducibility "spec_integrity_violation")

def activeArtifact (db : Db) (organizationId artifactId : Uuid) (kind : ArtifactKind) :
    DbTx Artifact :=
  found ((db.artifacts.lookup artifactId).filter fun row =>
      row.organizationId == organizationId && row.kind == kind && row.state == .active)
    (.reproducibility "artifact_not_found")

/-- `_validate_input_artifacts`. -/
def validateInputArtifacts (db : Db) (run : Run) (inputs : List InputDigest) : DbTx Unit :=
  require (∀ input ∈ inputs, ∀ artifactId ∈ input.artifactId,
      ∃ row ∈ db.artifacts.lookup artifactId,
        row.organizationId = run.organizationId ∧ row.projectId = run.projectId ∧
          row.state = .active ∧ row.sha256 = input.sha256 ∧ row.sizeBytes = input.sizeBytes)
    (.reproducibility "input_artifact_integrity_violation")

/-! ## Corpus digests -/

/-- `_canonical_json`. -/
def canonicalJson (value : Json.Value) : List Char := Json.dumps value

/-- The length of a text in UTF-8. -/
def utf8Length (text : List Char) : Nat := (text.map Char.utf8Size).sum

/-- The sentences of a version by ordinal. -/
def versionSentences (db : Db) (organizationId versionId : Uuid) : List ((Uuid × Nat) × Sentence) :=
  (db.sentences.select fun key sentence =>
    sentence.organizationId == organizationId && key.1 == versionId).insertionSort
      fun a b => a.1.2 ≤ b.1.2

/-- The corpus version of a run, from a corpus of its organization and project. -/
def runVersion (db : Db) (run : Run) : Option (Uuid × CorpusVersion) := do
  let versionId ← run.corpusVersionId
  let version ← db.corpusVersions.lookup versionId
  let corpus ← db.corpora.lookup version.corpusId
  if version.organizationId = run.organizationId ∧ corpus.organizationId = run.organizationId ∧
      corpus.projectId = run.projectId then some (versionId, version)
  else none

/-- `_corpus_digest`: the digest of the corpus version of a run, recomputed from
the stored sentences. The session around it holds the lifecycle lock of the
project, so its two reads see one state. -/
def corpusDigest (sha256 : List Char → Sha256) (run : Run) : DbTx InputDigest := do
  let db ← get
  let (versionId, version) ← found (runVersion db run) (.reproducibility "corpus_version_not_found")
  let sentences := versionSentences db run.organizationId versionId
  require (sentences.length = version.sentenceCount ∧
      sentences.map (fun e => e.1.2) = List.range version.sentenceCount)
    (.reproducibility "corpus_version_integrity_violation")
  let content := canonicalJson (.obj [("language".toList, .str version.language.toList),
    ("sentences".toList, .arr (sentences.map fun e => .str e.2.normalizedText.toList))])
  require (sha256 content = version.contentSha256)
    (.reproducibility "corpus_version_integrity_violation")
  pure { name := "corpus-version", sha256 := sha256 content, sizeBytes := utf8Length content
         artifactId := none }

/-! ## Execution facts -/

/-- The second session of `record_execution`. -/
def recordExecution (reference : RunWorkflowReference) (facts : TrustedExecutionFacts)
    (inputs : List InputDigest) : DbTx Bool := do
  let run ← runRow reference.organizationId reference.runId
  verifyReference run reference
  require (run.state = .running) (.reproducibility "execution_facts_invalid_state")
  let db ← get
  validateInputArtifacts db run inputs
  match db.runExecutionFacts.lookup reference.runId with
  | none =>
    set { db with
      runExecutionFacts := db.runExecutionFacts.insert reference.runId
        { organizationId := run.organizationId, projectId := run.projectId, facts
          factsSha256 := facts.sha256, inputDigests := inputs
          manifestArtifactId := none, manifestSha256 := none } }
    pure true
  | some existing =>
    require (existing.factsSha256 = facts.sha256 ∧ existing.facts = facts ∧
        existing.inputDigests = inputs)
      (.reproducibility "execution_facts_conflict")
    pure false

/-! ## Finalization -/

def isOutputKind (kind : ArtifactKind) : Bool :=
  kind == .runResult || kind == .evaluationReport || kind == .export || kind == .checkpoint ||
    kind == .modelAdapter

/-- The active output artifacts of a run, in the order the manifest lists them. -/
def outputArtifacts (db : Db) (runId : Uuid) (run : Run) : List (Uuid × Artifact) :=
  (db.artifacts.select fun _ row =>
      row.organizationId == run.organizationId && row.projectId == run.projectId &&
        row.runId == some runId && row.state == .active && isOutputKind row.kind).insertionSort
    fun a b => a.2.kind.value < b.2.kind.value ∨ (a.2.kind = b.2.kind ∧ a.1 ≤ b.1)

def outputName (kind : ArtifactKind) (index : Nat) : List Char :=
  "output-".toList ++ kind.value.toList ++ '-' :: padded 3 index

/-- One digest an output row, numbered from one. -/
def outputDigests (rows : List (Uuid × Artifact)) : List Manifests.ContentDigest :=
  (rows.zipIdx 1).map fun e =>
    { name := outputName e.1.2.kind e.2, sha256 := e.1.2.sha256, sizeBytes := e.1.2.sizeBytes }

/-- The digests with the checks of their class. -/
def checkDigests (digests : List Manifests.ContentDigest) :
    Except Error (List Manifests.ContentDigest) :=
  if digests.all Manifests.ContentDigest.valid then .ok digests
  else .error (.value "content digest")

def summaryDigest (sha256 : List Char → Sha256) (encoded : List Char) : Manifests.ContentDigest where
  name := "result-summary".toList
  sha256 := sha256 encoded
  sizeBytes := (Documents.utf8 encoded).size

/-- `_authoritative_outputs` of the rows found: their digests, or that of the
result summary. -/
def authoritativeOutputs (sha256 : List Char → Sha256) (rows : List (Uuid × Artifact))
    (resultSummary : Option Documents.Dictionary) :
    Except Error (List Manifests.ContentDigest × List (Uuid × Artifact)) := do
  if !rows.isEmpty then
    let digests ← checkDigests (outputDigests rows)
    pure (digests, rows)
  else
    match resultSummary with
    | none => .error (.reproducibility "manifest_outputs_missing")
    | some summary =>
      match Documents.normalizeResultSummary summary with
      | .error _ => .error (.reproducibility "result_summary_integrity_violation")
      | .ok normalized =>
        let digests ← checkDigests [summaryDigest sha256 (canonicalJson normalized.value)]
        pure (digests, [])

/-- What the first session of `finalize` finds. -/
inductive Build
  | existing (artifactId : Uuid) (artifact : Artifact)
  | fresh (run : Run) (factsSha256 : Sha256) (outputs : List (Uuid × Artifact))
  deriving DecidableEq, Repr

/-- `_manifest_build`. -/
def manifestBuild (reference : RunWorkflowReference) : DbTx Build := do
  let run ← runRow reference.organizationId reference.runId
  verifyReference run reference
  require (run.state = .succeeded) (.reproducibility "manifest_invalid_state")
  let db ← get
  let recorded ← found ((db.runExecutionFacts.lookup reference.runId).filter fun row =>
      row.organizationId == reference.organizationId)
    (.reproducibility "execution_facts_missing")
  require (recorded.facts.sha256 = recorded.factsSha256)
    (.reproducibility "execution_facts_integrity_violation")
  match recorded.manifestArtifactId with
  | some artifactId =>
    let artifact ← activeArtifact db reference.organizationId artifactId .runManifest
    require (some artifact.sha256 = recorded.manifestSha256)
      (.reproducibility "manifest_metadata_conflict")
    pure (.existing artifactId artifact)
  | none =>
    validateInputArtifacts db run recorded.inputDigests
    pure (.fresh run recorded.factsSha256 (outputArtifacts db reference.runId run))

/-- The comparison of a replay is recorded once. -/
def commitReplayComparison (runId : Uuid) (run : Run) (manifestArtifactId : Uuid)
    (expected : Option RunManifest) (comparison : List (String × AuditValue)) (now : Instant) :
    DbTx Unit := do
  let db ← get
  match (db.runReplays.lookup runId).filter fun row => row.organizationId == run.organizationId with
  | none => pure ()
  | some replay =>
    match replay.observedManifestArtifactId with
    | some observed =>
      require (observed = manifestArtifactId) (.reproducibility "replay_comparison_conflict")
    | none =>
      require (expected.map RunManifest.sha256 = some replay.expectedManifestSha256)
        (.reproducibility "source_manifest_integrity_violation")
      set { db with
        runReplays := db.runReplays.insert runId
          { replay with observedManifestArtifactId := some manifestArtifactId } }
      AuditWriter.append run.organizationId (.service .adoption) .runReplayCompared .replay runId
        none comparison now

def manifestKey (runId : Uuid) (run : Run) (sha256 : Sha256) : StorageKey :=
  artifactStorageKey run.organizationId run.projectId (some runId) .runManifest sha256

def manifestArtifact (runId : Uuid) (run : Run) (manifest : RunManifest)
    (retentionUntil : Instant) : Artifact where
  organizationId := run.organizationId
  projectId := run.projectId
  runId := some runId
  createdBy := run.createdBy
  scopeKey := some runId
  kind := .runManifest
  sha256 := manifest.sha256
  sizeBytes := manifest.sizeBytes
  storageKey := manifestKey runId run manifest.sha256
  mediaType := "application/json"
  filename := "run-manifest-" ++ toString runId ++ ".json"
  state := .active
  retentionUntil
  tombstonedAt := none
  deletedAt := none

/-- `_same_manifest_artifact`. -/
def sameManifestArtifact (artifact : Artifact) (key : StorageKey) (sizeBytes : Nat) : Bool :=
  artifact.storageKey == key && artifact.sizeBytes == sizeBytes &&
    artifact.mediaType == "application/json" && artifact.state == .active

/-- The manifest row: inserted with its quota and audit event, or found. -/
def manifestRow (policy : Option QuotaPolicyValues) (runId : Uuid) (run : Run)
    (manifest : RunManifest) (retentionUntil now : Instant) : DbTx (Uuid × Bool) := do
  let db ← get
  let artifact := manifestArtifact runId run manifest retentionUntil
  match db.artifacts.find fun _ row => row.sameScopeDigest artifact with
  | some (existingId, existing) =>
    require (sameManifestArtifact existing artifact.storageKey manifest.sizeBytes = true)
      (.reproducibility "manifest_metadata_conflict")
    pure (existingId, false)
  | none =>
    let artifactId ← uuid4
    insertArtifact artifactId artifact
    QuotaManager.consumeArtifact policy run.organizationId .runManifest manifest.sizeBytes
    AuditWriter.append run.organizationId (.service .adoption) .runManifestCreated .artifact
      artifactId none
      [("sha256", .digest manifest.sha256), ("size_bytes", .nat manifest.sizeBytes)] now
    pure (artifactId, true)

/-- The last session of `finalize`, with the policy it read. -/
def finalizeManifest (policy : Option QuotaPolicyValues) (reference : RunWorkflowReference)
    (factsSha256 : Sha256) (outputs : List (Uuid × Artifact)) (manifest : RunManifest)
    (expected : Option RunManifest) (comparison : List (String × AuditValue))
    (retentionUntil now : Instant) : DbTx (Uuid × Bool) := do
  let run ← runRow reference.organizationId reference.runId
  verifyReference run reference
  require (run.state = .succeeded) (.reproducibility "manifest_invalid_state")
  let db ← get
  let recorded ← found ((db.runExecutionFacts.lookup reference.runId).filter fun row =>
      row.organizationId == reference.organizationId && row.factsSha256 == factsSha256)
    (.reproducibility "execution_facts_integrity_violation")
  match recorded.manifestArtifactId with
  | some artifactId =>
    let _ ← activeArtifact db reference.organizationId artifactId .runManifest
    pure (artifactId, false)
  | none =>
    validateInputArtifacts db run recorded.inputDigests
    require (outputArtifacts db reference.runId run = outputs)
      (.reproducibility "run_outputs_changed")
    let (artifactId, created) ← manifestRow policy reference.runId run manifest retentionUntil now
    modify fun db => { db with
      runExecutionFacts := db.runExecutionFacts.insert reference.runId
        { recorded with
          manifestArtifactId := some artifactId, manifestSha256 := some manifest.sha256 } }
    commitReplayComparison reference.runId run artifactId expected comparison now
    pure (artifactId, created)

/-- The last session of `_complete_replay_if_needed`. -/
def completeReplay (reference : RunWorkflowReference) (manifestArtifactId : Uuid)
    (expected : Option RunManifest) (comparison : List (String × AuditValue)) (now : Instant) :
    DbTx Unit := do
  let run ← runRow reference.organizationId reference.runId
  commitReplayComparison reference.runId run manifestArtifactId expected comparison now

/-! ## Replay submission -/

/-- `_source_manifest_rows`: a succeeded run, its facts and its manifest artifact. -/
structure ReplaySource where
  run : Run
  facts : RunExecutionFact
  artifactId : Uuid
  artifact : Artifact
  deriving DecidableEq, Repr

def actor (who : JobActor) : DbTx Uuid := do
  let db ← get
  let row ← found (db.memberships.find? fun row =>
      row.subject == who.subject && row.organizationId == who.organizationId)
    (.resourceNotFound "replay.submit")
  require (row.role ≠ .viewer) (.resourceNotFound "replay.submit")
  pure row.userId

def sourceManifestRows (organizationId projectId sourceRunId : Uuid) : DbTx ReplaySource := do
  let db ← get
  let run ← found ((db.run? organizationId sourceRunId).filter fun run =>
      run.projectId == projectId && db.activeProject organizationId projectId &&
        run.state == .succeeded)
    (.resourceNotFound "replay.submit")
  let facts ← found ((db.runExecutionFacts.lookup sourceRunId).filter fun row =>
      row.organizationId == organizationId && row.projectId == projectId)
    (.resourceNotFound "replay.submit")
  let artifactId ← found facts.manifestArtifactId (.resourceNotFound "replay.submit")
  let _ ← found facts.manifestSha256 (.resourceNotFound "replay.submit")
  let artifact ← activeArtifact db organizationId artifactId .runManifest
  require (artifact.projectId = projectId ∧ artifact.runId = some sourceRunId)
    (.reproducibility "source_manifest_integrity_violation")
  pure ⟨run, facts, artifactId, artifact⟩

/-- What a replay submission asks for; `expected` is the parsed source manifest. -/
structure NewReplay where
  who : JobActor
  projectId : Uuid
  sourceRunId : Uuid
  idempotencyKey : String
  expected : RunManifest
  deriving DecidableEq, Repr

/-- `_same_replay`. -/
def sameReplay (runId : Uuid) (run : Run) (s : NewReplay) (source : ReplaySource) :
    DbTx RunReplay := do
  let db ← get
  let replay ← found ((db.runReplays.lookup runId).filter fun row =>
      row.organizationId == run.organizationId)
    (.resourceConflict "replay.idempotency")
  require (run.projectId = source.run.projectId ∧
      run.corpusVersionId = source.run.corpusVersionId ∧
      run.parentRunId = some s.sourceRunId ∧ run.kind = source.run.kind ∧
      run.specSha256 = source.run.specSha256 ∧
      replay.sourceManifestArtifactId = source.artifactId ∧
      replay.expectedManifestSha256 = s.expected.sha256 ∧
      replay.classification = s.expected.determinism)
    (.resourceConflict "replay.idempotency")
  pure replay

def replayRun (s : NewReplay) (userId : Uuid) (source : Run) : Run where
  organizationId := s.who.organizationId
  projectId := source.projectId
  corpusVersionId := source.corpusVersionId
  parentRunId := some s.sourceRunId
  createdBy := userId
  kind := source.kind
  state := .queued
  idempotencyKey := s.idempotencyKey
  attempt := source.attempt + 1
  eventSequence := 1
  spec := source.spec
  specSha256 := source.specSha256
  resultSummary := none
  failureCode := none
  cancellationRequestedAt := none

def classificationValue : DeterminismClass → String
  | .exact => "exact"
  | .bestEffort => "best-effort"
  | .nonreproducible => "nonreproducible"

structure ReplayCreation where
  runId : Uuid
  run : Run
  replay : RunReplay
  created : Bool
  deriving DecidableEq, Repr

/-- The rows of a new replay run. -/
def replayNew (policy : Option QuotaPolicyValues) (s : NewReplay) (userId : Uuid)
    (source : ReplaySource) (now : Instant) : DbTx ReplayCreation := do
  let run := replayRun s userId source.run
  let runId ← JobControlPlane.insertRun run (.reproducibility "run_not_found")
  let _ ← QuotaManager.reserveRun policy s.who.organizationId runId run now
  let replay : RunReplay :=
    { organizationId := run.organizationId, projectId := run.projectId
      sourceRunId := s.sourceRunId, sourceManifestArtifactId := source.artifactId
      expectedManifestSha256 := s.expected.sha256, observedManifestArtifactId := none
      classification := s.expected.determinism, createdBy := userId }
  modify fun db => { db with runReplays := db.runReplays.insert runId replay }
  addRunEvent run.organizationId runId 1 "run.replay_submitted"
    { sourceManifestId := some source.artifactId, sourceRunId := some s.sourceRunId
      state := some .queued }
  addOutboxMessage runId run "run.dispatch" now
  AuditWriter.append run.organizationId (.user userId) .runReplaySubmitted .replay runId
    s.who.requestId
    [("classification", .text (classificationValue s.expected.determinism)),
     ("kind", .text run.kind.value), ("source_manifest_id", .id source.artifactId),
     ("source_run_id", .id s.sourceRunId)] now
  pure ⟨runId, run, replay, true⟩

/-- The second session of `submit_replay`: the source is locked, so the checks
before the insert hold at its commit. -/
def insertReplay (admits : RunKind → RunSpec → Bool) (policy : Option QuotaPolicyValues)
    (s : NewReplay) (now : Instant) : DbTx ReplayCreation := do
  let userId ← actor s.who
  let source ← sourceManifestRows s.who.organizationId s.projectId s.sourceRunId
  require (source.artifact.sha256 = s.expected.sha256 ∧
      source.facts.manifestSha256 = some s.expected.sha256)
    (.reproducibility "source_manifest_integrity_violation")
  let db ← get
  match db.idempotentRun s.who.organizationId s.idempotencyKey with
  | some (runId, run) =>
    let replay ← sameReplay runId run s source
    pure ⟨runId, run, replay, false⟩
  | none =>
    require (admits source.run.kind source.run.spec = true) (.invalidRequest "replay.submit")
    replayNew policy s userId source now

end RunManifestService

end CorpusKit
