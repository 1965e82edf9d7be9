import CorpusKit.Refinement.Submissions

/-! # Artifacts, manifests, corpora, projects and messages are changes

The transactions that do not write runs. What a service decided on a row it
read in an earlier transaction is a hypothesis here: the row that is purged has
the owner and size of the row that was read. -/

namespace CorpusKit

open Transaction QuotaManager

variable {db db' : Db} {permit : Permit}

theorem Permit.reading_policy {org : Uuid} {policy : Option QuotaPolicyValues} :
    (Permit.reading org policy).policy org = policy := if_pos rfl

/-! ## Artifacts -/

namespace ArtifactService

theorem authorizeScope_returns {who : ArtifactActor} {projectId : Uuid} {runId : Option Uuid}
    {write : Bool} {operation : String} {userId : Uuid}
    (h : Returns (authorizeScope who projectId runId write operation) db userId db') :
    db.activeProject who.organizationId projectId = true ∧ db = db' := by
  unfold authorizeScope at h
  obtain ⟨a, s, hget, h⟩ := h.bind
  obtain ⟨rfl, rfl⟩ := hget.get
  obtain ⟨row, s, hfound, h⟩ := h.bind
  obtain ⟨-, rfl⟩ := hfound.found
  obtain ⟨u, s, hreq, h⟩ := h.bind
  obtain ⟨hactive, rfl⟩ := hreq.require
  obtain ⟨u, s, hreq, h⟩ := h.bind
  obtain ⟨-, rfl⟩ := hreq.require
  obtain ⟨u, s, hreq, h⟩ := h.bind
  obtain ⟨-, rfl⟩ := hreq.require
  exact ⟨hactive, h.pure.2⟩

/-- A creation stores one active row of an active project, with its evidence. -/
theorem insertUpload_changes {policy : Option QuotaPolicyValues} {who : ArtifactActor}
    {userId : Uuid} {upload : Upload} {retentionUntil now : Instant} {id : Uuid}
    (hkind : upload.kind ≠ .runResult)
    (h : Returns (insertUpload policy who userId upload retentionUntil now) db id db') :
    Changes (.reading who.organizationId policy) db db' ∧
      db.activeProject who.organizationId upload.projectId = true ∧ id = db.nextId ∧
      db'.artifacts = db.artifacts.insert id (newArtifact who userId upload retentionUntil) := by
  unfold insertUpload at h
  obtain ⟨user, s, hscope, h⟩ := h.bind
  obtain ⟨hactive, rfl⟩ := authorizeScope_returns hscope
  obtain ⟨u, s, hconsume, h⟩ := h.bind
  obtain ⟨p, usage, hp, husage, hcount, hbytes, rfl⟩ := consumeArtifact_returns hconsume
  obtain ⟨artifactId, s, hid, h⟩ := h.bind
  obtain ⟨rfl, rfl⟩ := uuid4_returns hid
  dsimp only at h
  obtain ⟨u, s, hinsert, h⟩ := h.bind
  obtain ⟨hsize, hunique, hkey, rfl⟩ := insertArtifact_returns hinsert
  dsimp only at h
  obtain ⟨u, s, haudit, h⟩ := h.bind
  obtain ⟨rfl, rfl⟩ := h.pure
  have hevidence := append_change (.reading who.organizationId policy) (by rfl) (by decide) haudit
  obtain ⟨head, -, -, rfl⟩ := append_returns haudit
  refine ⟨.tail (.single ?_) hevidence, hactive, rfl, rfl⟩
  exact .store (newArtifact who userId upload retentionUntil) hactive hkind rfl hsize rfl
    hunique hkey (Permit.reading_policy.trans hp) husage hcount hbytes

theorem tombstone_changes (hpermit : permit.retires = true) {who : ArtifactActor}
    {projectId artifactId : Uuid} {now : Instant} {u : Unit}
    (h : Returns (tombstone who projectId artifactId now) db u db') : Changes permit db db' := by
  unfold tombstone at h
  obtain ⟨user, s, hscope, h⟩ := h.bind
  obtain ⟨-, rfl⟩ := authorizeScope_returns hscope
  obtain ⟨a, s, hget, h⟩ := h.bind
  obtain ⟨rfl, rfl⟩ := hget.get
  obtain ⟨artifact, s, hfound, h⟩ := h.bind
  obtain ⟨hrow, rfl⟩ := hfound.found
  obtain ⟨u, s, hset, h⟩ := h.bind
  obtain rfl := hset.set
  rw [Option.filter_eq_some_iff] at hrow
  simp only [Bool.and_eq_true, beq_iff_eq] at hrow
  exact .tail (.single (.tombstone hpermit hrow.1 hrow.2.2)) (append_change permit (by rfl) (by decide) h)

/-- The row a purge read is the row it marks, as far as the quota goes. -/
def PurgeCandidate (db : Db) (id : Uuid) (read : Artifact) : Prop :=
  ∀ row, db.artifacts.lookup id = some row →
    row.organizationId = read.organizationId ∧ row.sizeBytes = read.sizeBytes

theorem markPurged_changes (hpermit : permit.retires = true) {id : Uuid} {read : Artifact}
    {cutoff now : Instant} {b : Bool} (hcandidate : PurgeCandidate db id read)
    (h : Returns (markPurged id read cutoff now) db b db') : Changes permit db db' := by
  unfold markPurged at h
  obtain ⟨a, s, hget, h⟩ := h.bind
  obtain ⟨rfl, rfl⟩ := hget.get
  split at h
  · obtain ⟨-, rfl⟩ := h.pure
    exact .refl
  · next row hrow =>
    rw [Option.filter_eq_some_iff, beq_iff_eq] at hrow
    obtain ⟨horg, hsize⟩ := hcandidate row hrow.1
    obtain ⟨u, s, hset, h⟩ := h.bind
    obtain rfl := hset.set
    obtain ⟨u, s, hrelease, h⟩ := h.bind
    obtain ⟨usage, husage, rfl⟩ := releaseArtifact_returns hrelease
    dsimp only at h
    obtain ⟨u, s, haudit, h⟩ := h.bind
    obtain ⟨-, rfl⟩ := h.pure
    refine .tail (.single ?_) (append_change permit (by rfl) (by decide) haudit)
    rw [← horg, ← hsize]
    rw [← horg] at husage
    exact .discard hpermit hrow.1 hrow.2 husage

end ArtifactService

/-! ## Manifests -/

namespace RunManifestService

theorem runRow_returns {org runId : Uuid} {run : Run} (h : Returns (runRow org runId) db run db') :
    db.run? org runId = some run ∧ db.activeProject org run.projectId = true ∧ db = db' := by
  unfold runRow at h
  obtain ⟨a, s, hget, h⟩ := h.bind
  obtain ⟨rfl, rfl⟩ := hget.get
  obtain ⟨row, s, hfound, h⟩ := h.bind
  obtain ⟨hrow, rfl⟩ := hfound.found
  obtain ⟨u, s, hreq, h⟩ := h.bind
  obtain ⟨hactive, rfl⟩ := hreq.require
  obtain ⟨rfl, rfl⟩ := h.pure
  exact ⟨hrow, hactive, rfl⟩

theorem recordExecution_changes {reference : RunWorkflowReference} {facts : TrustedExecutionFacts}
    {inputs : List InputDigest} {b : Bool}
    (h : Returns (recordExecution reference facts inputs) db b db') : Changes permit db db' := by
  unfold recordExecution at h
  obtain ⟨run, s, hrun, h⟩ := h.bind
  obtain ⟨-, -, rfl⟩ := runRow_returns hrun
  obtain ⟨u, s, hreq, h⟩ := h.bind
  obtain ⟨-, rfl⟩ := hreq.require
  obtain ⟨u, s, hreq, h⟩ := h.bind
  obtain ⟨-, rfl⟩ := hreq.require
  obtain ⟨a, s, hget, h⟩ := h.bind
  obtain ⟨rfl, rfl⟩ := hget.get
  obtain ⟨u, s, hreq, h⟩ := h.bind
  obtain ⟨-, rfl⟩ := hreq.require
  split at h
  · next hnone =>
    obtain ⟨u, s, hset, h⟩ := h.bind
    obtain rfl := hset.set
    obtain ⟨-, rfl⟩ := h.pure
    exact .single (.record _ hnone)
  · obtain ⟨u, s, hreq, h⟩ := h.bind
    obtain ⟨-, rfl⟩ := hreq.require
    obtain ⟨-, rfl⟩ := h.pure
    exact .refl

theorem commitReplayComparison_changes (permit : Permit) {runId : Uuid} {run : Run} {manifestArtifactId : Uuid}
    {expected : Option RunManifest} {comparison : List (String × AuditValue)} {now : Instant}
    {u : Unit}
    (h : Returns (commitReplayComparison runId run manifestArtifactId expected comparison now)
      db u db') : Changes permit db db' ∧ db'.artifacts = db.artifacts ∧ db'.runs = db.runs := by
  unfold commitReplayComparison at h
  obtain ⟨a, s, hget, h⟩ := h.bind
  obtain ⟨rfl, rfl⟩ := hget.get
  split at h
  · obtain ⟨-, rfl⟩ := h.pure
    exact ⟨.refl, rfl, rfl⟩
  · next replay hreplay =>
    rw [Option.filter_eq_some_iff] at hreplay
    split at h
    · obtain ⟨-, rfl⟩ := h.require
      exact ⟨.refl, rfl, rfl⟩
    · obtain ⟨u, s, hreq, h⟩ := h.bind
      obtain ⟨-, rfl⟩ := hreq.require
      obtain ⟨u, s, hset, h⟩ := h.bind
      obtain rfl := hset.set
      have hevidence := append_change permit (by rfl) (by decide) h
      obtain ⟨head, -, -, rfl⟩ := append_returns h
      exact ⟨.tail (.single (.observe manifestArtifactId hreplay.1)) hevidence, rfl, rfl⟩

theorem manifestRow_changes {policy : Option QuotaPolicyValues} {runId : Uuid} {run : Run}
    {manifest : RunManifest} {retentionUntil now : Instant} {answer : Uuid × Bool}
    (hactive : db.activeProject run.organizationId run.projectId = true)
    (h : Returns (manifestRow policy runId run manifest retentionUntil now) db answer db') :
    Changes (.reading run.organizationId policy) db db' ∧
      db'.runExecutionFacts = db.runExecutionFacts ∧
      (db'.artifacts = db.artifacts ∨ db'.artifacts =
        db.artifacts.insert db.nextId (manifestArtifact runId run manifest retentionUntil)) := by
  unfold manifestRow at h
  obtain ⟨a, s, hget, h⟩ := h.bind
  obtain ⟨rfl, rfl⟩ := hget.get
  dsimp only at h
  split at h
  · obtain ⟨u, s, hreq, h⟩ := h.bind
    obtain ⟨-, rfl⟩ := hreq.require
    obtain ⟨-, rfl⟩ := h.pure
    exact ⟨.refl, rfl, .inl rfl⟩
  · obtain ⟨artifactId, s, hid, h⟩ := h.bind
    obtain ⟨rfl, rfl⟩ := uuid4_returns hid
    obtain ⟨u, s, hinsert, h⟩ := h.bind
    obtain ⟨hsize, hunique, hkey, rfl⟩ := insertArtifact_returns hinsert
    dsimp only at h
    obtain ⟨u, s, hconsume, h⟩ := h.bind
    obtain ⟨p, usage, hp, husage, hcount, hbytes, rfl⟩ := consumeArtifact_returns hconsume
    dsimp only at h
    obtain ⟨u, s, haudit, h⟩ := h.bind
    obtain ⟨rfl, rfl⟩ := h.pure
    have hevidence := append_change (.reading run.organizationId policy) (by rfl) (by decide) haudit
    obtain ⟨head, -, -, rfl⟩ := append_returns haudit
    refine ⟨.tail (.single ?_) hevidence, rfl, .inr rfl⟩
    exact .store (manifestArtifact runId run manifest retentionUntil) hactive nofun rfl
      hsize rfl hunique hkey (Permit.reading_policy.trans hp) husage hcount hbytes

theorem finalizeManifest_changes {policy : Option QuotaPolicyValues}
    {reference : RunWorkflowReference} {factsSha256 : Sha256} {outputs : List (Uuid × Artifact)}
    {manifest : RunManifest} {expected : Option RunManifest}
    {comparison : List (String × AuditValue)} {retentionUntil now : Instant} {answer : Uuid × Bool}
    (h : Returns (finalizeManifest policy reference factsSha256 outputs manifest expected comparison
      retentionUntil now) db answer db') :
    Changes (.reading reference.organizationId policy) db db' ∧ ∃ run,
      db.run? reference.organizationId reference.runId = some run ∧
      db.activeProject reference.organizationId run.projectId = true ∧
      (db'.artifacts = db.artifacts ∨ db'.artifacts = db.artifacts.insert db.nextId
        (manifestArtifact reference.runId run manifest retentionUntil)) := by
  unfold finalizeManifest at h
  obtain ⟨run, s, hread, h⟩ := h.bind
  obtain ⟨hrow, hactive, rfl⟩ := runRow_returns hread
  obtain ⟨hrun, horg⟩ := Db.run?_some hrow
  obtain ⟨u, s, hreq, h⟩ := h.bind
  obtain ⟨-, rfl⟩ := hreq.require
  obtain ⟨u, s, hreq, h⟩ := h.bind
  obtain ⟨-, rfl⟩ := hreq.require
  obtain ⟨a, s, hget, h⟩ := h.bind
  obtain ⟨rfl, rfl⟩ := hget.get
  obtain ⟨recorded, s, hfound, h⟩ := h.bind
  obtain ⟨hrecorded, rfl⟩ := hfound.found
  rw [Option.filter_eq_some_iff] at hrecorded
  split at h
  · obtain ⟨artifact, s, hartifact, h⟩ := h.bind
    obtain ⟨-, -, -, -, rfl⟩ := activeArtifact_returns hartifact
    obtain ⟨-, rfl⟩ := h.pure
    exact ⟨.refl, run, hrow, hactive, .inl rfl⟩
  · obtain ⟨u, s, hreq, h⟩ := h.bind
    obtain ⟨-, rfl⟩ := hreq.require
    obtain ⟨u, s, hreq, h⟩ := h.bind
    obtain ⟨-, rfl⟩ := hreq.require
    obtain ⟨⟨artifactId, created⟩, s, hmanifest, h⟩ := h.bind
    obtain ⟨hrowChanges, hfacts, hrows⟩ := manifestRow_changes (by rw [horg]; exact hactive) hmanifest
    rw [horg] at hrowChanges
    obtain ⟨u, s, hset, h⟩ := h.bind
    obtain rfl := hset.modify
    obtain ⟨u, s, hcompare, h⟩ := h.bind
    obtain ⟨-, rfl⟩ := h.pure
    obtain ⟨hcompareChanges, hartifacts, -⟩ :=
      commitReplayComparison_changes (.reading reference.organizationId policy) hcompare
    refine ⟨(hrowChanges.tail (.manifest artifactId manifest.sha256
      (hfacts ▸ hrecorded.1))).trans hcompareChanges, run, hrow, hactive, ?_⟩
    rw [hartifacts]
    exact hrows

theorem completeReplay_changes {reference : RunWorkflowReference} {manifestArtifactId : Uuid}
    {expected : Option RunManifest} {comparison : List (String × AuditValue)} {now : Instant}
    {u : Unit}
    (h : Returns (completeReplay reference manifestArtifactId expected comparison now) db u db') :
    Changes permit db db' := by
  unfold completeReplay at h
  obtain ⟨run, s, hread, h⟩ := h.bind
  obtain ⟨-, -, rfl⟩ := runRow_returns hread
  exact (commitReplayComparison_changes permit h).1

end RunManifestService

end CorpusKit
