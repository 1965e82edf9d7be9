import CorpusKit.Library.Frame
import CorpusKit.Refinement.Content

/-! # Who writes the record of an execution

The execution facts of a run and its replay lineage are written by the manifest
service alone. Every other transaction leaves both tables as they are. -/

namespace CorpusKit

open Transaction

variable {facts : Table Uuid RunExecutionFact} {replays : Table Uuid RunReplay}

/-- The records of the executions so far. -/
def Records (facts : Table Uuid RunExecutionFact) (replays : Table Uuid RunReplay) (db : Db) :
    Prop :=
  db.runExecutionFacts = facts ∧ db.runReplays = replays

/-! ## Statements -/

theorem uuid4_keeps : Keeps (Records facts replays) uuid4 :=
  .get fun _ hs => .bind (.set hs) fun _ => .pure _

theorem setRun_keeps (runId : Uuid) (run : Run) : Keeps (Records facts replays) (setRun runId run) :=
  .modify fun _ hs => hs

theorem addRunEvent_keeps (org runId : Uuid) (sequence : Nat) (eventType : String)
    (payload : EventPayload) :
    Keeps (Records facts replays) (addRunEvent org runId sequence eventType payload) :=
  .get fun _ hs => .bind (.require _ _) fun _ => .set hs

theorem addOutboxMessage_keeps (runId : Uuid) (run : Run) (eventType : String) (now : Instant) :
    Keeps (Records facts replays) (addOutboxMessage runId run eventType now) :=
  .bind uuid4_keeps fun _ => .modify fun _ hs => hs

theorem insertArtifact_keeps (id : Uuid) (artifact : Artifact) :
    Keeps (Records facts replays) (insertArtifact id artifact) :=
  .get fun _ hs => .bind (.require _ _) fun _ => .bind (.require _ _) fun _ =>
    .bind (.require _ _) fun _ => .set hs

theorem append_keeps (org : Uuid) (actor : AuditIdentity) (action : AuditAction)
    (resourceType : AuditResourceType) (resourceId : Uuid) (requestId : Option String)
    (metadata : List (String × AuditValue)) (now : Instant) :
    Keeps (Records facts replays)
      (AuditWriter.append org actor action resourceType resourceId requestId metadata now) := by
  intro s u t hs h
  obtain ⟨head, -, -, rfl⟩ := append_returns h
  exact hs

theorem ensureTransition_keeps (current target : RunState) :
    Keeps (Records facts replays) (ensureTransition current target) := by
  unfold ensureTransition
  exact .require _ _

/-! ## Quotas -/

namespace QuotaManager

theorem locked_keeps (policy : Option QuotaPolicyValues) (org : Uuid) :
    Keeps (Records facts replays) (locked policy org) :=
  .get fun _ _ => .bind (.found _ _) fun _ => .bind (.found _ _) fun _ => .pure _

theorem setUsage_keeps (org : Uuid) (usage : QuotaUsage) :
    Keeps (Records facts replays) (setUsage org usage) :=
  .modify fun _ hs => hs

theorem reservationOf_keeps (org runId : Uuid) :
    Keeps (Records facts replays) (reservationOf org runId) :=
  .get fun _ _ => .pure _

theorem setReservation_keeps (id : Uuid) (reservation : QuotaReservation) :
    Keeps (Records facts replays) (setReservation id reservation) :=
  .modify fun _ hs => hs

theorem chargeJob_keeps (policy : QuotaPolicyValues) (usage : QuotaUsage) (c : RunQuotaClass) :
    Keeps (Records facts replays) (chargeJob policy usage c) := by
  cases c <;> exact .bind (.require _ _) fun _ => .pure _

theorem releaseJob_keeps (usage : QuotaUsage) (c : RunQuotaClass) :
    Keeps (Records facts replays) (releaseJob usage c) := by
  cases c <;> exact .bind (.require _ _) fun _ => .pure _

theorem reserveRun_keeps (policy : Option QuotaPolicyValues) (org runId : Uuid) (run : Run)
    (now : Instant) : Keeps (Records facts replays) (reserveRun policy org runId run now) := by
  refine .bind (reservationOf_keeps _ _) fun existing => ?_
  cases existing with
  | some existing => exact .bind (.require _ _) fun _ => .pure _
  | none =>
    refine .bind (locked_keeps _ _) fun p => ?_
    dsimp only
    split
    · exact .throw _
    · exact .throw _
    · refine .bind (chargeJob_keeps _ _ _) fun usage => .bind uuid4_keeps fun id => ?_
      exact .bind (setReservation_keeps _ _) fun _ => .bind (setUsage_keeps _ _) fun _ => .pure _

theorem renewRun_keeps (org runId : Uuid) (run : Run) (now : Instant) :
    Keeps (Records facts replays) (renewRun org runId run now) := by
  refine .bind (reservationOf_keeps _ _) fun existing => ?_
  cases existing with
  | none => exact .pure _
  | some existing =>
    refine .ite (.get fun db _ => .bind (.found _ _) fun policy => ?_) (.pure _)
    split
    · exact .throw _
    · exact .bind (setReservation_keeps _ _) fun _ => .pure _

theorem releaseRun_keeps (org runId : Uuid) (state : QuotaReservationState) (now : Instant) :
    Keeps (Records facts replays) (releaseRun org runId state now) := by
  refine .bind (reservationOf_keeps _ _) fun existing => ?_
  cases existing with
  | none => exact .pure _
  | some existing =>
    refine .ite (.get fun db _ => .bind (locked_keeps _ _) fun p => ?_) (.pure _)
    refine .bind (releaseJob_keeps _ _) fun usage => .bind (setUsage_keeps _ _) fun _ => ?_
    exact .bind (setReservation_keeps _ _) fun _ => .pure _

theorem consumeArtifact_keeps (policy : Option QuotaPolicyValues) (org : Uuid) (kind : ArtifactKind)
    (sizeBytes : Nat) :
    Keeps (Records facts replays) (consumeArtifact policy org kind sizeBytes) :=
  .bind (.require _ _) fun _ => .bind (locked_keeps _ _) fun _ => .bind (.require _ _) fun _ =>
    .bind (.require _ _) fun _ => .bind (.require _ _) fun _ => setUsage_keeps _ _

theorem releaseArtifact_keeps (org : Uuid) (sizeBytes : Nat) :
    Keeps (Records facts replays) (releaseArtifact org sizeBytes) :=
  .get fun _ _ => .bind (locked_keeps _ _) fun _ => .bind (.require _ _) fun _ => setUsage_keeps _ _

theorem consumeCorpusSentences_keeps (policy : Option QuotaPolicyValues) (org : Uuid)
    (sentenceCount : Nat) (operation : String) :
    Keeps (Records facts replays) (consumeCorpusSentences policy org sentenceCount operation) :=
  .bind (.require _ _) fun _ => .bind (locked_keeps _ _) fun _ => .bind (.require _ _) fun _ =>
    setUsage_keeps _ _

theorem endExpiredRun_keeps (org runId : Uuid) (run : Run) :
    Keeps (Records facts replays) (endExpiredRun org runId run) :=
  .ite (.pure _) (.bind (ensureTransition_keeps _ _) fun _ => .bind (setRun_keeps _ _) fun _ =>
    addRunEvent_keeps _ _ _ _ _)

theorem auditExpiredRun_keeps (org runId : Uuid) (run : Run) (now : Instant) :
    Keeps (Records facts replays) (auditExpiredRun org runId run now) :=
  .ite (.pure _) (append_keeps _ _ _ _ _ _ _ _)

theorem expireReservation_keeps (cutoff : Instant) (reservationId org runId : Uuid) (now : Instant) :
    Keeps (Records facts replays) (expireReservation cutoff reservationId org runId now) := by
  refine .get fun db _ => .bind (.found _ _) fun run => ?_
  dsimp only
  split
  · exact .pure _
  · refine .bind (endExpiredRun_keeps _ _ _) fun _ => .bind (releaseRun_keeps _ _ _ _) fun released => ?_
    refine .ite (.bind (append_keeps _ _ _ _ _ _ _ _) fun _ => ?_) (.pure _)
    exact .bind (auditExpiredRun_keeps _ _ _ _) fun _ => .pure _

end QuotaManager

open QuotaManager

theorem replacePolicy_keeps (current : Option QuotaPolicyValues) (org : Uuid)
    (policy : QuotaPolicyValues) (requestId : Option String) (now : Instant) :
    Keeps (Records facts replays) (replacePolicy current org policy requestId now) :=
  .bind (locked_keeps _ _) fun _ => .bind (.require _ _) fun _ => .get fun _ hs =>
    .bind (.require _ _) fun _ => .bind (.found _ _) fun _ => .bind (.set hs) fun _ =>
      append_keeps _ _ _ _ _ _ _ _

theorem ensurePlatformRows_keeps (org : Uuid) :
    Keeps (Records facts replays) (ensurePlatformRows org) :=
  .get fun _ hs => .set hs

/-! ## Submission and cancellation -/

namespace JobControlPlane

theorem dispatchState_keeps (runId : Uuid) : Keeps (Records facts replays) (dispatchState runId) :=
  .get fun _ _ => .bind (.found _ _) fun _ => .pure _

theorem activeRun_keeps (org runId : Uuid) : Keeps (Records facts replays) (activeRun org runId) :=
  .get fun _ _ => .bind (.found _ _) fun _ => .bind (.require _ _) fun _ => .pure _

theorem existingSubmission_keeps (s : NewSubmission) :
    Keeps (Records facts replays) (existingSubmission s) := by
  refine .get fun db _ => ?_
  split
  · exact .pure _
  · exact .bind (.require _ _) fun _ => .bind (dispatchState_keeps _) fun _ => .pure _

theorem insertRun_keeps (run : Run) (notFound : Error) :
    Keeps (Records facts replays) (insertRun run notFound) :=
  .bind uuid4_keeps fun _ => .get fun _ _ => .bind (.require _ _) fun _ =>
    .bind (setRun_keeps _ _) fun _ => .bind (.require _ _) fun _ => .pure _

theorem submitNew_keeps (policy : Option QuotaPolicyValues) (s : NewSubmission) (now : Instant) :
    Keeps (Records facts replays) (submitNew policy s now) := by
  refine .bind (insertRun_keeps _ _) fun runId => .bind (reserveRun_keeps _ _ _ _ _) fun _ => ?_
  refine .bind (addRunEvent_keeps _ _ _ _ _) fun _ => .bind (addOutboxMessage_keeps _ _ _ _) fun _ => ?_
  refine .bind (append_keeps _ _ _ _ _ _ _ _) fun _ => ?_
  exact .bind (dispatchState_keeps _) fun _ => .pure _

theorem insertSubmission_keeps (policy : Option QuotaPolicyValues) (s : NewSubmission)
    (now : Instant) : Keeps (Records facts replays) (insertSubmission policy s now) := by
  refine .bind (existingSubmission_keeps _) fun existing => ?_
  cases existing with
  | some result => exact .pure _
  | none => exact submitNew_keeps _ _ _

theorem commitCancellation_keeps (who : JobActor) (userId runId : Uuid) (read : Run) (now : Instant) :
    Keeps (Records facts replays) (commitCancellation who userId runId read now) := by
  refine .get fun db _ => .bind (ensureTransition_keeps _ _) fun _ => ?_
  dsimp only
  split
  · exact .pure _
  · refine .bind (setRun_keeps _ _) fun _ => .bind (addRunEvent_keeps _ _ _ _ _) fun _ => ?_
    refine .bind (addOutboxMessage_keeps _ _ _ _) fun _ => ?_
    refine .bind (append_keeps _ _ _ _ _ _ _ _) fun _ => .bind (activeRun_keeps _ _) fun _ => ?_
    exact .bind (dispatchState_keeps _) fun _ => .pure _

end JobControlPlane

/-! ## Outbox -/

namespace TransactionalOutbox

theorem claimOne_keeps (workerId : String) (now expired : Instant) (id : Uuid) :
    Keeps (Records facts replays) (claimOne workerId now expired id) := by
  refine .get fun db hs => ?_
  split
  · exact .pure _
  · exact .bind (.set hs) fun _ => .pure _

theorem claimAll_keeps (workerId : String) (now expired : Instant) (ids : List Uuid) :
    Keeps (Records facts replays) (claimAll workerId now expired ids) := by
  induction ids with
  | nil => exact .pure _
  | cons id ids ih => exact .bind (claimOne_keeps _ _ _ _) fun _ => .bind ih fun _ => .pure _

theorem ownClaim_keeps (id : Uuid) (workerId operation : String) :
    Keeps (Records facts replays) (ownClaim id workerId operation) :=
  .get fun _ _ => .found _ _

theorem markPublished_keeps (id : Uuid) (workerId : String) (now : Instant) :
    Keeps (Records facts replays) (markPublished id workerId now) :=
  .bind (ownClaim_keeps _ _ _) fun _ => .modify fun _ hs => hs

theorem releaseFailed_keeps (id : Uuid) (workerId : String) (now : Instant) :
    Keeps (Records facts replays) (releaseFailed id workerId now) :=
  .bind (ownClaim_keeps _ _ _) fun _ => .modify fun _ hs => hs

end TransactionalOutbox

/-! ## Workflow activities -/

namespace DurableRunStore

theorem readRun_keeps (reference : RunWorkflowReference) :
    Keeps (Records facts replays) (readRun reference) := by
  intro s run t hs h
  obtain ⟨-, -, -, rfl⟩ := readRun_returns h
  exact hs

theorem audited_keeps (org runId : Uuid) (ending : QuotaReservationState) (actor : AuditIdentity)
    (action : AuditAction) (metadata : List (String × AuditValue)) (now : Instant) :
    Keeps (Records facts replays) (do
      let _ ← releaseRun org runId ending now
      AuditWriter.append org actor action .run runId none metadata now) :=
  .bind (releaseRun_keeps _ _ _ _) fun _ => append_keeps _ _ _ _ _ _ _ _

theorem applyTransitionControls_keeps (org runId : Uuid) (run : Run) (target : RunState)
    (failureCode : Option String) (now : Instant) :
    Keeps (Records facts replays)
      (applyTransitionControls org runId run target failureCode now) := by
  cases target with
  | running => exact .bind (renewRun_keeps _ _ _ _) fun _ => .require _ _
  | cancelling => exact append_keeps _ _ _ _ _ _ _ _
  | succeeded => exact audited_keeps _ _ _ _ _ _ _
  | failed => exact audited_keeps _ _ _ _ _ _ _
  | cancelled => exact audited_keeps _ _ _ _ _ _ _
  | draft => exact .pure _
  | queued => exact .pure _
  | provisioning => exact .pure _

theorem commitTransition_keeps (reference : RunWorkflowReference) (read : Run) (t : Transition)
    (now : Instant) : Keeps (Records facts replays) (commitTransition reference read t now) := by
  refine .bind (ensureTransition_keeps _ _) fun _ => .get fun db _ => ?_
  dsimp only
  split
  · exact .pure _
  · refine .bind (setRun_keeps _ _) fun _ => .bind (addRunEvent_keeps _ _ _ _ _) fun _ => ?_
    exact .bind (applyTransitionControls_keeps _ _ _ _ _ _) fun _ => .pure _

theorem commitProgress_keeps (reference : RunWorkflowReference) (read : Run)
    (payload : EventPayload) :
    Keeps (Records facts replays) (commitProgress reference read payload) := by
  refine .get fun db _ => ?_
  dsimp only
  split
  · exact .pure _
  · exact .bind (setRun_keeps _ _) fun _ => .bind (addRunEvent_keeps _ _ _ _ _) fun _ => .pure _

theorem verifyPublication_keeps (run : Run) (publication : AdoptedDatgIndex) :
    Keeps (Records facts replays) (verifyPublication run publication) :=
  .get fun _ _ => .require _ _

theorem commitDatgPublication_keeps (runId : Uuid) (run : Run) (adopted : AdoptedArtifact) :
    Keeps (Records facts replays) (commitDatgPublication runId run adopted) := by
  unfold commitDatgPublication
  split
  · exact .pure _
  · exact .bind (.require _ _) fun _ => .bind uuid4_keeps fun _ => .get fun _ hs =>
      .ite (.set hs) (verifyPublication_keeps _ _)

theorem recordTerminalAudit_keeps (runId : Uuid) (run : Run) (action : AuditAction)
    (identity : ServiceIdentity) (now : Instant) :
    Keeps (Records facts replays) (recordTerminalAudit runId run action identity now) :=
  audited_keeps _ _ _ _ _ _ _

theorem cancelLocked_keeps (runId : Uuid) (run : Run) (now : Instant) :
    Keeps (Records facts replays) (cancelLocked runId run now) := by
  refine .bind (m := observeCancellation runId run) (.ite (.pure _) ?_) fun observed => .ite ?_ ?_
  · exact .bind (ensureTransition_keeps _ _) fun _ => .bind (setRun_keeps _ _) fun _ =>
      .bind (addRunEvent_keeps _ _ _ _ _) fun _ => .pure _
  · exact .bind (ensureTransition_keeps _ _) fun _ => .bind (setRun_keeps _ _) fun _ =>
      .bind (addRunEvent_keeps _ _ _ _ _) fun _ => .pure _
  · exact .bind (setRun_keeps _ _) fun _ => .pure _

theorem adoptAgain_keeps (runId : Uuid) (run : Run) (adopted : AdoptedArtifact) :
    Keeps (Records facts replays) (adoptAgain runId run adopted) := by
  refine .get fun db _ => .bind (.found _ _) fun existing => .bind (.require _ _) fun _ => ?_
  refine .bind (m := verifyExistingDatgPublication run adopted) ?_ fun _ => .pure _
  unfold verifyExistingDatgPublication
  split
  · exact .pure _
  · exact verifyPublication_keeps _ _

theorem adoptResult_keeps (policy : Option QuotaPolicyValues) (runId : Uuid) (run : Run)
    (adopted : AdoptedArtifact) (now : Instant) :
    Keeps (Records facts replays) (adoptResult policy runId run adopted now) := by
  refine .bind uuid4_keeps fun id => .bind (insertArtifact_keeps _ _) fun _ => ?_
  refine .bind (commitDatgPublication_keeps _ _ _) fun _ => ?_
  refine .bind (consumeArtifact_keeps _ _ _ _) fun _ => .bind (ensureTransition_keeps _ _) fun _ => ?_
  refine .bind (setRun_keeps _ _) fun _ => .bind (addRunEvent_keeps _ _ _ _ _) fun _ => ?_
  refine .bind (append_keeps _ _ _ _ _ _ _ _) fun _ => ?_
  exact .bind (recordTerminalAudit_keeps _ _ _ _ _) fun _ => .pure _

theorem commitAdoptedResult_keeps (policy : Option QuotaPolicyValues)
    (reference : RunWorkflowReference) (adopted : AdoptedArtifact) (now : Instant) :
    Keeps (Records facts replays) (commitAdoptedResult policy reference adopted now) := by
  refine .bind (readRun_keeps _) fun run => .bind (.require _ _) fun _ => .ite ?_ (.ite ?_ ?_)
  · exact .bind (cancelLocked_keeps _ _ _) fun cancelled =>
      .ite (.bind (recordTerminalAudit_keeps _ _ _ _ _) fun _ => .pure _) (.pure _)
  · exact adoptAgain_keeps _ _ _
  · exact .bind (.require _ _) fun _ => adoptResult_keeps _ _ _ _ _

end DurableRunStore

/-! ## Artifacts -/

namespace ArtifactService

theorem authorizeScope_keeps (who : ArtifactActor) (projectId : Uuid) (runId : Option Uuid)
    (write : Bool) (operation : String) :
    Keeps (Records facts replays) (authorizeScope who projectId runId write operation) :=
  .get fun _ _ => .bind (.found _ _) fun _ => .bind (.require _ _) fun _ =>
    .bind (.require _ _) fun _ => .bind (.require _ _) fun _ => .pure _

theorem insertUpload_keeps (policy : Option QuotaPolicyValues) (who : ArtifactActor) (userId : Uuid)
    (upload : Upload) (retentionUntil now : Instant) :
    Keeps (Records facts replays) (insertUpload policy who userId upload retentionUntil now) :=
  .bind (authorizeScope_keeps _ _ _ _ _) fun _ => .bind (consumeArtifact_keeps _ _ _ _) fun _ =>
    .bind uuid4_keeps fun _ => .bind (insertArtifact_keeps _ _) fun _ =>
      .bind (append_keeps _ _ _ _ _ _ _ _) fun _ => .pure _

theorem tombstone_keeps (who : ArtifactActor) (projectId artifactId : Uuid) (now : Instant) :
    Keeps (Records facts replays) (tombstone who projectId artifactId now) :=
  .bind (authorizeScope_keeps _ _ _ _ _) fun _ => .get fun _ hs => .bind (.found _ _) fun _ =>
    .bind (.set hs) fun _ => append_keeps _ _ _ _ _ _ _ _

theorem markPurged_keeps (id : Uuid) (read : Artifact) (cutoff now : Instant) :
    Keeps (Records facts replays) (markPurged id read cutoff now) := by
  refine .get fun db hs => ?_
  split
  · exact .pure _
  · exact .bind (.set hs) fun _ => .bind (releaseArtifact_keeps _ _) fun _ =>
      .bind (append_keeps _ _ _ _ _ _ _ _) fun _ => .pure _

end ArtifactService

/-! ## Workspaces -/

namespace ProjectWorkspace

theorem actor_keeps (who : WorkspaceActor) : Keeps (Records facts replays) (actor who) :=
  .get fun _ _ => .bind (.found _ _) fun _ => .pure _

theorem createProject_keeps (who : WorkspaceActor) (name : String) (now : Instant) :
    Keeps (Records facts replays) (createProject who name now) :=
  .bind (actor_keeps _) fun _ => .bind (.require _ _) fun _ => .bind uuid4_keeps fun _ =>
    .get fun _ hs => .bind (.require _ _) fun _ => .bind (.set hs) fun _ =>
      .bind (append_keeps _ _ _ _ _ _ _ _) fun _ => .pure _

theorem insertVersion_keeps (version : CorpusVersion) (texts : List String) (operation : String) :
    Keeps (Records facts replays) (insertVersion version texts operation) :=
  .bind uuid4_keeps fun _ => .get fun _ hs => .bind (.require _ _) fun _ =>
    .bind (.set hs) fun _ => .pure _

theorem createCorpus_keeps (policy : Option QuotaPolicyValues) (who : WorkspaceActor)
    (projectId : Uuid) (name : String) (prepared : PreparedCorpus) (now : Instant) :
    Keeps (Records facts replays) (createCorpus policy who projectId name prepared now) := by
  refine .bind (actor_keeps _) fun _ => .bind (.require _ _) fun _ => ?_
  refine .bind (consumeCorpusSentences_keeps _ _ _ _) fun _ => .get fun _ _ => ?_
  refine .bind (.require _ _) fun _ => .bind (.require _ _) fun _ => .bind uuid4_keeps fun _ => ?_
  refine .bind (.modify fun _ hs => hs) fun _ => .bind (insertVersion_keeps _ _ _) fun _ => ?_
  exact .bind (append_keeps _ _ _ _ _ _ _ _) fun _ => .pure _

theorem createVersion_keeps (policy : Option QuotaPolicyValues) (who : WorkspaceActor)
    (projectId corpusId : Uuid) (prepared : PreparedCorpus) (operation : String) (now : Instant) :
    Keeps (Records facts replays)
      (createVersion policy who projectId corpusId prepared operation now) := by
  refine .bind (actor_keeps _) fun _ => .bind (.require _ _) fun _ => ?_
  refine .bind (consumeCorpusSentences_keeps _ _ _ _) fun _ => .get fun _ _ => ?_
  refine .bind (.require _ _) fun _ => .bind (.require _ _) fun _ => .bind (.found _ _) fun _ => ?_
  exact .bind (insertVersion_keeps _ _ _) fun _ => .bind (append_keeps _ _ _ _ _ _ _ _) fun _ => .pure _

end ProjectWorkspace

theorem ProjectDeletion.request_keeps (who : WorkspaceActor) (projectId : Uuid)
    (confirmation : String) (retention : Duration) (now : Instant) :
    Keeps (Records facts replays) (request who projectId confirmation retention now) := by
  refine .bind (ProjectWorkspace.actor_keeps _) fun _ => .bind (.require _ _) fun _ => ?_
  refine .bind (.require _ _) fun _ => .get fun _ _ => .bind (.found _ _) fun project => ?_
  refine .bind (.require _ _) fun _ => ?_
  split
  · exact .pure _
  · exact .get fun _ hs => .bind (.require _ _) fun _ => .bind (.set hs) fun _ =>
      append_keeps _ _ _ _ _ _ _ _

/-! ## The manifest service -/

/-- The artifact is there, and is the manifest with this digest of this run of the project. -/
def Db.IsManifest (db : Db) (artifactId projectId runId : Uuid) (sha256 : Sha256) : Prop :=
  ∃ row, db.artifacts.lookup artifactId = some row ∧ row.projectId = projectId ∧
    row.runId = some runId ∧ row.scopeKey = some runId ∧ row.kind = .runManifest ∧
    row.sha256 = sha256

namespace RunManifestService

/-- A transaction that keeps both tables keeps the facts. -/
theorem keepsFacts {α : Type} {m : DbTx α} (h : ∀ replays, Keeps (Records facts replays) m) :
    Keeps (fun db => db.runExecutionFacts = facts) m :=
  fun s a t hs hret => (h s.runReplays s a t ⟨hs, rfl⟩ hret).1

/-- A new replay run has a lineage and no facts. -/
theorem replayNew_facts (policy : Option QuotaPolicyValues) (s : NewReplay) (userId : Uuid)
    (source : ReplaySource) (now : Instant) :
    Keeps (fun db => db.runExecutionFacts = facts) (replayNew policy s userId source now) := by
  refine .bind (keepsFacts fun _ => JobControlPlane.insertRun_keeps _ _) fun runId => ?_
  refine .bind (keepsFacts fun _ => QuotaManager.reserveRun_keeps _ _ _ _ _) fun _ => ?_
  refine .bind (.modify fun _ hs => hs) fun _ => ?_
  refine .bind (keepsFacts fun _ => addRunEvent_keeps _ _ _ _ _) fun _ => ?_
  refine .bind (keepsFacts fun _ => addOutboxMessage_keeps _ _ _ _) fun _ => ?_
  exact .bind (keepsFacts fun _ => append_keeps _ _ _ _ _ _ _ _) fun _ => .pure _

theorem activeArtifact_keeps (db : Db) (org artifactId : Uuid) (kind : ArtifactKind) :
    Keeps (Records facts replays) (activeArtifact db org artifactId kind) :=
  .found _ _

theorem insertReplay_facts (admits : RunKind → RunSpec → Bool) (policy : Option QuotaPolicyValues)
    (s : NewReplay) (now : Instant) :
    Keeps (fun db => db.runExecutionFacts = facts) (insertReplay admits policy s now) := by
  refine .bind (m := actor s.who) (.get fun _ _ => .bind (.found _ _) fun _ =>
    .bind (.require _ _) fun _ => .pure _) fun userId => ?_
  refine .bind (m := sourceManifestRows _ _ _) ?_ fun source => .bind (.require _ _) fun _ => ?_
  · refine .get fun db _ => .bind (.found _ _) fun _ => .bind (.found _ _) fun _ => ?_
    refine .bind (.found _ _) fun _ => .bind (.found _ _) fun _ => ?_
    exact .bind (keepsFacts fun _ => activeArtifact_keeps _ _ _ _) fun _ =>
      .bind (.require _ _) fun _ => .pure _
  · refine .get fun db _ => ?_
    split
    · refine .bind (m := sameReplay _ _ _ _) ?_ fun _ => .pure _
      exact .get fun _ _ => .bind (.found _ _) fun _ => .bind (.require _ _) fun _ => .pure _
    · exact .bind (.require _ _) fun _ => replayNew_facts _ _ _ _ _

theorem manifestRow_keeps (policy : Option QuotaPolicyValues) (runId : Uuid) (run : Run)
    (manifest : RunManifest) (retentionUntil now : Instant) :
    Keeps (Records facts replays) (manifestRow policy runId run manifest retentionUntil now) := by
  refine .get fun db _ => ?_
  dsimp only
  split
  · exact .bind (.require _ _) fun _ => .pure _
  · refine .bind uuid4_keeps fun id => .bind (insertArtifact_keeps _ _) fun _ => ?_
    refine .bind (QuotaManager.consumeArtifact_keeps _ _ _ _) fun _ => ?_
    exact .bind (append_keeps _ _ _ _ _ _ _ _) fun _ => .pure _

variable {db db' : Db}

/-- A comparison is recorded where none was. -/
theorem commitReplayComparison_records {runId : Uuid} {run : Run} {manifestArtifactId : Uuid}
    {expected : Option RunManifest} {comparison : List (String × AuditValue)} {now : Instant}
    {u : Unit}
    (h : Returns (commitReplayComparison runId run manifestArtifactId expected comparison now)
      db u db') :
    (db'.nextId = db.nextId ∧ db'.artifacts = db.artifacts ∧
      db'.runExecutionFacts = db.runExecutionFacts) ∧ (db'.runReplays = db.runReplays ∨
      ∃ replay, db.runReplays.lookup runId = some replay ∧
        replay.observedManifestArtifactId = none ∧
        db'.runReplays = db.runReplays.insert runId
          { replay with observedManifestArtifactId := some manifestArtifactId }) := by
  unfold commitReplayComparison at h
  obtain ⟨a, s, hget, h⟩ := h.bind
  obtain ⟨rfl, rfl⟩ := hget.get
  split at h
  · obtain ⟨-, rfl⟩ := h.pure
    exact ⟨⟨rfl, rfl, rfl⟩, .inl rfl⟩
  · next replay hreplay =>
    rw [Option.filter_eq_some_iff] at hreplay
    split at h
    · obtain ⟨-, rfl⟩ := h.require
      exact ⟨⟨rfl, rfl, rfl⟩, .inl rfl⟩
    · next hnone =>
      obtain ⟨u, s, hreq, h⟩ := h.bind
      obtain ⟨-, rfl⟩ := hreq.require
      obtain ⟨u, s, hset, h⟩ := h.bind
      obtain rfl := hset.set
      obtain ⟨head, -, -, rfl⟩ := append_returns h
      exact ⟨⟨rfl, rfl, rfl⟩, .inr ⟨replay, hreplay.1, hnone, rfl⟩⟩

theorem manifestRow_isManifest {policy : Option QuotaPolicyValues} {runId : Uuid} {run : Run}
    {manifest : RunManifest} {retentionUntil now : Instant} {answer : Uuid × Bool}
    (hd : Table.Below db.nextId db.artifacts) (hkeyed : ∀ {id a}, db.artifacts.lookup id = some a → a.Keyed)
    (h : Returns (manifestRow policy runId run manifest retentionUntil now) db answer db') :
    answer.1 < db'.nextId ∧ db'.IsManifest answer.1 run.projectId runId manifest.sha256 := by
  unfold manifestRow at h
  obtain ⟨a, s, hget, h⟩ := h.bind
  obtain ⟨rfl, rfl⟩ := hget.get
  dsimp only at h
  split at h
  · next existingId existing hfind =>
    obtain ⟨u, s, hreq, h⟩ := h.bind
    obtain ⟨hmeta, rfl⟩ := hreq.require
    obtain ⟨rfl, rfl⟩ := h.pure
    obtain ⟨hexisting, hsame⟩ := Table.find_some hfind
    simp only [Artifact.sameScopeDigest, manifestArtifact, Bool.and_eq_true, beq_iff_eq] at hsame
    obtain ⟨⟨⟨-, hscope⟩, hkind⟩, hsha⟩ := hsame
    simp only [sameManifestArtifact, manifestArtifact, Bool.and_eq_true, beq_iff_eq] at hmeta
    -- the key names the project and the run
    have hkeys := (hkeyed hexisting).symm.trans hmeta.1.1.1
    simp only [manifestKey, artifactStorageKey, StorageKey.artifact.injEq] at hkeys
    exact ⟨hd _ _ hexisting, existing, hexisting, hkeys.2.1, hkeys.2.2.1, hscope, hkind,
      hsha⟩
  · obtain ⟨id, s, hid, h⟩ := h.bind
    obtain ⟨rfl, rfl⟩ := uuid4_returns hid
    obtain ⟨u, s, hinsert, h⟩ := h.bind
    obtain ⟨-, -, -, rfl⟩ := insertArtifact_returns hinsert
    obtain ⟨u, s, hconsume, h⟩ := h.bind
    obtain ⟨p, usage, -, -, -, -, rfl⟩ := QuotaManager.consumeArtifact_returns hconsume
    obtain ⟨u, s, haudit, h⟩ := h.bind
    obtain ⟨head, -, -, rfl⟩ := append_returns haudit
    obtain ⟨rfl, rfl⟩ := h.pure
    exact ⟨Nat.lt_succ_self _, _, AList.lookup_insert _, rfl, rfl, rfl, rfl, rfl⟩

/-- What a finalization records: nothing, or the link to the manifest of the run. -/
theorem finalizeManifest_records {policy : Option QuotaPolicyValues}
    {reference : RunWorkflowReference} {factsSha256 : Sha256} {outputs : List (Uuid × Artifact)}
    {manifest : RunManifest} {expected : Option RunManifest}
    {comparison : List (String × AuditValue)} {retentionUntil now : Instant} {answer : Uuid × Bool}
    (hd : Table.Below db.nextId db.artifacts) (hkeyed : ∀ {id a}, db.artifacts.lookup id = some a → a.Keyed)
    (h : Returns (finalizeManifest policy reference factsSha256 outputs manifest expected comparison
      retentionUntil now) db answer db') :
    db = db' ∨ (∃ run recorded artifactId, db.runs.lookup reference.runId = some run ∧
      db.runExecutionFacts.lookup reference.runId = some recorded ∧
      recorded.manifestArtifactId = none ∧
      db'.runExecutionFacts = db.runExecutionFacts.insert reference.runId
        { recorded with
          manifestArtifactId := some artifactId, manifestSha256 := some manifest.sha256 } ∧
      artifactId < db'.nextId ∧
      db'.IsManifest artifactId run.projectId reference.runId manifest.sha256 ∧
      (db'.runReplays = db.runReplays ∨ ∃ replay,
        db.runReplays.lookup reference.runId = some replay ∧
          replay.observedManifestArtifactId = none ∧
          db'.runReplays = db.runReplays.insert reference.runId
            { replay with observedManifestArtifactId := some artifactId })) := by
  unfold finalizeManifest at h
  obtain ⟨run, s, hread, h⟩ := h.bind
  obtain ⟨hrun, -, rfl⟩ := runRow_returns hread
  obtain ⟨u, s, hreq, h⟩ := h.bind
  obtain ⟨-, rfl⟩ := hreq.require
  obtain ⟨u, s, hreq, h⟩ := h.bind
  obtain ⟨-, rfl⟩ := hreq.require
  obtain ⟨a, s, hget, h⟩ := h.bind
  obtain ⟨rfl, rfl⟩ := hget.get
  obtain ⟨recorded, s, hfound, h⟩ := h.bind
  obtain ⟨hrecorded, rfl⟩ := hfound.found
  rw [Option.filter_eq_some_iff] at hrecorded
  split at h
  · obtain ⟨artifact, s, hartifact, h⟩ := h.bind
    obtain ⟨-, -, -, -, rfl⟩ := activeArtifact_returns hartifact
    obtain ⟨-, rfl⟩ := h.pure
    exact .inl rfl
  · next hnone =>
    obtain ⟨u, s, hreq, h⟩ := h.bind
    obtain ⟨-, rfl⟩ := hreq.require
    obtain ⟨u, s, hreq, h⟩ := h.bind
    obtain ⟨-, rfl⟩ := hreq.require
    obtain ⟨⟨artifactId, created⟩, s, hmanifest, h⟩ := h.bind
    obtain ⟨hfacts, hreplays⟩ : Records db.runExecutionFacts db.runReplays s :=
      manifestRow_keeps _ _ _ _ _ _ _ _ _ ⟨rfl, rfl⟩ hmanifest
    obtain ⟨hknown, hlinked⟩ := manifestRow_isManifest hd hkeyed hmanifest
    obtain ⟨u, s, hset, h⟩ := h.bind
    obtain rfl := hset.modify
    obtain ⟨u, s, hcompare, h⟩ := h.bind
    obtain ⟨-, rfl⟩ := h.pure
    obtain ⟨⟨hnext, hartifacts, hsame⟩, hobserved⟩ := commitReplayComparison_records hcompare
    refine .inr ⟨run, recorded, artifactId, (Db.run?_some hrun).1, hrecorded.1, hnone,
      ?_, ?_, ?_, ?_⟩
    · rw [hsame]
      dsimp only
      rw [hfacts]
    · rw [hnext]
      exact hknown
    · unfold Db.IsManifest
      rw [hartifacts]
      exact hlinked
    · dsimp only at hobserved
      rw [hreplays] at hobserved
      exact hobserved

/-- Facts are recorded where there are none; otherwise the call finds the same. -/
theorem recordExecution_returns {reference : RunWorkflowReference} {facts : TrustedExecutionFacts}
    {inputs : List InputDigest} {b : Bool}
    (h : Returns (recordExecution reference facts inputs) db b db') :
    (b = true ∧ db.runExecutionFacts.lookup reference.runId = none ∧
      ∃ run, db.run? reference.organizationId reference.runId = some run ∧
        db.activeProject reference.organizationId run.projectId = true ∧
        db' = { db with
          runExecutionFacts := db.runExecutionFacts.insert reference.runId
            { organizationId := run.organizationId, projectId := run.projectId, facts
              factsSha256 := facts.sha256, inputDigests := inputs
              manifestArtifactId := none, manifestSha256 := none } }) ∨
    (b = false ∧ db' = db ∧ ∃ existing,
      db.runExecutionFacts.lookup reference.runId = some existing ∧ existing.facts = facts ∧
        existing.factsSha256 = facts.sha256 ∧ existing.inputDigests = inputs) := by
  unfold recordExecution at h
  obtain ⟨run, s, hrun, h⟩ := h.bind
  obtain ⟨hrow, hactive, rfl⟩ := runRow_returns hrun
  obtain ⟨u, s, hreq, h⟩ := h.bind
  obtain ⟨-, rfl⟩ := hreq.require
  obtain ⟨u, s, hreq, h⟩ := h.bind
  obtain ⟨-, rfl⟩ := hreq.require
  obtain ⟨a, s, hget, h⟩ := h.bind
  obtain ⟨rfl, rfl⟩ := hget.get
  obtain ⟨u, s, hreq, h⟩ := h.bind
  obtain ⟨-, rfl⟩ := hreq.require
  split at h
  · next hnone =>
    obtain ⟨u, s, hset, h⟩ := h.bind
    obtain rfl := hset.set
    obtain ⟨rfl, rfl⟩ := h.pure
    exact .inl ⟨rfl, hnone, run, hrow, hactive, rfl⟩
  · next existing hexisting =>
    obtain ⟨u, s, hreq, h⟩ := h.bind
    obtain ⟨⟨hsha, hfacts, hinputs⟩, rfl⟩ := hreq.require
    obtain ⟨rfl, rfl⟩ := h.pure
    exact .inr ⟨rfl, rfl, existing, hexisting, hfacts, hsha, hinputs⟩

end RunManifestService

end CorpusKit
