import CorpusKit.Library.Avoidance
import CorpusKit.Refinement.Runs
import CorpusKit.Refinement.Workspaces
import CorpusKit.System.Contract

/-! # The quota checks that cannot fail

A release of quota raises when the usage row is below what it is to give back. A
body that releases nothing raises no such error whatever it finds; one that
releases raises none as long as the usage rows equal what they count. -/

namespace CorpusKit

open Transaction QuotaManager

/-- The errors that say that the quota usage contradicts the data. -/
def usageErrors : List Error :=
  [.runtime "CPU quota usage is inconsistent", .runtime "expensive quota usage is inconsistent",
   .runtime "artifact quota usage is inconsistent",
   .runtime "corpus sentence quota usage is inconsistent"]

def UsageError (e : Error) : Prop := e ∈ usageErrors

theorem not_usageError {e : Error} (h : usageErrors.contains e = false) : ¬ UsageError e := by
  simpa [UsageError] using h

section Leaves

variable {α : Type} {db : Db}

theorem require_shuns {p : Prop} [Decidable p] {e : Error} (h : usageErrors.contains e = false) :
    Shuns UsageError (require p e : DbTx Unit) := shuns_require (not_usageError h)

theorem found_shuns {x : Option α} {e : Error} (h : usageErrors.contains e = false) :
    Shuns UsageError (found x e : DbTx α) := shuns_found (not_usageError h)

theorem throw_shuns {e : Error} (h : usageErrors.contains e = false) :
    Shuns UsageError (throw e : DbTx α) := shuns_throw (not_usageError h)

end Leaves

theorem uuid4_shuns : Shuns UsageError uuid4 :=
  .bind shuns_get fun _ => .bind shuns_set fun _ => shuns_pure

theorem setRun_shuns {runId : Uuid} {run : Run} : Shuns UsageError (setRun runId run) := shuns_modify

theorem append_shuns {org : Uuid} {actor : AuditIdentity} {action : AuditAction}
    {rtype : AuditResourceType} {rid : Uuid} {requestId : Option String}
    {metadata : List (String × AuditValue)} {now : Instant} :
    Shuns UsageError (AuditWriter.append org actor action rtype rid requestId metadata now) :=
  .bind (require_shuns rfl) fun _ =>
    .bind (require_shuns rfl) fun _ => .bind shuns_get fun _ =>
      .bind (found_shuns rfl) fun _ =>
        .bind (require_shuns rfl) fun _ => shuns_set

theorem addRunEvent_shuns {org runId : Uuid} {sequence : Nat} {eventType : String}
    {payload : EventPayload} :
    Shuns UsageError (addRunEvent org runId sequence eventType payload) :=
  .bind shuns_get fun _ => .bind (require_shuns rfl) fun _ => shuns_set

theorem ensureTransition_shuns {s t : RunState} :
    Shuns UsageError (ensureTransition s t : DbTx Unit) := require_shuns rfl

theorem addOutboxMessage_shuns {runId : Uuid} {run : Run} {eventType : String} {now : Instant} :
    Shuns UsageError (addOutboxMessage runId run eventType now) :=
  .bind uuid4_shuns fun _ => shuns_modify

theorem insertArtifact_shuns {id : Uuid} {artifact : Artifact} :
    Shuns UsageError (insertArtifact id artifact) :=
  .bind shuns_get fun _ => .bind (require_shuns rfl) fun _ =>
    .bind (require_shuns rfl) fun _ =>
      .bind (require_shuns rfl) fun _ => shuns_set

theorem locked_shuns {policy : Option QuotaPolicyValues} {org : Uuid} :
    Shuns UsageError (locked policy org) :=
  .bind shuns_get fun _ => .bind (found_shuns rfl) fun _ =>
    .bind (found_shuns rfl) fun _ => shuns_pure

theorem reserveRun_shuns {policy : Option QuotaPolicyValues} {org runId : Uuid} {run : Run}
    {now : Instant} : Shuns UsageError (reserveRun policy org runId run now) := by
  refine .bind (.bind shuns_get fun _ => shuns_pure) fun existing => ?_
  split
  · exact .bind (require_shuns rfl) fun _ => shuns_pure
  · refine .bind locked_shuns fun ⟨_, _⟩ => ?_
    dsimp only
    split
    · exact throw_shuns rfl
    · exact throw_shuns rfl
    · refine .bind ?_ fun _ => .bind uuid4_shuns fun _ => .bind shuns_modify fun _ =>
        .bind shuns_modify fun _ => shuns_pure
      unfold chargeJob
      split <;> exact .bind (require_shuns rfl) fun _ => shuns_pure

theorem renewRun_shuns {org runId : Uuid} {run : Run} {now : Instant} :
    Shuns UsageError (renewRun org runId run now) := by
  refine .bind (.bind shuns_get fun _ => shuns_pure) fun existing => ?_
  split
  · exact shuns_pure
  · refine .ite (.bind shuns_get fun _ => .bind (found_shuns rfl) fun _ => ?_)
      shuns_pure
    split
    · exact throw_shuns rfl
    · exact .bind shuns_modify fun _ => shuns_pure

theorem consumeArtifact_shuns {policy : Option QuotaPolicyValues} {org : Uuid} {kind : ArtifactKind}
    {size : Nat} : Shuns UsageError (consumeArtifact policy org kind size) :=
  .bind (require_shuns rfl) fun _ => .bind locked_shuns fun _ =>
    .bind (require_shuns rfl) fun _ =>
      .bind (require_shuns rfl) fun _ =>
        .bind (require_shuns rfl) fun _ => shuns_modify

theorem consumeCorpusSentences_shuns {policy : Option QuotaPolicyValues} {org : Uuid} {n : Nat}
    {operation : String} : Shuns UsageError (consumeCorpusSentences policy org n operation) :=
  .bind (require_shuns rfl) fun _ => .bind locked_shuns fun _ =>
    .bind (require_shuns rfl) fun _ => shuns_modify

/-! ## Bodies that release nothing -/

namespace JobControlPlane

theorem dispatchState_shuns {runId : Uuid} : Shuns UsageError (dispatchState runId) :=
  .bind shuns_get fun _ => .bind (found_shuns rfl) fun _ => shuns_pure

theorem existingSubmission_shuns {s : NewSubmission} : Shuns UsageError (existingSubmission s) := by
  refine .bind shuns_get fun db => ?_
  split
  · exact shuns_pure
  · exact .bind (require_shuns rfl) fun _ => .bind dispatchState_shuns fun _ => shuns_pure

theorem insertRun_shuns {run : Run} {e : Error} (h : usageErrors.contains e = false) :
    Shuns UsageError (insertRun run e) :=
  .bind uuid4_shuns fun _ => .bind shuns_get fun _ => .bind (require_shuns rfl) fun _ =>
    .bind setRun_shuns fun _ => .bind (require_shuns h) fun _ => shuns_pure

theorem submitNew_shuns {policy : Option QuotaPolicyValues} {s : NewSubmission} {now : Instant} :
    Shuns UsageError (submitNew policy s now) :=
  .bind (insertRun_shuns rfl) fun _ => .bind reserveRun_shuns fun _ =>
    .bind addRunEvent_shuns fun _ => .bind addOutboxMessage_shuns fun _ =>
      .bind append_shuns fun _ => .bind dispatchState_shuns fun _ => shuns_pure

theorem insertSubmission_shuns {policy : Option QuotaPolicyValues} {s : NewSubmission}
    {now : Instant} : Shuns UsageError (insertSubmission policy s now) := by
  refine .bind existingSubmission_shuns fun existing => ?_
  split
  · exact shuns_pure
  · exact submitNew_shuns

theorem activeRun_shuns {org runId : Uuid} : Shuns UsageError (activeRun org runId) :=
  .bind shuns_get fun _ => .bind (found_shuns rfl) fun _ => .bind (require_shuns rfl) fun _ => shuns_pure

theorem commitCancellation_shuns {who : JobActor} {userId runId : Uuid} {read : Run}
    {now : Instant} : Shuns UsageError (commitCancellation who userId runId read now) := by
  refine .bind shuns_get fun db => .bind ensureTransition_shuns fun _ => ?_
  dsimp only
  split
  · exact shuns_pure
  · exact .bind setRun_shuns fun _ => .bind addRunEvent_shuns fun _ =>
      .bind addOutboxMessage_shuns fun _ => .bind append_shuns fun _ =>
        .bind activeRun_shuns fun _ => .bind dispatchState_shuns fun _ => shuns_pure

end JobControlPlane

namespace DurableRunStore

theorem readRun_shuns {reference : RunWorkflowReference} : Shuns UsageError (readRun reference) :=
  .bind (.bind shuns_get fun _ => found_shuns rfl) fun _ => .bind (require_shuns rfl) fun _ => shuns_pure

theorem commitProgress_shuns {reference : RunWorkflowReference} {read : Run}
    {payload : EventPayload} : Shuns UsageError (commitProgress reference read payload) := by
  refine .bind shuns_get fun db => ?_
  dsimp only
  split
  · exact shuns_pure
  · exact .bind setRun_shuns fun _ => .bind addRunEvent_shuns fun _ => shuns_pure

theorem verifyPublication_shuns {run : Run} {publication : AdoptedDatgIndex} :
    Shuns UsageError (verifyPublication run publication) :=
  .bind shuns_get fun _ => require_shuns rfl

theorem commitDatgPublication_shuns {runId : Uuid} {run : Run} {adopted : AdoptedArtifact} :
    Shuns UsageError (commitDatgPublication runId run adopted) := by
  unfold commitDatgPublication
  split
  · exact shuns_pure
  · exact .bind (require_shuns rfl) fun _ => .bind uuid4_shuns fun _ => .bind shuns_get fun _ =>
      .ite shuns_set verifyPublication_shuns

theorem adoptAgain_shuns {runId : Uuid} {run : Run} {adopted : AdoptedArtifact} :
    Shuns UsageError (adoptAgain runId run adopted) := by
  refine .bind shuns_get fun _ => .bind (found_shuns rfl) fun _ => .bind (require_shuns rfl) fun _ =>
    .bind ?_ fun _ => shuns_pure
  unfold verifyExistingDatgPublication
  split
  · exact shuns_pure
  · exact verifyPublication_shuns

theorem cancelLocked_shuns {runId : Uuid} {run : Run} {now : Instant} :
    Shuns UsageError (cancelLocked runId run now) := by
  refine .bind (.ite shuns_pure (.bind ensureTransition_shuns fun _ => .bind setRun_shuns fun _ =>
    .bind addRunEvent_shuns fun _ => shuns_pure)) fun observed => ?_
  exact .ite (.bind ensureTransition_shuns fun _ => .bind setRun_shuns fun _ =>
    .bind addRunEvent_shuns fun _ => shuns_pure) (.bind setRun_shuns fun _ => shuns_pure)

end DurableRunStore

namespace RunManifestService

theorem runRow_shuns {org runId : Uuid} : Shuns UsageError (runRow org runId) :=
  .bind shuns_get fun _ => .bind (found_shuns rfl) fun _ => .bind (require_shuns rfl) fun _ => shuns_pure

theorem verifyReference_shuns {run : Run} {reference : RunWorkflowReference} :
    Shuns UsageError (verifyReference run reference) := require_shuns rfl

theorem validateInputArtifacts_shuns {db : Db} {run : Run} {inputs : List InputDigest} :
    Shuns UsageError (validateInputArtifacts db run inputs) := require_shuns rfl

theorem activeArtifact_shuns {db : Db} {org id : Uuid} {kind : ArtifactKind} :
    Shuns UsageError (activeArtifact db org id kind) := found_shuns rfl

theorem recordExecution_shuns {reference : RunWorkflowReference} {facts : TrustedExecutionFacts}
    {inputs : List InputDigest} : Shuns UsageError (recordExecution reference facts inputs) := by
  refine .bind runRow_shuns fun _ => .bind verifyReference_shuns fun _ => .bind (require_shuns rfl) fun _ =>
    .bind shuns_get fun db => .bind validateInputArtifacts_shuns fun _ => ?_
  split
  · exact .bind shuns_set fun _ => shuns_pure
  · exact .bind (require_shuns rfl) fun _ => shuns_pure

theorem commitReplayComparison_shuns {runId : Uuid} {run : Run} {manifestArtifactId : Uuid}
    {expected : Option RunManifest} {comparison : List (String × AuditValue)} {now : Instant} :
    Shuns UsageError
      (commitReplayComparison runId run manifestArtifactId expected comparison now) := by
  refine .bind shuns_get fun db => ?_
  split
  · exact shuns_pure
  · split
    · exact require_shuns rfl
    · exact .bind (require_shuns rfl) fun _ => .bind shuns_set fun _ => append_shuns

theorem manifestRow_shuns {policy : Option QuotaPolicyValues} {runId : Uuid} {run : Run}
    {manifest : RunManifest} {retentionUntil now : Instant} :
    Shuns UsageError (manifestRow policy runId run manifest retentionUntil now) := by
  refine .bind shuns_get fun db => ?_
  dsimp only
  split
  · exact .bind (require_shuns rfl) fun _ => shuns_pure
  · exact .bind uuid4_shuns fun _ => .bind insertArtifact_shuns fun _ =>
      .bind consumeArtifact_shuns fun _ => .bind append_shuns fun _ => shuns_pure

theorem finalizeManifest_shuns {policy : Option QuotaPolicyValues}
    {reference : RunWorkflowReference} {factsSha256 : Sha256} {outputs : List (Uuid × Artifact)}
    {manifest : RunManifest} {expected : Option RunManifest}
    {comparison : List (String × AuditValue)} {retentionUntil now : Instant} :
    Shuns UsageError (finalizeManifest policy reference factsSha256 outputs manifest expected
      comparison retentionUntil now) := by
  refine .bind runRow_shuns fun _ => .bind verifyReference_shuns fun _ => .bind (require_shuns rfl) fun _ =>
    .bind shuns_get fun db => .bind (found_shuns rfl) fun recorded => ?_
  split
  · exact .bind activeArtifact_shuns fun _ => shuns_pure
  · exact .bind validateInputArtifacts_shuns fun _ => .bind (require_shuns rfl) fun _ =>
      .bind manifestRow_shuns fun _ => .bind shuns_modify fun _ =>
        .bind commitReplayComparison_shuns fun _ => shuns_pure

theorem completeReplay_shuns {reference : RunWorkflowReference} {manifestArtifactId : Uuid}
    {expected : Option RunManifest} {comparison : List (String × AuditValue)} {now : Instant} :
    Shuns UsageError (completeReplay reference manifestArtifactId expected comparison now) :=
  .bind runRow_shuns fun _ => commitReplayComparison_shuns

theorem sourceManifestRows_shuns {org projectId sourceRunId : Uuid} :
    Shuns UsageError (sourceManifestRows org projectId sourceRunId) :=
  .bind shuns_get fun _ => .bind (found_shuns rfl) fun _ => .bind (found_shuns rfl) fun _ =>
    .bind (found_shuns rfl) fun _ => .bind (found_shuns rfl) fun _ => .bind activeArtifact_shuns fun _ =>
      .bind (require_shuns rfl) fun _ => shuns_pure

theorem replayNew_shuns {policy : Option QuotaPolicyValues} {s : NewReplay} {userId : Uuid}
    {source : ReplaySource} {now : Instant} :
    Shuns UsageError (replayNew policy s userId source now) :=
  .bind (JobControlPlane.insertRun_shuns rfl) fun _ =>
    .bind reserveRun_shuns fun _ => .bind shuns_modify fun _ => .bind addRunEvent_shuns fun _ =>
      .bind addOutboxMessage_shuns fun _ => .bind append_shuns fun _ => shuns_pure

theorem insertReplay_shuns {admits : RunKind → RunSpec → Bool} {policy : Option QuotaPolicyValues}
    {s : NewReplay} {now : Instant} : Shuns UsageError (insertReplay admits policy s now) := by
  refine .bind (.bind shuns_get fun _ => .bind (found_shuns rfl) fun _ => .bind (require_shuns rfl) fun _ =>
    shuns_pure) fun _ => .bind sourceManifestRows_shuns fun _ => .bind (require_shuns rfl) fun _ =>
      .bind shuns_get fun db => ?_
  split
  · exact .bind (.bind shuns_get fun _ => .bind (found_shuns rfl) fun _ => .bind (require_shuns rfl) fun _ =>
      shuns_pure) fun _ => shuns_pure
  · exact .bind (require_shuns rfl) fun _ => replayNew_shuns

end RunManifestService

namespace ArtifactService

theorem authorizeScope_shuns {who : ArtifactActor} {projectId : Uuid} {runId : Option Uuid}
    {forWrite : Bool} {operation : String} :
    Shuns UsageError (authorizeScope who projectId runId forWrite operation) :=
  .bind shuns_get fun _ => .bind (found_shuns rfl) fun _ => .bind (require_shuns rfl) fun _ =>
    .bind (require_shuns rfl) fun _ => .bind (require_shuns rfl) fun _ => shuns_pure

theorem insertUpload_shuns {policy : Option QuotaPolicyValues} {who : ArtifactActor} {userId : Uuid}
    {upload : Upload} {retentionUntil now : Instant} :
    Shuns UsageError (insertUpload policy who userId upload retentionUntil now) :=
  .bind authorizeScope_shuns fun _ => .bind consumeArtifact_shuns fun _ =>
    .bind uuid4_shuns fun _ => .bind insertArtifact_shuns fun _ => .bind append_shuns fun _ =>
      shuns_pure

theorem tombstone_shuns {who : ArtifactActor} {projectId artifactId : Uuid} {now : Instant} :
    Shuns UsageError (tombstone who projectId artifactId now) :=
  .bind authorizeScope_shuns fun _ => .bind shuns_get fun _ => .bind (found_shuns rfl) fun _ =>
    .bind shuns_set fun _ => append_shuns

end ArtifactService

namespace ProjectWorkspace

theorem actor_shuns {who : WorkspaceActor} : Shuns UsageError (actor who) :=
  .bind shuns_get fun _ => .bind (found_shuns rfl) fun _ => shuns_pure

theorem createProject_shuns {who : WorkspaceActor} {name : String} {now : Instant} :
    Shuns UsageError (createProject who name now) :=
  .bind actor_shuns fun _ => .bind (require_shuns rfl) fun _ => .bind uuid4_shuns fun _ =>
    .bind shuns_get fun _ => .bind (require_shuns rfl) fun _ => .bind shuns_set fun _ =>
      .bind append_shuns fun _ => shuns_pure

theorem insertVersion_shuns {version : CorpusVersion} {texts : List String} {operation : String} :
    Shuns UsageError (insertVersion version texts operation) :=
  .bind uuid4_shuns fun _ => .bind shuns_get fun _ => .bind (require_shuns rfl) fun _ =>
    .bind shuns_set fun _ => shuns_pure

theorem createCorpus_shuns {policy : Option QuotaPolicyValues} {who : WorkspaceActor}
    {projectId : Uuid} {name : String} {prepared : PreparedCorpus} {now : Instant} :
    Shuns UsageError (createCorpus policy who projectId name prepared now) :=
  .bind actor_shuns fun _ => .bind (require_shuns rfl) fun _ => .bind consumeCorpusSentences_shuns fun _ =>
    .bind shuns_get fun _ => .bind (require_shuns rfl) fun _ => .bind (require_shuns rfl) fun _ =>
      .bind uuid4_shuns fun _ => .bind shuns_modify fun _ => .bind insertVersion_shuns fun _ =>
        .bind append_shuns fun _ => shuns_pure

theorem createVersion_shuns {policy : Option QuotaPolicyValues} {who : WorkspaceActor}
    {projectId corpusId : Uuid} {prepared : PreparedCorpus} {operation : String} {now : Instant} :
    Shuns UsageError (createVersion policy who projectId corpusId prepared operation now) :=
  .bind actor_shuns fun _ => .bind (require_shuns rfl) fun _ => .bind consumeCorpusSentences_shuns fun _ =>
    .bind shuns_get fun _ => .bind (require_shuns rfl) fun _ => .bind (require_shuns rfl) fun _ =>
      .bind (found_shuns rfl) fun _ => .bind insertVersion_shuns fun _ => .bind append_shuns fun _ =>
        shuns_pure

end ProjectWorkspace

theorem ProjectDeletion.request_shuns {who : WorkspaceActor} {projectId : Uuid}
    {confirmation : String} {retention : Duration} {now : Instant} :
    Shuns UsageError (request who projectId confirmation retention now) := by
  refine .bind ProjectWorkspace.actor_shuns fun _ => .bind (require_shuns rfl) fun _ =>
    .bind (require_shuns rfl) fun _ => .bind shuns_get fun _ => .bind (found_shuns rfl) fun project =>
      .bind (require_shuns rfl) fun _ => ?_
  split
  · exact shuns_pure
  · exact .bind shuns_get fun _ => .bind (require_shuns rfl) fun _ => .bind shuns_set fun _ => append_shuns

theorem replacePolicy_shuns {current : Option QuotaPolicyValues} {org : Uuid}
    {policy : QuotaPolicyValues} {requestId : Option String} {now : Instant} :
    Shuns UsageError (replacePolicy current org policy requestId now) :=
  .bind locked_shuns fun _ => .bind (require_shuns rfl) fun _ => .bind shuns_get fun _ =>
    .bind (require_shuns rfl) fun _ => .bind (found_shuns rfl) fun _ => .bind shuns_set fun _ => append_shuns

theorem ensurePlatformRows_shuns {org : Uuid} : Shuns UsageError (ensurePlatformRows org) :=
  .bind shuns_get fun _ => shuns_set

namespace TransactionalOutbox

theorem claimAll_shuns {workerId : String} {now expired : Instant} (ids : List Uuid) :
    Shuns UsageError (claimAll workerId now expired ids) := by
  induction ids with
  | nil => exact shuns_pure
  | cons id ids ih =>
    refine .bind (.bind shuns_get fun db => ?_) fun _ => .bind ih fun _ => shuns_pure
    split
    · exact shuns_pure
    · exact .bind shuns_set fun _ => shuns_pure

theorem ownClaim_shuns {id : Uuid} {workerId operation : String} :
    Shuns UsageError (ownClaim id workerId operation) := .bind shuns_get fun _ => found_shuns rfl

end TransactionalOutbox

end CorpusKit
