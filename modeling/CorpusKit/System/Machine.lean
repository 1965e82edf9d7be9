import CorpusKit.System.Programs

/-! # The system

The calls that arrive from outside, each with the program it starts, and the
machine that runs any number of them at once on one world. -/

namespace CorpusKit

open Transaction Program Interleaving

/-- A family of calls with their programs. -/
structure Calls where
  Call : Type
  Value : Call → Type
  prog : (c : Call) → Service (Value c)

/-- The machine on which these calls run. -/
abbrev system (dep : Deployment) (calls : Calls) : Machine where
  World := World
  Error := Error
  Op := Op
  exec := fun o => o.exec dep
  Call := calls.Call
  Value := calls.Value
  prog := calls.prog
  Tick := Tick
  tick := Tick.apply

inductive ServiceCall
  | submit (who : JobActor) (submission : RunSubmission) (idempotencyKey : String)
  | retry (who : JobActor) (runId : Uuid) (idempotencyKey : String)
  | submitReplay (who : JobActor) (projectId sourceRunId : Uuid) (idempotencyKey : String)
      (stored : RunManifest)
  | requestCancellation (who : JobActor) (runId : Uuid)
  | prepare (reference : RunWorkflowReference)
  | beginExecution (reference : RunWorkflowReference)
  | recordExecution (reference : RunWorkflowReference) (facts : TrustedExecutionFacts)
      (inputs : List InputDigest)
  | recordProgress (reference : RunWorkflowReference) (activityAttempt : Nat)
      (progress : DurableRunProgress)
  | complete (reference : RunWorkflowReference) (summary : ResultSummary)
  | fail (reference : RunWorkflowReference) (code : String)
  | acknowledgeCancellation (reference : RunWorkflowReference)
  | adopt (reference : RunWorkflowReference) (claim : StagedResult)
  | commitAdoptedResult (reference : RunWorkflowReference) (adopted : AdoptedArtifact)
  | finalize (reference : RunWorkflowReference) (observed : RunManifestService.Observation)
  | expireStale (limit : Nat)
  | updatePolicy (organizationId : Uuid) (policy : QuotaPolicyValues) (requestId : Option String)
  | ensureTenant (organizationId : Uuid)
  | createArtifact (who : ArtifactActor) (upload : ArtifactService.Upload)
  | tombstone (who : ArtifactActor) (projectId artifactId : Uuid)
  | purgeArtifacts (limit : Nat)
  | reconcileOrphans (cursor : Option String) (limit : Nat)
  | createProject (who : WorkspaceActor) (name : String)
  | createCorpus (who : WorkspaceActor) (projectId : Uuid) (name : String)
      (request : CorpusImportRequest)
  | createVersion (who : WorkspaceActor) (projectId corpusId : Uuid)
      (request : CorpusImportRequest) (operation : String)
  | requestDeletion (who : WorkspaceActor) (projectId : Uuid) (confirmation : String)
  | purgeProjects (limit : Nat)
  | dispatchBatch (workerId : String) (limit : Nat) (reaches : DispatchMessage → Bool)

def ServiceCall.Value : ServiceCall → Type
  | .submit .. => SubmissionResult
  | .retry .. => SubmissionResult
  | .submitReplay .. => RunManifestService.ReplayCreation
  | .requestCancellation .. => Run × OutboxState
  | .prepare _ => RunState
  | .beginExecution _ => Bool
  | .recordExecution .. => Bool
  | .recordProgress .. => Bool
  | .complete .. => RunState
  | .fail .. => RunState
  | .acknowledgeCancellation _ => RunState
  | .adopt .. => ArtifactCommit
  | .commitAdoptedResult .. => ArtifactCommit
  | .finalize .. => Uuid × Bool
  | .expireStale _ => Nat
  | .updatePolicy .. => Unit
  | .ensureTenant _ => Unit
  | .createArtifact .. => Uuid × Bool
  | .tombstone .. => Unit
  | .purgeArtifacts _ => Nat
  | .reconcileOrphans .. => Nat × Option String
  | .createProject .. => Uuid
  | .createCorpus .. => Uuid
  | .createVersion .. => Uuid
  | .requestDeletion .. => Unit
  | .purgeProjects _ => Nat
  | .dispatchBatch .. => DispatchResult

def ServiceCall.prog (dep : Deployment) : (c : ServiceCall) → Service c.Value
  | .submit who submission idempotencyKey =>
    JobControlPlane.submit dep who submission idempotencyKey
  | .retry who runId idempotencyKey => JobControlPlane.retry dep who runId idempotencyKey
  | .submitReplay who projectId sourceRunId idempotencyKey stored =>
    RunManifestService.submitReplay who projectId sourceRunId idempotencyKey stored
  | .requestCancellation who runId => JobControlPlane.requestCancellation who runId
  | .prepare reference => DurableRunStore.prepare reference
  | .beginExecution reference => DurableRunStore.beginExecution reference
  | .recordExecution reference facts inputs => write (.recordExecution reference facts inputs)
  | .recordProgress reference activityAttempt progress =>
    DurableRunStore.recordProgress reference activityAttempt progress
  | .complete reference summary => DurableRunStore.complete reference summary
  | .fail reference code => DurableRunStore.fail reference code
  | .acknowledgeCancellation reference => DurableRunStore.acknowledgeCancellation reference
  | .adopt reference claim => ArtifactAdoptionService.adopt dep reference claim
  | .commitAdoptedResult reference adopted =>
    DurableRunStore.commitAdopted reference adopted
  | .finalize reference observed => RunManifestService.finalize dep reference observed
  | .expireStale limit => QuotaManager.expireStale limit
  | .updatePolicy organizationId policy requestId => CorpusKit.updatePolicy organizationId policy requestId
  | .ensureTenant organizationId => write (.provision organizationId)
  | .createArtifact who upload => ArtifactService.create dep who upload
  | .tombstone who projectId artifactId => ArtifactService.tombstoneArtifact who projectId artifactId
  | .purgeArtifacts limit => ArtifactService.purgeDue limit
  | .reconcileOrphans cursor limit => ArtifactService.reconcileOrphans dep cursor limit
  | .createProject who name => ProjectWorkspace.openProject who name
  | .createCorpus who projectId name request =>
    ProjectWorkspace.importCorpus dep who projectId name request
  | .createVersion who projectId corpusId request operation =>
    ProjectWorkspace.importVersion dep who projectId corpusId request operation
  | .requestDeletion who projectId confirmation =>
    ProjectDeletion.requestDeletion dep who projectId confirmation
  | .purgeProjects limit => ProjectDeletion.purgeDue limit
  | .dispatchBatch workerId limit reaches =>
    TransactionalOutbox.dispatchBatch dep workerId limit reaches

/-- The services of a deployment. -/
def services (dep : Deployment) : Calls where
  Call := ServiceCall
  Value := ServiceCall.Value
  prog := ServiceCall.prog dep

end CorpusKit
