import CorpusKit.Refinement.Tenancy
import CorpusKit.System.Obligations

/-! # Tenants

A call for an organization writes no row of another one, whoever else is at work.
What belongs to an organization can only be changed by its own calls, by
maintenance and by the dispatcher. -/

namespace CorpusKit

open Transaction Program Interleaving

variable {dep : Deployment} {org : Uuid} {α β : Type} {memberships : List Membership}

/-! ## Whose transaction it is -/

/-- The organization a transaction is for. Maintenance and the dispatcher work for all. -/
def Action.organization? {β : Type} : Action β → Option Uuid
  | .submit _ s _ => some s.organizationId
  | .replay _ s _ => some s.who.organizationId
  | .cancel who _ _ _ _ => some who.organizationId
  | .readFor reference _ => some reference.organizationId
  | .transition reference _ _ _ => some reference.organizationId
  | .progress reference _ _ => some reference.organizationId
  | .adopt _ reference _ _ => some reference.organizationId
  | .replacePolicy _ organizationId _ _ _ => some organizationId
  | .provision organizationId => some organizationId
  | .upload _ who _ _ _ _ => some who.organizationId
  | .tombstone who _ _ _ => some who.organizationId
  | .recordExecution reference _ _ => some reference.organizationId
  | .finalize _ reference _ _ _ _ _ _ _ => some reference.organizationId
  | .completeReplay reference _ _ _ _ => some reference.organizationId
  | .createProject who _ _ => some who.organizationId
  | .createCorpus _ who _ _ _ _ => some who.organizationId
  | .createVersion _ who _ _ _ _ _ => some who.organizationId
  | .requestDeletion who _ _ _ _ => some who.organizationId
  | .expire .. => none
  | .markPurged .. => none
  | .purgeProject .. => none
  | .claim .. => none
  | .markPublished .. => none
  | .releaseFailed .. => none

/-- The organization a call is for. -/
def ServiceCall.organization? : ServiceCall → Option Uuid
  | .submit who _ _ => some who.organizationId
  | .retry who _ _ => some who.organizationId
  | .submitReplay who _ _ _ _ => some who.organizationId
  | .requestCancellation who _ => some who.organizationId
  | .prepare reference => some reference.organizationId
  | .beginExecution reference => some reference.organizationId
  | .recordExecution reference _ _ => some reference.organizationId
  | .recordProgress reference _ _ => some reference.organizationId
  | .complete reference _ => some reference.organizationId
  | .fail reference _ => some reference.organizationId
  | .acknowledgeCancellation reference => some reference.organizationId
  | .adopt reference _ => some reference.organizationId
  | .commitAdoptedResult reference _ => some reference.organizationId
  | .finalize reference _ => some reference.organizationId
  | .updatePolicy organizationId _ _ => some organizationId
  | .ensureTenant organizationId => some organizationId
  | .createArtifact who _ => some who.organizationId
  | .tombstone who _ _ => some who.organizationId
  | .createProject who _ => some who.organizationId
  | .createCorpus who _ _ _ => some who.organizationId
  | .createVersion who _ _ _ _ => some who.organizationId
  | .requestDeletion who _ _ => some who.organizationId
  | .expireStale _ => none
  | .purgeArtifacts _ => none
  | .reconcileOrphans .. => none
  | .purgeProjects _ => none
  | .dispatchBatch .. => none

theorem Action.confines {action : Action β} {b : β} {db db' : Db} (hd : db.Drawn)
    (horg : action.organization? = some org) (h : Returns (action.body dep) db b db') :
    db.Within org db' := by
  cases action <;> cases horg
  case submit => exact (JobControlPlane.insertSubmission_serves hd h).within
  case replay => exact (RunManifestService.insertReplay_serves hd h).within
  case cancel => exact (JobControlPlane.commitCancellation_serves hd h).within
  case readFor =>
    obtain ⟨-, -, -, rfl⟩ := DurableRunStore.readRun_returns h
    exact .refl _ _
  case transition => exact (DurableRunStore.commitTransition_serves hd h).within
  case progress => exact (DurableRunStore.commitProgress_serves hd h).within
  case adopt => exact (DurableRunStore.commitAdoptedResult_serves hd h).within
  case replacePolicy => exact (replacePolicy_serves hd h).within
  case provision => exact (ensurePlatformRows_serves hd h).within
  case upload => exact (ArtifactService.insertUpload_serves hd h).within
  case tombstone => exact (ArtifactService.tombstone_serves hd h).within
  case recordExecution => exact (RunManifestService.recordExecution_serves hd h).within
  case finalize => exact (RunManifestService.finalizeManifest_serves hd h).within
  case completeReplay => exact (RunManifestService.completeReplay_serves hd h).within
  case createProject => exact (ProjectWorkspace.createProject_serves hd h).within
  case createCorpus => exact (ProjectWorkspace.createCorpus_serves hd h).within
  case createVersion => exact (ProjectWorkspace.createVersion_serves hd h).within
  case requestDeletion => exact (ProjectDeletion.request_serves hd h).within

/-! ## Which transactions a call runs -/

/-- Every transaction that writes is for the organization. -/
def For (org : Uuid) (β : Type) : Op β → Prop
  | .query _ => True
  | .write action => action.organization? = some org
  | .request _ => True

section For

theorem look_for (f : World → β) : (look f).All (For org) := .perform trivial

theorem read_for (body : DbTx β) : (read body).All (For org) := .perform trivial

theorem ask_for (request : Request β) : (ask request).All (For org) := .perform trivial

theorem write_for {action : Action β} (h : action.organization? = some org) :
    (write action).All (For org) := .perform h

theorem pure_for (a : α) : (pure a : Service α).All (For org) := trivial

theorem throw_for (e : Error) : (throw e : Service α).All (For org) := trivial

theorem store_for (key : StorageKey) (sha256 : Sha256) (sizeBytes : Nat)
    (mediaType operation : String) :
    (store key sha256 sizeBytes mediaType operation).All (For org) :=
  (ask_for _).handle fun e => by split <;> trivial

theorem ite_for {p : Prop} [Decidable p] {m n : Service α} (hm : m.All (For org))
    (hn : n.All (For org)) : (if p then m else n).All (For org) := by
  split
  · exact hm
  · exact hn

/-- A transaction that is only given the time. -/
theorem timed_for {action : Instant → Action α} (h : ∀ now, (action now).organization? = some org) :
    (clock >>= fun now => write (action now)).All (For org) :=
  (look_for _).bind fun now => write_for (h now)

end For

namespace DurableRunStore

variable (reference : RunWorkflowReference)

theorem state_for : (state reference).All (For org) := (read_for _).bind fun _ => pure_for _

theorem transition_for (t : Transition) :
    (transition reference t).All (For reference.organizationId) := by
  unfold transition
  generalize maxCasAttempts = attempts
  induction attempts with
  | zero => exact throw_for _
  | succ attempts ih =>
    refine (write_for rfl).bind fun run => ite_for (pure_for _) (ite_for (pure_for _) ?_)
    refine ite_for ((look_for _).bind fun now => ?_) (pure_for _)
    exact (write_for rfl).bind fun changed => ite_for (pure_for _) ih

theorem acknowledgeCancellation_for :
    (acknowledgeCancellation reference).All (For reference.organizationId) := by
  refine Prog.All.bind (p := requestCancellation reference) ?_ fun s =>
    ite_for (transition_for reference _) (pure_for _)
  exact (state_for reference).bind fun s => ite_for (transition_for reference _) (pure_for _)

theorem prepare_for : (prepare reference).All (For reference.organizationId) := by
  refine (state_for reference).bind fun s => ?_
  cases s with
  | queued => exact transition_for reference _
  | cancelling => exact acknowledgeCancellation_for reference
  | draft => exact throw_for _
  | provisioning => exact pure_for _
  | running => exact pure_for _
  | cancelled => exact pure_for _
  | succeeded => exact pure_for _
  | failed => exact pure_for _

theorem beginExecution_for : (beginExecution reference).All (For reference.organizationId) := by
  refine (state_for reference).bind fun s => ?_
  refine Prog.All.bind (p := leaveQueue reference s) (ite_for (prepare_for reference) (pure_for _))
    fun prepared => ?_
  refine Prog.All.bind (p := start reference prepared)
    (ite_for (transition_for reference _) (pure_for _)) fun started => ?_
  exact ite_for ((acknowledgeCancellation_for reference).bind fun _ => pure_for _) (pure_for _)

/-- `complete` and `fail`: a run that is not over ends, unless it is asked to cancel. -/
theorem ending_for (t : Transition) :
    (state reference >>= fun s =>
      if s = .cancelling then acknowledgeCancellation reference
      else if s = .cancelled ∨ s = .succeeded ∨ s = .failed then pure s
      else transition reference t).All (For reference.organizationId) :=
  (state_for reference).bind fun _ =>
    ite_for (acknowledgeCancellation_for reference) (ite_for (pure_for _) (transition_for reference t))

theorem recordProgress_for (activityAttempt : Nat) (progress : DurableRunProgress) :
    (recordProgress reference activityAttempt progress).All (For reference.organizationId) := by
  refine Prog.All.bind .require fun _ => ?_
  generalize maxCasAttempts = attempts
  induction attempts with
  | zero => exact throw_for _
  | succ attempts ih =>
    refine (read_for _).bind fun run => ite_for ((read_for _).bind fun latest => ?_) (pure_for _)
    refine Prog.All.bind .found fun stale => ite_for (pure_for _) ?_
    exact (write_for rfl).bind fun changed => ite_for (pure_for _) ih

theorem commitAdopted_for (adopted : AdoptedArtifact) :
    (commitAdopted reference adopted).All (For reference.organizationId) :=
  (look_for _).bind fun _ => timed_for fun _ => rfl

end DurableRunStore

open DurableRunStore in
theorem ArtifactAdoptionService.adopt_for (reference : RunWorkflowReference)
    (claim : StagedResult) : (adopt dep reference claim).All (For reference.organizationId) := by
  have hrequested : (cancellationRequested reference).All (For reference.organizationId) :=
    (state_for reference).bind fun _ => pure_for _
  have hacknowledge : (acknowledge reference).All (For reference.organizationId) :=
    (acknowledgeCancellation_for reference).bind fun _ => pure_for _
  refine (read_for _).bind fun record => ?_
  refine Prog.All.bind (p := isAsked reference record) (ite_for (pure_for _) hrequested)
    fun asked => ite_for hacknowledge ?_
  refine hrequested.bind fun asked => ite_for hacknowledge ?_
  exact (ask_for _).bind fun _ => (look_for _).bind fun now => commitAdopted_for reference _

namespace JobControlPlane

theorem submitInSession_for {s : NewSubmission} (h : s.organizationId = org) :
    (submitInSession dep s).All (For org) := by
  subst h
  refine (read_for _).bind fun existing => ?_
  cases existing with
  | some result => exact pure_for _
  | none =>
    refine Prog.All.bind .require fun _ => (read_for _).bind fun _ => (read_for _).bind fun _ => ?_
    exact (read_for _).bind fun _ => (look_for _).bind fun _ => timed_for fun _ => rfl

theorem submit_for (who : JobActor) (submission : RunSubmission) (key : String) :
    (submit dep who submission key).All (For who.organizationId) := by
  refine Prog.All.bind .require fun _ => Prog.All.bind .found fun spec => ?_
  refine (read_for _).bind fun role => Prog.All.bind .require fun _ => ?_
  exact (read_for _).bind fun _ => submitInSession_for rfl

theorem retry_for (who : JobActor) (runId : Uuid) (key : String) :
    (retry dep who runId key).All (For who.organizationId) := by
  refine Prog.All.bind .require fun _ => (read_for _).bind fun role => Prog.All.bind .require fun _ => ?_
  exact (read_for _).bind fun source => Prog.All.bind .require fun _ => submitInSession_for rfl

theorem requestCancellation_for (who : JobActor) (runId : Uuid) :
    (requestCancellation who runId).All (For who.organizationId) := by
  refine (read_for _).bind fun role => Prog.All.bind .require fun _ => ?_
  generalize maxCancellationAttempts = attempts
  induction attempts with
  | zero => exact throw_for _
  | succ attempts ih =>
    refine (read_for _).bind fun run => ite_for ((read_for _).bind fun _ => pure_for _) ?_
    refine (look_for _).bind fun now => (write_for rfl).bind fun snapshot => ?_
    cases snapshot with
    | some snapshot => exact pure_for _
    | none => exact ih

end JobControlPlane

namespace RunManifestService

theorem submitReplay_for (who : JobActor) (projectId sourceRunId : Uuid) (key : String)
    (stored : RunManifest) :
    (submitReplay who projectId sourceRunId key stored).All (For who.organizationId) := by
  refine Prog.All.bind .require fun _ => (read_for _).bind fun _ => (read_for _).bind fun source => ?_
  refine Prog.All.bind (p := loadManifest _ _ _) ?_ fun expected =>
    (look_for _).bind fun _ => timed_for fun _ => rfl
  refine Prog.All.bind .require fun _ => (look_for _).bind fun object => ?_
  exact Prog.All.bind .found fun object => Prog.All.bind .require fun _ => pure_for _

theorem finalize_for (reference : RunWorkflowReference) (observed : Observation) :
    (finalize dep reference observed).All (For reference.organizationId) := by
  refine (read_for _).bind fun build => ?_
  cases build with
  | existing artifactId artifact =>
    exact (look_for _).bind fun _ => (write_for rfl).bind fun _ => pure_for _
  | fresh run factsSha256 outputs =>
    exact (store_for _ _ _ _ _).bind fun _ => (look_for _).bind fun _ => timed_for fun _ => rfl

end RunManifestService

theorem ArtifactService.create_for (who : ArtifactActor) (upload : Upload) :
    (create dep who upload).All (For who.organizationId) := by
  refine Prog.All.bind .require fun _ => (read_for _).bind fun userId => ?_
  refine (read_for _).bind fun existing => Prog.All.bind .require fun _ => Prog.All.bind ?_ fun object => ?_
  · cases existing with
    | none => exact pure_for _
    | some row => exact .perform trivial
  · split
    · exact pure_for _
    · refine (store_for _ _ _ _ _).bind fun _ => (look_for _).bind fun created => ?_
      refine (look_for _).bind fun policy => (look_for _).bind fun now => ?_
      refine Prog.All.handle ((write_for rfl).bind fun _ => pure_for _) fun e => ?_
      split
      · refine (read_for _).bind fun raced => ?_
        split
        · exact ite_for (pure_for _) (throw_for _)
        · exact throw_for _
      · exact throw_for _

theorem ProjectWorkspace.prepare_for (request : CorpusImportRequest) :
    (prepare dep request).All (For org) := by
  unfold prepare
  split
  · exact pure_for _
  · exact throw_for _

theorem ServiceCall.prog_for (c : ServiceCall) (h : c.organization? = some org) :
    (c.prog dep).All (For org) := by
  cases c <;> cases h
  case submit who submission key => exact JobControlPlane.submit_for who submission key
  case retry who runId key => exact JobControlPlane.retry_for who runId key
  case submitReplay who projectId sourceRunId key stored =>
    exact RunManifestService.submitReplay_for who projectId sourceRunId key stored
  case requestCancellation who runId => exact JobControlPlane.requestCancellation_for who runId
  case prepare reference => exact DurableRunStore.prepare_for reference
  case beginExecution reference => exact DurableRunStore.beginExecution_for reference
  case recordExecution reference facts inputs => exact write_for rfl
  case recordProgress reference attempt progress =>
    exact DurableRunStore.recordProgress_for reference attempt progress
  case complete reference summary => exact DurableRunStore.ending_for reference _
  case fail reference code => exact DurableRunStore.ending_for reference _
  case acknowledgeCancellation reference =>
    exact DurableRunStore.acknowledgeCancellation_for reference
  case adopt reference claim => exact ArtifactAdoptionService.adopt_for reference claim
  case commitAdoptedResult reference adopted =>
    exact DurableRunStore.commitAdopted_for reference adopted
  case finalize reference observed => exact RunManifestService.finalize_for reference observed
  case updatePolicy policy requestId =>
    exact (look_for _).bind fun _ => timed_for fun _ => rfl
  case ensureTenant => exact write_for rfl
  case createArtifact who upload => exact ArtifactService.create_for who upload
  case tombstone who projectId artifactId => exact timed_for fun _ => rfl
  case createProject who name => exact timed_for fun _ => rfl
  case createCorpus who projectId name request =>
    exact (ProjectWorkspace.prepare_for request).bind fun _ => (look_for _).bind fun _ =>
      timed_for fun _ => rfl
  case createVersion who projectId corpusId request operation =>
    exact (ProjectWorkspace.prepare_for request).bind fun _ => (look_for _).bind fun _ =>
      timed_for fun _ => rfl
  case requestDeletion who projectId confirmation => exact timed_for fun _ => rfl

/-! ## Isolation -/

/-- Every transaction of the call is for the call's organization, if it has one. -/
def ServiceCall.Scoped (c : ServiceCall) (β : Type) (o : Op β) : Prop :=
  ∀ org, c.organization? = some org → For org β o

theorem ServiceCall.prog_scoped (c : ServiceCall) : (c.prog dep).All c.Scoped := by
  cases h : c.organization? with
  | none =>
    have hnone : ∀ p : Service c.Value, p.All fun β (_ : Op β) => True := fun p => by
      induction p with
      | ret a => trivial
      | raise e => trivial
      | op o next ih => exact ⟨trivial, ih⟩
    exact (hnone _).mono fun _ org horg => nomatch h.symm.trans horg
  | some org =>
    refine (c.prog_for h).mono fun hfor org' horg' => ?_
    obtain rfl := Option.some.inj (h.symm.trans horg')
    exact hfor

/-- One operation for the organization. -/
theorem Op.confines {o : Op β} {w w' : World} {b : β} (hi : w.Inv dep) (hfor : For org β o)
    (h : Returns (o.exec dep) w b w') : w.db.Within org w'.db := by
  cases o with
  | query q =>
    obtain ⟨-, rfl⟩ := query_returns h
    exact .refl _ _
  | write action =>
    obtain ⟨db, hret, rfl⟩ := transact_returns h
    exact action.confines hi.db.drawn hfor hret
  | request r =>
    rw [Request.db_eq h]
    exact .refl _ _

/-- **Tenant isolation.** Whatever other calls do in between, an operation of a call for one
organization leaves every row of every other organization as it was. -/
theorem tenant_isolation {cfg : ServiceConfig dep}
    (h : Reachable (M := system dep (services dep)) free (World.initial memberships) cfg)
    {j : Job (system dep (services dep))} (hj : j ∈ cfg.jobs)
    {e : Event (system dep (services dep))} (he : e ∈ j.history)
    (horg : j.call.organization? = some org) : e.before.db.Within org e.after.db := by
  obtain ⟨hi, -, hafter⟩ := events_owed h j hj e he
  have hscoped := (confined_reachable (M := system dep (services dep))
    (fun c => c.prog_scoped) h j hj).2 e he
  rw [hafter]
  cases hc : commit (e.op.exec dep) e.before with
  | mk r w =>
    cases r with
    | error x =>
      rw [(commit_error hc).1]
      exact .refl _ _
    | ok b => exact e.op.confines hi (hscoped org horg) (commit_ok hc)

/-- One owner of each of two organizations. -/
def twoTenants : List Membership := [⟨1, "owner", 2, .owner⟩, ⟨2, "other", 3, .owner⟩]

def twoTenantsRun (schedule : List (Move Small)) : Option (Config Small) :=
  run (Config.init (M := Small) (World.initial twoTenants)) schedule

/-- With the first tenant's project 0 in the database, call 3 asks for its deletion as
the second tenant's owner. -/
def deletesForeign : List (Move Small) :=
  smallProject ++ [.start (ServiceCall.ensureTenant 2), .act 2,
    .start (ServiceCall.requestDeletion ⟨"other", 2, none⟩ 0 "DELETE project"), .act 3, .act 3]

def isDeletionRequest : (β : Type) → Op β → Bool
  | _, .write (.requestDeletion ..) => true
  | _, _ => false

def asksForeignDeletion (cfg : Config Small) : Bool :=
  cfg.jobs[3]?.any fun j => j.history.head?.any fun e =>
    (match j.call with
      | .requestDeletion who projectId _ => who.organizationId == 2 && projectId == 0
      | _ => false) &&
    isDeletionRequest _ e.op &&
    (e.before.db.projects.lookup 0).any fun project => project.organizationId == 1

def askedForeignDeletion : Sampled (twoTenantsRun deletesForeign) asksForeignDeletion :=
  .of (by decide +kernel)

theorem tenant_isolation_second :
    ∃ cfg, twoTenantsRun deletesForeign = some cfg ∧ ∃ j ∈ cfg.jobs, ∃ e ∈ j.history,
      (∃ who confirmation, j.call = .requestDeletion who 0 confirmation ∧ who.organizationId = 2) ∧
        isDeletionRequest _ e.op = true ∧
        (∃ project, e.before.db.projects.lookup 0 = some project ∧ project.organizationId = 1) ∧
        e.before.db.Within 2 e.after.db := by
  obtain ⟨cfg, hcfg, hchecked⟩ : ∃ cfg, twoTenantsRun deletesForeign = some cfg ∧
      asksForeignDeletion cfg = true := ⟨_, askedForeignDeletion.run, askedForeignDeletion.checked⟩
  obtain ⟨j, hj, hforeign⟩ := (Option.any_eq_true _ _).mp hchecked
  obtain ⟨e, he, hforeign⟩ := (Option.any_eq_true _ _).mp hforeign
  simp only [Bool.and_eq_true] at hforeign
  obtain ⟨⟨hcall, hop⟩, hproject⟩ := hforeign
  obtain ⟨project, hproject, howner⟩ := (Option.any_eq_true _ _).mp hproject
  have hj := List.mem_of_getElem? hj
  have he := List.mem_of_head? he
  obtain ⟨who, confirmation, hcall, hwho⟩ : ∃ who confirmation,
      j.call = .requestDeletion who 0 confirmation ∧ who.organizationId = 2 := by
    split at hcall
    · next who projectId confirmation heq =>
      rw [Bool.and_eq_true, beq_iff_eq, beq_iff_eq] at hcall
      exact ⟨who, confirmation, hcall.2 ▸ heq, hcall.1⟩
    · cases hcall
  have horg : j.call.organization? = some 2 := by
    rw [hcall, ServiceCall.organization?, hwho]
  exact ⟨cfg, hcfg, j, hj, e, he, ⟨who, confirmation, hcall, hwho⟩, hop,
    ⟨project, hproject, beq_iff_eq.mp howner⟩, tenant_isolation (run_reachable hcfg) hj he horg⟩

end CorpusKit
