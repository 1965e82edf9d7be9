import CorpusKit.Library.Arrival
import CorpusKit.Persistence.Rows
import CorpusKit.System.Obligations

/-! # Deletion of projects

A project that waits for its deletion is at rest. Its rows go in one transaction,
which looks at the database again but not at the object store: the listing that
found nothing under the prefix came before it. -/

namespace CorpusKit

open Transaction Program Interleaving

variable {dep : Deployment} {calls : Calls}

/-! ## Projects at rest -/

/-- Nothing of the project is live. -/
structure Db.AtRest (db : Db) (projectId : Uuid) : Prop where
  runs : ∀ {id run}, db.runs.lookup id = some run → run.projectId = projectId →
    isTerminal run.state = true
  reservations : ∀ {rid r run}, db.quotaReservations.lookup rid = some r →
    db.runs.lookup r.runId = some run → run.projectId = projectId → r.state ≠ .active
  artifacts : ∀ {id a}, db.artifacts.lookup id = some a → a.projectId = projectId →
    a.state ≠ .active

theorem Db.Lifecycle.atRest {db : Db} (hi : db.Inv) (h : db.Lifecycle) {projectId : Uuid}
    (hdead : db.Deleting projectId) : db.AtRest projectId where
  runs hrun hin := h.quiet hrun (hin.symm ▸ hdead)
  reservations hr hrun hin hactive := by
    obtain ⟨owner, howner, hh⟩ := hi.reserved.owned hr
    rw [hrun] at howner
    cases howner
    have hend := h.quiet hrun (hin.symm ▸ hdead)
    rw [hh.active.mp hactive] at hend
    cases hend
  artifacts ha hin := h.retired ha (hin.symm ▸ hdead)

/-! ## The erasure -/

open ProjectDeletion

theorem hasObjects_eq_false {w : World} {org projectId : Uuid} :
    ProjectDeletion.World.hasObjects w org projectId = false ↔
      ∀ key, underProject org projectId key = true → w.objects.lookup key = none := by
  unfold ProjectDeletion.World.hasObjects
  rw [Bool.eq_false_iff, ne_eq, List.any_eq_true]
  constructor
  · intro hnone key hunder
    by_contra hkey
    exact hnone ⟨key, AList.mem_keys.mp (AList.lookup_isSome.mp
      (Option.isSome_iff_ne_none.mpr hkey)), hunder⟩
  · rintro hempty ⟨key, hkey, hunder⟩
    have hsome := AList.lookup_isSome.mpr (AList.mem_keys.mpr hkey)
    rw [hempty key hunder] at hsome
    cases hsome

/-- The sentences of a project are among those of its organization. -/
theorem corpusSentenceCount_le {db : Db} (hi : db.Inv) {org projectId : Uuid} {usage : QuotaUsage}
    (husage : db.quotaUsages.lookup org = some usage) :
    corpusSentenceCount db org projectId ≤ usage.corpusSentences := by
  have hsum : Table.total (Sentence.weight org) (db.sentences.deleteWhere fun key sentence =>
      sentence.organizationId == org && inProject db org projectId key.1) +
        corpusSentenceCount db org projectId = Table.total (Sentence.weight org) db.sentences :=
    total_sentences_erase fun {k s} hs => by
      rw [Bool.and_eq_true, beq_iff_eq] at hs
      exact hs.1
  rw [hi.ledger.usage husage]
  exact Nat.le.intro ((Nat.add_comm _ _).trans hsum)

/-- The rows of a project are gone, and it was safe to remove them. -/
structure SafeErasure (w : World) (db' : Db) (org projectId : Uuid) (cutoff : Instant) : Prop where
  due : ∃ project requestedAt retentionUntil n, w.db.projects.lookup projectId = some project ∧
    project.organizationId = org ∧
    project.lifecycle = .deletionPending requestedAt retentionUntil n ∧ retentionUntil ≤ cutoff
  past : cutoff ≤ w.now
  empty : ∀ key, underProject org projectId key = true → w.objects.lookup key = none
  purged : ∀ {id a}, w.db.artifacts.lookup id = some a → isProjectArtifact org projectId a = true →
    a.state = .deleted
  /-- What is left is everything that is not the project's. -/
  rows : ∃ usages heads events, db' = { eraseRows w.db org projectId with
    quotaUsages := usages, auditHeads := heads, auditEvents := events
    projects := w.db.projects.erase projectId }
  /-- Exactly the sentences of the project are no longer charged. -/
  released : ∀ {usage}, w.db.quotaUsages.lookup org = some usage →
    ∃ usage', db'.quotaUsages.lookup org = some usage' ∧
      usage'.corpusSentences + corpusSentenceCount w.db org projectId = usage.corpusSentences
  others : ∀ {o}, o ≠ org → db'.quotaUsages.lookup o = w.db.quotaUsages.lookup o

theorem ProjectDeletion.Erased.safe {w : World} {db' : Db} {org projectId : Uuid} {cutoff : Instant}
    (hi : w.db.Inv) (h : Erased org projectId cutoff w.db db') (hpast : cutoff ≤ w.now)
    (hempty : ProjectDeletion.World.hasObjects w org projectId = false) :
    SafeErasure w db' org projectId cutoff where
  due := by
    obtain ⟨project, requestedAt, retentionUntil, n, hproject, horg, hlifecycle, hdue, -⟩ := h.due
    exact ⟨project, requestedAt, retentionUntil, n, hproject, horg, hlifecycle, hdue⟩
  past := hpast
  empty := hasObjects_eq_false.mp hempty
  purged {id a} ha hown := by
    have hready := h.ready
    unfold databasePreconditions at hready
    simp only [Bool.and_eq_true, List.all_eq_true] at hready
    have hgone := hready.1 (id, a) (Table.mem_rows.mpr ha)
    simpa [hown] using hgone
  rows := h.rows
  released {usage} husage := by
    have hle : corpusSentenceCount w.db org projectId ≤ _ := corpusSentenceCount_le hi husage
    obtain ⟨hzero, hsame⟩ | ⟨read, hread, hwrite⟩ := h.usages
    · exact ⟨usage, by rw [hsame]; exact husage, by rw [hzero, Nat.add_zero]⟩
    · rw [husage] at hread
      cases hread
      exact ⟨_, by rw [hwrite]; exact AList.lookup_insert _, Nat.sub_add_cancel hle⟩
  others {o} ho := by
    obtain ⟨-, hsame⟩ | ⟨read, -, hwrite⟩ := h.usages
    · rw [hsame]
    · rw [hwrite]
      exact AList.lookup_insert_ne ho

/-- A purge that does not answer `true` leaves everything as it was. -/
theorem purge_fails (org projectId : Uuid) (cutoff : Instant) (w : World)
    (h : (commit ((Op.write (.purgeProject org projectId cutoff)).exec dep) w).1.toOption ≠ some true) :
    (commit ((Op.write (.purgeProject org projectId cutoff)).exec dep) w).2 = w := by
  cases hc : commit ((Op.write (.purgeProject org projectId cutoff)).exec dep) w with
  | mk r w' =>
    rw [hc] at h
    cases r with
    | error e => exact (commit_error hc).1
    | ok b =>
      obtain ⟨db, hret, rfl⟩ := transact_returns (commit_ok hc)
      have hpurge : Changes { erases := true } w.db db ∧ _ := purge_changes rfl hret
      obtain ⟨-, ⟨-, hsame⟩ | ⟨rfl, -⟩⟩ := hpurge
      · rw [← hsame]
      · exact absurd rfl h

/-! ## Who erases -/

/-- The operation does not erase a project. -/
def NotErase (β : Type) (o : Op β) : Prop := o.erase? = none

/-- An erasure owes that its project is known, so it is not owed in every world. -/
theorem Owed.notErase {β : Type} {o : Op β} (h : Owed dep β o) : NotErase β o := by
  cases o with
  | query q => rfl
  | request r => rfl
  | write action =>
    cases action with
    | purgeProject org projectId cutoff => exact absurd (h (World.initial [])).2 (Nat.not_lt_zero _)
    | _ => rfl

section NotErase

variable {α β : Type}

theorem look_notErase (f : World → β) : (look f).All NotErase := .perform rfl

theorem read_notErase (body : DbTx β) : (read body).All NotErase := .perform rfl

theorem write_notErase {action : Action β} (h : action.erase? = none) :
    (write action).All NotErase := .perform h

theorem ask_notErase (request : Request β) : (ask request).All NotErase := .perform rfl

theorem pure_notErase (a : α) : (pure a : Service α).All NotErase := trivial

theorem throw_notErase (e : Error) : (throw e : Service α).All NotErase := trivial

theorem caught_notErase {p : Service α} (h : p.All NotErase) (fails : Error → Bool) (a : α) :
    (p.handle fun e => if fails e then pure a else throw e).All NotErase :=
  h.handle fun e => by
    split
    · exact pure_notErase _
    · exact throw_notErase _

/-- A transaction that is only given the time. -/
theorem timed_notErase {action : Instant → Action α} (h : ∀ now, (action now).erase? = none) :
    (clock >>= fun now => write (action now)).All NotErase :=
  (look_notErase _).bind fun now => write_notErase (h now)

theorem submitInSession_notErase (s : NewSubmission) :
    (JobControlPlane.submitInSession dep s).All NotErase := by
  refine (read_notErase _).bind fun existing => ?_
  cases existing with
  | some result => exact pure_notErase _
  | none =>
    refine Prog.All.bind .require fun _ => (read_notErase _).bind fun _ => ?_
    refine (read_notErase _).bind fun _ => (read_notErase _).bind fun _ => ?_
    exact (look_notErase _).bind fun _ => (look_notErase _).bind fun _ => write_notErase rfl

theorem recordProgress_notErase (reference : RunWorkflowReference) (activityAttempt : Nat)
    (progress : DurableRunProgress) :
    (DurableRunStore.recordProgress reference activityAttempt progress).All NotErase := by
  refine Prog.All.bind .require fun _ => ?_
  generalize DurableRunStore.maxCasAttempts = attempts
  induction attempts with
  | zero => exact throw_notErase _
  | succ attempts ih =>
    refine (read_notErase _).bind fun run => ?_
    split
    · refine (read_notErase _).bind fun latest => Prog.All.bind .found fun stale => ?_
      split
      · exact pure_notErase _
      · refine (write_notErase rfl).bind fun changed => ?_
        split
        · exact pure_notErase _
        · exact ih
    · exact pure_notErase _

theorem expireAll_notErase (cutoff : Instant) (stale : List (Uuid × Uuid × Uuid)) :
    (QuotaManager.expireAll cutoff stale).All NotErase := by
  induction stale with
  | nil => exact pure_notErase 0
  | cons c stale ih =>
    refine (look_notErase _).bind fun now => (write_notErase rfl).bind fun expired => ?_
    exact ih.bind fun later => pure_notErase _

theorem purgeArtifacts_notErase (cutoff : Instant) (rows : List (Uuid × Artifact)) :
    (ArtifactService.purgeAll cutoff rows).All NotErase := by
  induction rows with
  | nil => exact pure_notErase 0
  | cons row rows ih =>
    refine Prog.All.bind (caught_notErase ?_ _ _) fun purged => ih.bind fun rest => pure_notErase _
    exact (ask_notErase _).bind fun _ => (look_notErase _).bind fun now => write_notErase rfl

theorem collectAll_notErase (seen : Db) (orphanCutoff : Instant) (keys : List String) :
    (ArtifactService.collectAll seen orphanCutoff keys).All NotErase := by
  induction keys with
  | nil => exact pure_notErase 0
  | cons key keys ih =>
    refine Prog.All.bind (caught_notErase ?_ _ _) fun collected => ih.bind fun rest => pure_notErase _
    refine (look_notErase _).bind fun object => Prog.All.bind .found fun object => ?_
    split
    · exact pure_notErase _
    · exact (ask_notErase _).bind fun _ => pure_notErase _

theorem publishAll_notErase (workerId : String) (reaches : DispatchMessage → Bool)
    (messages : List DispatchMessage) :
    (TransactionalOutbox.publishAll workerId reaches messages).All NotErase := by
  induction messages with
  | nil => exact pure_notErase (0, 0)
  | cons message messages ih =>
    unfold TransactionalOutbox.publishAll
    split
    · refine (ask_notErase _).bind fun _ => (look_notErase _).bind fun now => ?_
      exact (write_notErase rfl).bind fun _ => ih.bind fun _ => pure_notErase _
    · refine (look_notErase _).bind fun now => ?_
      exact (write_notErase rfl).bind fun _ => ih.bind fun _ => pure_notErase _

end NotErase

/-! ## Erasures come after an empty listing -/

/-- Where a project is erased, no object is stored under its prefix. -/
def EmptyPrefix (β : Type) (o : Op β) (w : World) : Prop :=
  ∀ {org projectId cutoff}, o.erase? = some (org, projectId, cutoff) →
    ProjectDeletion.World.hasObjects w org projectId = false

/-- The program looks under the prefix of a project right before it erases it. -/
def Looks (dep : Deployment) (calls : Calls) {α : Type} (p : Service α) (w : World) : Prop :=
  Arrives (M := system dep calls) EmptyPrefix (fun _ _ => True) (fun _ _ => True) p w

section Looks

variable {α β : Type} {p : Service α} {w : World}

theorem looks_notErase (h : p.All NotErase) (w : World) : Looks dep calls p w := by
  refine Arrives.all (M := system dep calls)
    (h.mono fun {β o} hnone v org projectId cutoff hsome => ?_)
    (fun _ _ => trivial) (fun _ _ => trivial) w
  rw [show o.erase? = none from hnone] at hsome
  cases hsome

theorem looks_owed (h : p.All (Owed dep)) (w : World) : Looks dep calls p w :=
  looks_notErase (h.mono Owed.notErase) w

theorem Looks.bind {f : α → Service β} (hp : Looks dep calls p w)
    (hf : ∀ a u, Looks dep calls (f a) u) : Looks dep calls (p >>= f) w :=
  Arrives.bind (M := system dep calls)
    (Arrives.mono (M := system dep calls) (fun _ => hf _ _) (fun _ => trivial) hp)

theorem Looks.handle {handler : Error → Service α} (hp : Looks dep calls p w)
    (hf : ∀ e u, Looks dep calls (handler e) u) : Looks dep calls (p.handle handler) w :=
  Arrives.handle (M := system dep calls)
    (Arrives.mono (M := system dep calls) (fun _ => trivial) (fun _ => hf _ _) hp)

end Looks

theorem purgeCandidate_looks (org projectId : Uuid) (cutoff : Instant) (w : World) :
    Looks dep calls (purgeCandidate org projectId cutoff) w := by
  refine (looks_notErase (read_notErase _) w).bind fun due u => ?_
  cases due with
  | none => trivial
  | some n =>
    refine Arrives.bind (M := system dep calls) (Arrives.perform (M := system dep calls) nofun
      (fun {v stored v'} hret => ?_) fun _ => trivial)
    have hret : Returns ((Op.query fun x =>
      .ok (ProjectDeletion.World.hasObjects x org projectId)).exec dep) v stored v' := hret
    obtain ⟨hstored, rfl⟩ := query_returns hret
    cases hstored
    split
    · trivial
    · next hempty =>
      -- the listing has just found nothing, and erasing is the next step
      refine Arrives.perform (M := system dep calls) (fun herase => ?_) (fun _ => trivial)
        fun _ => trivial
      cases herase
      exact Bool.eq_false_iff.mpr hempty

theorem purgeAll_looks (cutoff : Instant) (due : List (Uuid × Uuid)) (w : World) :
    Looks dep calls (purgeAll cutoff due) w := by
  induction due generalizing w with
  | nil => trivial
  | cons c due ih =>
    refine Looks.bind (Looks.handle (purgeCandidate_looks _ _ _ w) fun e u => ?_) fun purged u => ?_
    · refine looks_notErase ?_ u
      split
      · exact pure_notErase _
      · exact throw_notErase _
    · exact (ih u).bind fun later v => looks_notErase (pure_notErase _) v

theorem ProjectDeletion.purgeDue_looks (limit : Nat) (w : World) :
    Looks dep calls (purgeDue limit) w := by
  refine (looks_notErase .require w).bind fun _ u => ?_
  refine (looks_notErase (look_notErase _) u).bind fun cutoff v => ?_
  exact (looks_notErase (read_notErase _) v).bind fun due x => purgeAll_looks _ _ x

theorem ServiceCall.looks (c : ServiceCall) (w : World) : Looks dep calls (c.prog dep) w := by
  cases c with
  | purgeProjects limit => exact ProjectDeletion.purgeDue_looks limit w
  | submit who submission key =>
    refine looks_notErase (Prog.All.bind .require fun _ => Prog.All.bind .found fun spec => ?_) w
    refine (read_notErase _).bind fun role => Prog.All.bind .require fun _ => ?_
    exact (read_notErase _).bind fun _ => submitInSession_notErase _
  | retry who runId key =>
    refine looks_notErase (Prog.All.bind .require fun _ => (read_notErase _).bind fun role => ?_) w
    refine Prog.All.bind .require fun _ => (read_notErase _).bind fun source => ?_
    exact Prog.All.bind .require fun _ => submitInSession_notErase _
  | submitReplay who projectId sourceRunId key stored =>
    exact looks_owed (RunManifestService.submitReplay_owed _ _ _ _ _) w
  | requestCancellation who runId =>
    exact looks_owed (JobControlPlane.requestCancellation_owed _ _) w
  | prepare reference =>
    exact looks_owed (DurableRunStore.prepare_owed _) w
  | beginExecution reference =>
    exact looks_owed (DurableRunStore.beginExecution_owed _) w
  | recordExecution reference facts inputs => exact looks_notErase (write_notErase rfl) w
  | recordProgress reference activityAttempt progress =>
    exact looks_notErase (recordProgress_notErase _ _ _) w
  | complete reference summary =>
    exact looks_owed (DurableRunStore.complete_owed _ _) w
  | fail reference code =>
    exact looks_owed (DurableRunStore.fail_owed _ _) w
  | acknowledgeCancellation reference =>
    exact looks_owed (DurableRunStore.acknowledgeCancellation_owed _) w
  | adopt reference claim =>
    exact looks_owed (ArtifactAdoptionService.adopt_owed _ _) w
  | commitAdoptedResult reference adopted =>
    exact looks_owed (DurableRunStore.commitAdopted_owed _ _) w
  | finalize reference observed =>
    exact looks_owed (RunManifestService.finalize_owed _ _) w
  | expireStale limit =>
    refine looks_notErase (Prog.All.bind .require fun _ => (look_notErase _).bind fun cutoff => ?_) w
    exact (look_notErase _).bind fun stale => expireAll_notErase _ _
  | updatePolicy organizationId policy requestId =>
    exact looks_notErase ((look_notErase _).bind fun current => timed_notErase fun _ => rfl) w
  | ensureTenant organizationId => exact looks_notErase (write_notErase rfl) w
  | createArtifact who upload =>
    exact looks_owed (ArtifactService.create_owed _ _) w
  | tombstone who projectId artifactId => exact looks_notErase (timed_notErase fun _ => rfl) w
  | purgeArtifacts limit =>
    refine looks_notErase ((look_notErase _).bind fun cutoff => (read_notErase _).bind fun rows => ?_) w
    exact purgeArtifacts_notErase _ _
  | reconcileOrphans cursor limit =>
    refine looks_notErase (Prog.All.bind .require fun _ => (look_notErase _).bind fun keys => ?_) w
    refine (look_notErase _).bind fun page => (look_notErase _).bind fun now => ?_
    exact (collectAll_notErase _ _ _).bind fun _ => pure_notErase _
  | createProject who name => exact looks_notErase (timed_notErase fun _ => rfl) w
  | createCorpus who projectId name request =>
    exact looks_owed (ProjectWorkspace.importCorpus_owed _ _ _ _) w
  | createVersion who projectId corpusId request operation =>
    exact looks_owed (ProjectWorkspace.importVersion_owed _ _ _ _ _) w
  | requestDeletion who projectId confirmation => exact looks_notErase (timed_notErase fun _ => rfl) w
  | dispatchBatch workerId limit reaches =>
    refine (looks_owed (TransactionalOutbox.claim_owed _ _ _) w).bind fun messages u => ?_
    exact looks_notErase ((publishAll_notErase _ _ _).bind fun _ => pure_notErase _) u

/-! ## The law -/

/-- The project a job is about to erase: it has found its prefix empty. -/
def erasing (k : Job (system dep (services dep))) : Option (Uuid × Uuid) :=
  match k.rest with
  | some (.op o _) => (Op.erase? o).map fun e => (e.1, e.2.1)
  | _ => none

/-- Nobody stores an object of a project that is about to be erased. -/
def Undisturbed (dep : Deployment) : Guard (system dep (services dep)) := fun cfg _ _ o =>
  ∀ key ∈ Op.put? o, ∀ k ∈ cfg.jobs, ∀ e ∈ erasing k, underProject e.1 e.2 key = false

section Law

variable {memberships : List Membership} {cfg : ServiceConfig dep}

/-- What the listing saw still holds when the rows are erased. -/
theorem erasing_empty {G : Guard (system dep (services dep))}
    (hsub : ∀ {cfg j β} {o : Op β}, G cfg j β o → Undisturbed dep cfg j β o)
    (h : Reachable G (World.initial memberships) cfg) :
    ∀ j ∈ cfg.jobs, ∀ p, j.rest = some p → Looks dep (services dep) p cfg.world := by
  refine arrived (M := system dep (services dep)) (A := EmptyPrefix)
    (fun c w => ServiceCall.looks c w)
    (fun {cfg j β o} hG k hk γ o' next hnext hempty org projectId cutoff herase => ?_)
    (fun {t w γ o} hempty => ?_) h
  · have hbefore := hasObjects_eq_false.mp (hempty herase)
    refine hasObjects_eq_false.mpr fun key hunder => ?_
    by_contra hkey
    cases hc : commit ((system dep (services dep)).exec o) cfg.world with
    | mk r w' =>
      rw [hc] at hkey
      cases r with
      | error e => exact hkey ((congrArg (fun w : World => w.objects.lookup key) (commit_error hc).1).trans (hbefore key hunder))
      | ok b =>
        obtain hold | hput := Op.objects_grow (commit_ok hc) hkey
        · exact hold (hbefore key hunder)
        · have he : (org, projectId) ∈ erasing k := by
            simp only [erasing, hnext, herase, Option.map_some, Option.mem_def]
          have hout := hsub hG key hput k hk (org, projectId) he
          rw [hunder] at hout
          cases hout
  · cases t <;> exact hempty

/-- The operation removes no row, or it removes those of a project, safely. -/
def RemovesSafely (e : Event (system dep calls)) : Prop :=
  match e.op.erase? with
  | none => e.before.db.Keeps e.after.db
  | some (org, projectId, cutoff) =>
    e.after = e.before ∨ SafeErasure e.before e.after.db org projectId cutoff

theorem removesSafely {β : Type} {o : Op β} {w : World} (hi : w.Inv dep) (howes : o.Owes dep w)
    (hempty : EmptyPrefix β o w) :
    RemovesSafely (⟨o, w, (commit (o.exec dep) w).2⟩ : Event (system dep calls)) := by
  unfold RemovesSafely
  cases hc : commit (o.exec dep) w with
  | mk r w' =>
    cases r with
    | error e =>
      obtain rfl := (commit_error hc).1
      dsimp only
      split
      · exact .refl _
      · exact .inl rfl
    | ok b =>
      have hret := commit_ok hc
      cases o with
      | query q =>
        obtain ⟨-, rfl⟩ := query_returns hret
        exact .refl _
      | request r =>
        show w.db.Keeps w'.db
        rw [Request.db_eq hret]
        exact .refl _
      | write action =>
        obtain ⟨db, hbody, rfl⟩ := transact_returns hret
        have hchanges := action.changes hi.db howes hbody
        cases action with
        | purgeProject org projectId cutoff =>
          have hpurge : Changes { erases := true } w.db db ∧ _ := purge_changes rfl hbody
          obtain ⟨-, ⟨-, hsame⟩ | ⟨-, herased⟩⟩ := hpurge
          · exact .inl (by rw [← hsame])
          · exact .inr (herased.safe hi.db howes.1 (hempty rfl))
        | _ => exact hchanges.keeps rfl

/-- What deletion of projects promises: projects at rest while they wait, rows that go
safely, and purges that change nothing where they fail. -/
structure DeletionSafe (cfg : ServiceConfig dep) : Prop where
  rest : ∀ {projectId retentionUntil}, cfg.world.db.KeptUntil projectId retentionUntil →
    cfg.world.db.AtRest projectId
  removal : ∀ j ∈ cfg.jobs, ∀ e ∈ j.history, RemovesSafely e
  failure : ∀ org projectId cutoff w,
    (commit ((Op.write (.purgeProject org projectId cutoff)).exec dep) w).1.toOption ≠ some true →
    (commit ((Op.write (.purgeProject org projectId cutoff)).exec dep) w).2 = w

/-- Deletion of projects is safe in every run in which nobody stores an object of a
project between the listing that finds its prefix empty and the erasure of its rows. -/
theorem project_deletion_safe (h : Reachable (Undisturbed dep) (World.initial memberships) cfg) :
    DeletionSafe cfg where
  rest hkept := (reachable_inv h).lifecycle.atRest (reachable_inv h).db hkept.deleting
  removal := by
    refine events_hold (fun {cfg j β o next} hreach hj hrest hG => ?_) (lawful_reachable h)
    have hlooks := erasing_empty (fun hG => hG.1) hreach j hj _ hrest
    exact removesSafely hG.2.1 hG.2.2 hlooks.1
  failure := purge_fails

end Law

/-! ### Two erasures -/

/-- The project of a tombstoned artifact is deleted: requested by call 4, its artifact
purged by call 5, its rows by call 6. -/
def smallErasure : List (Move Small) :=
  smallTombstone ++
    .start (ServiceCall.requestDeletion ⟨"owner", 1, none⟩ 0 "DELETE project") :: acts Small 4 2 ++
    .tick (.pass (seconds (31 * 24 * 60 * 60))) ::
      .start (ServiceCall.purgeArtifacts 10) :: acts Small 5 5 ++
    .start (ServiceCall.purgeProjects 10) :: acts Small 6 5

def undisturbed (cfg : Config Small) (β : Type) (o : Op β) : Bool :=
  decide (∀ key ∈ o.put?, ∀ k ∈ cfg.jobs, ∀ e ∈ erasing k, underProject e.1 e.2 key = false)

theorem undisturbed_reachable {schedule : List (Move Small)} {cfg : Config Small}
    (h : runIf (M := Small) undisturbed smallStart schedule = some cfg) :
    Reachable (Undisturbed .small) (World.initial smallMembers) cfg :=
  runIf_steps (M := Small) (G := Undisturbed .small) (fun {_ _ _ _} _ hcheck => by
    unfold undisturbed at hcheck
    rw [decide_eq_true_eq] at hcheck
    exact hcheck) h

theorem project_deletion_safe_erasure :
    ((runIf (M := Small) undisturbed smallStart smallErasure).map fun cfg =>
      (cfg.world.db.projects.keys, cfg.world.db.artifacts.keys, cfg.world.objects.keys)) =
        some ([], [], []) ∧
    ∀ cfg : Config Small, runIf (M := Small) undisturbed smallStart smallErasure = some cfg →
      DeletionSafe cfg :=
  ⟨by decide +kernel, fun _ h => project_deletion_safe (undisturbed_reachable h)⟩

/-- Call 2 has looked for a duplicate; then the deletion is requested by call 3, comes due
and is under way in call 4, which has seen nothing under the prefix. Now call 2 stores its
object, and the rows go. -/
def overtakenErasure : List (Move Small) :=
  smallProject ++ smallUpload :: acts Small 2 2 ++
    .start (ServiceCall.requestDeletion ⟨"owner", 1, none⟩ 0 "DELETE project") :: acts Small 3 2 ++
    .tick (.pass (seconds (31 * 24 * 60 * 60))) ::
      .start (ServiceCall.purgeProjects 10) :: acts Small 4 4 ++
    [.act 2, .act 4]

theorem project_deletion_overtaken :
    ¬ ∀ cfg : ServiceConfig .small, Reachable free (World.initial smallMembers) cfg →
      DeletionSafe cfg := by
  intro hclaim
  have hstep : (smallStep 4 overtakenErasure).map (fun e => (e.op.erase?.map fun x => (x.1, x.2.1),
      (e.before.db.projects.keys, e.after.db.projects.keys), e.before.objects.keys)) =
      some (some (1, 0), ([0], []), [smallKey]) := by
    decide +kernel
  obtain ⟨e, he, hstep⟩ := Option.map_eq_some_iff.mp hstep
  simp only [Prod.mk.injEq] at hstep
  obtain ⟨hop, ⟨hbefore, hafter⟩, hobjects⟩ := hstep
  obtain ⟨⟨org, projectId, cutoff⟩, hop, hpair⟩ := Option.map_eq_some_iff.mp hop
  simp only [Prod.mk.injEq] at hpair
  obtain ⟨rfl, rfl⟩ := hpair
  obtain ⟨cfg, hreach, j, hj, hmem⟩ := smallStep_mem he
  have hsafe := (hclaim cfg hreach).removal j hj e hmem
  unfold RemovesSafely at hsafe
  rw [hop] at hsafe
  obtain hsame | herased := hsafe
  · rw [hsame, hbefore] at hafter
    cases hafter
  · have hgone := herased.empty smallKey (by decide)
    rw [AList.lookup_eq_none, AList.mem_keys, hobjects] at hgone
    exact hgone List.mem_cons_self

end CorpusKit
