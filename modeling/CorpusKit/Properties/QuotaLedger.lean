import CorpusKit.Properties.Deletion
import CorpusKit.Refinement.Usage

/-! # The quota ledger equals the data

In every reachable state the usage row of an organization counts exactly its active
reservations, its artifacts that are not deleted and its sentences; and a run has
one reservation, active as long as the run can still move. What is released was
therefore always counted, and no transaction finds the usage inconsistent. -/

namespace CorpusKit

open Transaction Program Interleaving QuotaManager

/-! ## Releases find what they give back -/

/-- The job counters of the usage rows are the numbers of active reservations. -/
def Db.JobsCounted (db : Db) : Prop :=
  ∀ org quotaClass, (usageOf db.quotaUsages org).jobs quotaClass =
    Table.total (QuotaReservation.weight org quotaClass) db.quotaReservations

theorem Db.Inv.jobsCounted {db : Db} (hi : db.Inv) : db.JobsCounted := by
  intro org quotaClass
  rw [hi.ledger org]
  cases quotaClass <;> rfl

variable {db db' : Db}

/-- The counters are those of two tables. -/
theorem Db.JobsCounted.of_same (h : db.JobsCounted) (husages : db'.quotaUsages = db.quotaUsages)
    (hreservations : db'.quotaReservations = db.quotaReservations) : db'.JobsCounted := by
  unfold Db.JobsCounted
  rw [husages, hreservations]
  exact h

theorem QuotaUsage.jobs_store (usage : QuotaUsage) (size : Nat) (quotaClass : RunQuotaClass) :
    (usage.store size).jobs quotaClass = usage.jobs quotaClass := by
  cases quotaClass <;> rfl

/-- Charging an artifact leaves the job counters alone. -/
theorem Db.JobsCounted.store (h : db.JobsCounted) {org : Uuid} {usage : QuotaUsage}
    (husage : db.quotaUsages.lookup org = some usage) (size : Nat) :
    ({ db with quotaUsages := db.quotaUsages.insert org (usage.store size) } : Db).JobsCounted := by
  intro o quotaClass
  have ho : (usageOf db.quotaUsages o).jobs quotaClass = _ := h o quotaClass
  show (usageOf (db.quotaUsages.insert org (usage.store size)) o).jobs quotaClass = _
  unfold usageOf at ho ⊢
  by_cases hsame : o = org
  · subst hsame
    rw [husage] at ho
    rw [AList.lookup_insert]
    exact (usage.jobs_store size quotaClass).trans ho
  · rw [AList.lookup_insert_ne hsame]
    exact ho

/-- An active reservation is in the counter of its class. -/
theorem Db.JobsCounted.pos (h : db.JobsCounted) {rid : Uuid} {r : QuotaReservation}
    {usage : QuotaUsage} (hr : db.quotaReservations.lookup rid = some r)
    (hactive : r.state = .active)
    (husage : db.quotaUsages.lookup r.organizationId = some usage) :
    0 < usage.jobs r.quotaClass := by
  have hcount := h r.organizationId r.quotaClass
  have hone : r.weight r.organizationId r.quotaClass = 1 := by
    simp [QuotaReservation.weight, hactive]
  have hle := Table.le_total (w := QuotaReservation.weight r.organizationId r.quotaClass) hr
  unfold usageOf at hcount
  rw [husage, Option.getD_some] at hcount
  omega

theorem releaseRun_avoids (h : db.JobsCounted) {org runId : Uuid}
    {ending : QuotaReservationState} {now : Instant} :
    Avoids UsageError (releaseRun org runId ending now) db := by
  refine .bind ((Shuns.bind shuns_get fun _ => shuns_pure) db) fun reservation t hres => ?_
  obtain ⟨hown, rfl⟩ := reservationOf_returns hres
  split
  · exact shuns_pure.avoids _
  · next rid r =>
    obtain ⟨hr, rfl, -⟩ := ownReservation_some hown.symm
    split
    · next hactive =>
      refine .bind (shuns_get.avoids _) fun a t hget => ?_
      obtain ⟨rfl, rfl⟩ := hget.get
      refine .bind (locked_shuns.avoids _) fun ⟨policy, usage⟩ t hlocked => ?_
      obtain ⟨-, husage, rfl⟩ := locked_returns hlocked
      refine .bind ?_ fun _ t _ => (Shuns.bind shuns_modify fun _ =>
        .bind shuns_modify fun _ => shuns_pure).avoids t
      have hpos : 0 < usage.jobs r.quotaClass := h.pos hr hactive husage
      cases hclass : r.quotaClass <;> rw [hclass] at hpos <;>
        exact (avoids_require hpos).bind fun _ t _ => shuns_pure.avoids t
    · exact shuns_pure.avoids _

/-- A release and what follows it. -/
theorem releaseRun_then_avoids (h : db.JobsCounted) {org runId : Uuid}
    {ending : QuotaReservationState} {now : Instant} {α : Type} {next : Bool → DbTx α}
    (hnext : ∀ b, Shuns UsageError (next b)) :
    Avoids UsageError (releaseRun org runId ending now >>= next) db :=
  (releaseRun_avoids h).bind fun b t _ => (hnext b).avoids t

namespace DurableRunStore

theorem applyTransitionControls_avoids (h : db.JobsCounted) {org runId : Uuid} {run : Run}
    {target : RunState} {code : Option String} {now : Instant} :
    Avoids UsageError (applyTransitionControls org runId run target code now) db := by
  cases target with
  | running => exact (Shuns.bind renewRun_shuns fun _ => require_shuns rfl).avoids db
  | cancelling => exact append_shuns.avoids db
  | succeeded => exact releaseRun_then_avoids h fun _ => append_shuns
  | failed => exact releaseRun_then_avoids h fun _ => append_shuns
  | cancelled => exact releaseRun_then_avoids h fun _ => append_shuns
  | draft => exact shuns_pure.avoids db
  | queued => exact shuns_pure.avoids db
  | provisioning => exact shuns_pure.avoids db

theorem commitTransition_avoids (h : db.JobsCounted) {reference : RunWorkflowReference}
    {read : Run} {transition : Transition} {now : Instant} :
    Avoids UsageError (commitTransition reference read transition now) db := by
  refine .bind (ensureTransition_shuns.avoids _) fun _ t htrans => ?_
  obtain ⟨-, rfl⟩ := ensureTransition_returns htrans
  refine .bind (shuns_get.avoids _) fun a t hget => ?_
  obtain ⟨rfl, rfl⟩ := hget.get
  dsimp only
  split
  · exact shuns_pure.avoids _
  · refine .bind (setRun_shuns.avoids _) fun _ t hset => ?_
    obtain rfl := setRun_returns hset
    refine .bind (addRunEvent_shuns.avoids _) fun _ t hadd => ?_
    obtain ⟨-, rfl⟩ := addRunEvent_returns hadd
    refine .bind (applyTransitionControls_avoids ?_) fun _ t _ => shuns_pure.avoids t
    exact h.of_same rfl rfl

theorem recordTerminalAudit_avoids (h : db.JobsCounted) {runId : Uuid} {run : Run}
    {action : AuditAction} {identity : ServiceIdentity} {now : Instant} :
    Avoids UsageError (recordTerminalAudit runId run action identity now) db :=
  releaseRun_then_avoids h fun _ => append_shuns

/-- Cancelling under the lock touches the run and its events only. -/
theorem cancelLocked_counted (h : db.JobsCounted) {runId : Uuid} {run : Run} {now : Instant}
    {b : Bool} (hret : Returns (cancelLocked runId run now) db b db') : db'.JobsCounted := by
  obtain ⟨observed, s, hobserve, hfinish⟩ := hret.bind
  have hs : s.JobsCounted := by
    rcases hobserve.ite with ⟨-, hobserve⟩ | ⟨-, hobserve⟩
    · obtain ⟨-, rfl⟩ := hobserve.pure
      exact h
    · obtain ⟨u, t, htrans, hobserve⟩ := hobserve.bind
      obtain ⟨-, rfl⟩ := ensureTransition_returns htrans
      obtain ⟨u, t, hset, hobserve⟩ := hobserve.bind
      obtain rfl := setRun_returns hset
      obtain ⟨u, t, hadd, hobserve⟩ := hobserve.bind
      obtain ⟨-, rfl⟩ := addRunEvent_returns hadd
      obtain ⟨-, rfl⟩ := hobserve.pure
      exact h
  rcases hfinish.ite with ⟨-, hfinish⟩ | ⟨-, hfinish⟩
  · obtain ⟨u, t, htrans, hfinish⟩ := hfinish.bind
    obtain ⟨-, rfl⟩ := ensureTransition_returns htrans
    obtain ⟨u, t, hset, hfinish⟩ := hfinish.bind
    obtain rfl := setRun_returns hset
    obtain ⟨u, t, hadd, hfinish⟩ := hfinish.bind
    obtain ⟨-, rfl⟩ := addRunEvent_returns hadd
    obtain ⟨-, rfl⟩ := hfinish.pure
    exact hs
  · obtain ⟨u, t, hset, hfinish⟩ := hfinish.bind
    obtain rfl := setRun_returns hset
    obtain ⟨-, rfl⟩ := hfinish.pure
    exact hs

theorem adoptResult_avoids (h : db.JobsCounted) {policy : Option QuotaPolicyValues} {runId : Uuid}
    {run : Run} {adopted : AdoptedArtifact} {now : Instant} :
    Avoids UsageError (adoptResult policy runId run adopted now) db := by
  refine .bind (uuid4_shuns.avoids _) fun id t hid => ?_
  obtain ⟨rfl, rfl⟩ := uuid4_returns hid
  refine .bind (insertArtifact_shuns.avoids _) fun _ t hinsert => ?_
  obtain ⟨-, -, -, rfl⟩ := insertArtifact_returns hinsert
  refine .bind (commitDatgPublication_shuns.avoids _) fun _ t hpublish => ?_
  obtain ⟨-, n, publications, -, rfl⟩ := commitDatgPublication_returns hpublish
  refine .bind (consumeArtifact_shuns.avoids _) fun _ t hconsume => ?_
  obtain ⟨p, usage, -, husage, -, -, rfl⟩ := consumeArtifact_returns hconsume
  have hcounted := h.store husage adopted.sizeBytes
  refine .bind (ensureTransition_shuns.avoids _) fun _ t htrans => ?_
  obtain ⟨-, rfl⟩ := ensureTransition_returns htrans
  refine .bind (setRun_shuns.avoids _) fun _ t hset => ?_
  obtain rfl := setRun_returns hset
  refine .bind (addRunEvent_shuns.avoids _) fun _ t hadd => ?_
  obtain ⟨-, rfl⟩ := addRunEvent_returns hadd
  refine .bind (append_shuns.avoids _) fun _ t happend => ?_
  obtain ⟨head, -, -, rfl⟩ := append_returns happend
  refine .bind (recordTerminalAudit_avoids ?_) fun _ t _ => shuns_pure.avoids t
  exact hcounted.of_same rfl rfl

theorem commitAdoptedResult_avoids (h : db.JobsCounted) {policy : Option QuotaPolicyValues}
    {reference : RunWorkflowReference} {adopted : AdoptedArtifact} {now : Instant} :
    Avoids UsageError (commitAdoptedResult policy reference adopted now) db := by
  refine .bind (readRun_shuns.avoids _) fun run t hread => ?_
  obtain ⟨-, -, -, rfl⟩ := readRun_returns hread
  refine .bind ((require_shuns rfl).avoids _) fun _ t hreq => ?_
  obtain ⟨-, rfl⟩ := hreq.require
  split
  · refine .bind (cancelLocked_shuns.avoids _) fun cancelled t hlock => ?_
    have hcounted := cancelLocked_counted h hlock
    cases cancelled with
    | true => exact .bind (recordTerminalAudit_avoids hcounted) fun _ t _ => shuns_pure.avoids t
    | false => exact shuns_pure.avoids t
  · split
    · exact adoptAgain_shuns.avoids _
    · refine .bind ((require_shuns rfl).avoids _) fun _ t hreq => ?_
      obtain ⟨-, rfl⟩ := hreq.require
      exact adoptResult_avoids h

end DurableRunStore

theorem endExpiredRun_shuns {org runId : Uuid} {run : Run} :
    Shuns UsageError (endExpiredRun org runId run) :=
  .ite shuns_pure (.bind ensureTransition_shuns fun _ => .bind setRun_shuns fun _ =>
    addRunEvent_shuns)

theorem endExpiredRun_counted (h : db.JobsCounted) {org runId : Uuid} {run : Run} {u : Unit}
    (hret : Returns (endExpiredRun org runId run) db u db') : db'.JobsCounted := by
  rcases hret.ite with ⟨-, hret⟩ | ⟨-, hret⟩
  · obtain ⟨-, rfl⟩ := hret.pure
    exact h
  · obtain ⟨u, t, htrans, hret⟩ := hret.bind
    obtain ⟨-, rfl⟩ := ensureTransition_returns htrans
    obtain ⟨u, t, hset, hret⟩ := hret.bind
    obtain rfl := setRun_returns hset
    obtain ⟨-, rfl⟩ := addRunEvent_returns hret
    exact h

theorem expireReservation_avoids (h : db.JobsCounted) {cutoff : Instant}
    {reservationId org runId : Uuid} {now : Instant} :
    Avoids UsageError (expireReservation cutoff reservationId org runId now) db := by
  refine .bind (shuns_get.avoids _) fun a t hget => ?_
  obtain ⟨rfl, rfl⟩ := hget.get
  refine .bind ((found_shuns rfl).avoids _) fun run t hfound => ?_
  obtain ⟨-, rfl⟩ := hfound.found
  dsimp only
  split
  · exact shuns_pure.avoids _
  · refine .bind (endExpiredRun_shuns.avoids _) fun _ t hend => ?_
    exact releaseRun_then_avoids (endExpiredRun_counted h hend) fun released =>
      .ite (.bind append_shuns fun _ => .bind (.ite shuns_pure append_shuns) fun _ => shuns_pure)
        shuns_pure

theorem ArtifactService.markPurged_avoids (hi : db.Inv) {id : Uuid} {read : Artifact}
    {cutoff now : Instant} (hcandidate : PurgeCandidate db id read) :
    Avoids UsageError (markPurged id read cutoff now) db := by
  refine .bind (shuns_get.avoids _) fun a t hget => ?_
  obtain ⟨rfl, rfl⟩ := hget.get
  split
  · exact shuns_pure.avoids _
  · next row hrow =>
    rw [Option.filter_eq_some_iff, beq_iff_eq] at hrow
    obtain ⟨horg, hsize⟩ := hcandidate row hrow.1
    have hlive : row.state ≠ .deleted := by simp [hrow.2]
    refine .bind (shuns_set.avoids _) fun _ t hset => ?_
    obtain rfl := hset.set
    refine .bind ?_ fun _ t _ => (Shuns.bind append_shuns fun _ => shuns_pure).avoids t
    refine .bind (shuns_get.avoids _) fun a t hget => ?_
    obtain ⟨rfl, rfl⟩ := hget.get
    refine .bind (locked_shuns.avoids _) fun ⟨policy, usage⟩ t hlocked => ?_
    obtain ⟨-, husage, rfl⟩ := locked_returns hlocked
    -- the row is still in the tally the usage row was written for
    have htally : usage = _ := hi.ledger.usage husage
    have hstored : 0 < (tally db.quotaReservations db.artifacts db.sentences
          row.organizationId).artifactCount ∧
        row.sizeBytes ≤ (tally db.quotaReservations db.artifacts db.sentences
          row.organizationId).artifactBytes := stored_le hrow.1 hlive
    rw [horg, hsize, ← htally] at hstored
    refine .bind (avoids_require ?_) fun _ t _ => shuns_modify.avoids t
    rintro (hzero | hless)
    · omega
    · omega

theorem ProjectDeletion.purge_avoids (hi : db.Inv) {org projectId : Uuid} {cutoff : Instant} :
    Avoids UsageError (purge org projectId cutoff) db := by
  have hready : Shuns UsageError (ready org projectId cutoff) := by
    refine .bind shuns_get fun db => ?_
    split
    · exact shuns_pure
    · exact .ite shuns_pure shuns_pure
  refine .bind (hready.avoids _) fun due t hdue => ?_
  obtain ⟨rfl, -⟩ := ready_returns hdue
  split
  · exact shuns_pure.avoids _
  · next n =>
    refine .bind (shuns_get.avoids _) fun a t hget => ?_
    obtain ⟨rfl, rfl⟩ := hget.get
    refine .bind ((require_shuns rfl).avoids _) fun _ t hreq => ?_
    obtain ⟨hcount, rfl⟩ := hreq.require
    refine .bind (shuns_set.avoids _) fun _ t hset => ?_
    obtain rfl := hset.set
    refine .bind ?_ fun _ t _ => (Shuns.bind append_shuns fun _ =>
      .bind shuns_modify fun _ => shuns_pure).avoids t
    unfold releaseSentences
    split
    · exact shuns_pure.avoids _
    · refine .bind ((require_shuns rfl).avoids _) fun _ t hreq => ?_
      obtain ⟨-, rfl⟩ := hreq.require
      refine .bind (shuns_get.avoids _) fun a t hget => ?_
      obtain ⟨rfl, rfl⟩ := hget.get
      refine .bind (locked_shuns.avoids _) fun ⟨policy, usage⟩ t hlocked => ?_
      obtain ⟨-, husage, rfl⟩ := locked_returns hlocked
      have hle : n ≤ usage.corpusSentences := hcount ▸ corpusSentenceCount_le hi husage
      exact .bind (avoids_require hle) fun _ t _ => shuns_modify.avoids t

/-- No transaction of a service finds the quota usage inconsistent. -/
theorem Action.avoids {dep : Deployment} {w : World} {β : Type} {action : Action β}
    (hi : w.db.Inv) (howes : action.Owes dep w) : Avoids UsageError (action.body dep) w.db := by
  cases action with
  | submit policy s now => exact JobControlPlane.insertSubmission_shuns.avoids _
  | replay policy s now => exact RunManifestService.insertReplay_shuns.avoids _
  | cancel who userId runId read now => exact JobControlPlane.commitCancellation_shuns.avoids _
  | readFor reference target => exact DurableRunStore.readRun_shuns.avoids _
  | transition reference read target now =>
    exact DurableRunStore.commitTransition_avoids hi.jobsCounted
  | progress reference read payload => exact DurableRunStore.commitProgress_shuns.avoids _
  | adopt policy reference adopted now =>
    exact DurableRunStore.commitAdoptedResult_avoids hi.jobsCounted
  | expire cutoff reservationId organizationId runId now =>
    exact expireReservation_avoids hi.jobsCounted
  | replacePolicy current organizationId policy requestId now => exact replacePolicy_shuns.avoids _
  | provision organizationId => exact ensurePlatformRows_shuns.avoids _
  | upload policy who userId content retentionUntil now =>
    exact ArtifactService.insertUpload_shuns.avoids _
  | tombstone who projectId artifactId now => exact ArtifactService.tombstone_shuns.avoids _
  | markPurged id read cutoff now => exact ArtifactService.markPurged_avoids hi howes
  | recordExecution reference facts inputs => exact RunManifestService.recordExecution_shuns.avoids _
  | finalize policy reference factsSha256 outputs manifest expected comparison retentionUntil now =>
    exact RunManifestService.finalizeManifest_shuns.avoids _
  | completeReplay reference manifestArtifactId expected comparison now =>
    exact RunManifestService.completeReplay_shuns.avoids _
  | createProject who name now => exact ProjectWorkspace.createProject_shuns.avoids _
  | createCorpus policy who projectId name prepared now =>
    exact ProjectWorkspace.createCorpus_shuns.avoids _
  | createVersion policy who projectId corpusId prepared operation now =>
    exact ProjectWorkspace.createVersion_shuns.avoids _
  | requestDeletion who projectId confirmation retention now =>
    exact ProjectDeletion.request_shuns.avoids _
  | purgeProject organizationId projectId cutoff => exact ProjectDeletion.purge_avoids hi
  | claim workerId now expired ids => exact (TransactionalOutbox.claimAll_shuns ids).avoids _
  | markPublished id workerId now =>
    exact (Shuns.bind TransactionalOutbox.ownClaim_shuns fun _ => shuns_modify).avoids _
  | releaseFailed id workerId now =>
    exact (Shuns.bind TransactionalOutbox.ownClaim_shuns fun _ => shuns_modify).avoids _

/-! ## The ledger -/

/-- The usage of the organization is what its rows add up to. -/
structure Db.UsageAgrees (db : Db) (org : Uuid) (usage : QuotaUsage) : Prop where
  activeCpuJobs : usage.activeCpuJobs = (db.quotaReservations.select fun _ r =>
    decide (r.organizationId = org ∧ r.state = .active ∧ r.quotaClass = .cpu)).length
  activeExpensiveJobs : usage.activeExpensiveJobs = (db.quotaReservations.select fun _ r =>
    decide (r.organizationId = org ∧ r.state = .active ∧ r.quotaClass = .expensive)).length
  artifactCount : usage.artifactCount = (db.artifacts.select fun _ a =>
    decide (a.organizationId = org ∧ a.state ≠ .deleted)).length
  artifactBytes : usage.artifactBytes = ((db.artifacts.select fun _ a =>
    decide (a.organizationId = org ∧ a.state ≠ .deleted)).map fun e => e.2.sizeBytes).sum
  corpusSentences : usage.corpusSentences = (db.sentences.select fun _ s =>
    decide (s.organizationId = org)).length

/-- The run has exactly one reservation, which is active while the run can still move. -/
def Db.ReservedOnce (db : Db) (runId : Uuid) (run : Run) : Prop :=
  ∃ rid r, db.quotaReservations.lookup rid = some r ∧ r.runId = runId ∧
    (r.state = .active ↔ isTerminal run.state = false) ∧
    ∀ rid' r', db.quotaReservations.lookup rid' = some r' → r'.runId = runId → rid' = rid

theorem length_filter_eq_sum {α : Type} (p : α → Bool) (xs : List α) :
    (xs.filter p).length = (xs.map fun x => if p x then 1 else 0).sum := by
  induction xs with
  | nil => rfl
  | cons x xs ih =>
    rw [List.map_cons, List.sum_cons, ← ih, List.filter_cons]
    split
    · rw [List.length_cons, Nat.add_comm]
    · rw [Nat.zero_add]

theorem sum_filter_eq_sum {α : Type} (p : α → Bool) (f : α → Nat) (xs : List α) :
    ((xs.filter p).map f).sum = (xs.map fun x => if p x then f x else 0).sum := by
  induction xs with
  | nil => rfl
  | cons x xs ih =>
    rw [List.map_cons, List.sum_cons, ← ih, List.filter_cons]
    split
    · rw [List.map_cons, List.sum_cons]
    · rw [Nat.zero_add]

theorem Db.Inv.usageAgrees (hi : db.Inv) (org : Uuid) :
    db.UsageAgrees org (usageOf db.quotaUsages org) := by
  have hrows {κ ρ : Type} (t : Table κ ρ) (w : ρ → Nat) :
      Table.total w t = (t.rows.map fun e => w e.2).sum := by
    simp [Table.total, Table.rows, Function.comp_def]
  rw [hi.ledger org]
  constructor
  all_goals
    show Table.total _ _ = _
    rw [hrows, Table.select]
    first | rw [length_filter_eq_sum] | rw [sum_filter_eq_sum]
    refine congrArg List.sum (List.map_congr_left fun e _ => ?_)
    simp only [decide_eq_true_eq]
    exact if_congr Iff.rfl rfl rfl

theorem Db.Inv.reservedOnce (hi : db.Inv) {runId : Uuid} {run : Run}
    (hrun : db.runs.lookup runId = some run) : db.ReservedOnce runId run := by
  obtain ⟨rid, r, hr, hid, huniq⟩ := hi.reserved.one hrun
  obtain ⟨owner, howner, hholds⟩ := hi.reserved.owned hr
  rw [hid, hrun] at howner
  cases howner
  exact ⟨rid, r, hr, hid, hholds.active, huniq⟩

/-- In every reachable state the quota ledger equals the data, every run has one
reservation, active exactly while it can still move, and no transaction so far
found the usage inconsistent. -/
theorem quota_ledger_equals_data {dep : Deployment} {memberships : List Membership}
    {cfg : ServiceConfig dep} (h : Reachable free (World.initial memberships) cfg) :
    (∀ org, cfg.world.db.UsageAgrees org (usageOf cfg.world.db.quotaUsages org)) ∧
    (∀ runId run, cfg.world.db.runs.lookup runId = some run →
      cfg.world.db.ReservedOnce runId run) ∧
    ∀ j ∈ cfg.jobs, ∀ (β : Type) (action : Action β) (before after : World),
      (⟨Op.write action, before, after⟩ : Event (system dep (services dep))) ∈ j.history →
      ∀ e ∈ usageErrors, (commit (action.body dep) before.db).1 ≠ .error e := by
  have hi := reachable_inv h
  refine ⟨fun org => hi.db.usageAgrees org, fun runId run hrun => hi.db.reservedOnce hrun, ?_⟩
  intro j hj β action before after he e hbad herror
  obtain ⟨hbefore, howes, -⟩ := events_owed h j hj _ he
  have hraises : Raises (action.body dep) before.db e :=
    (commit_error (Prod.ext herror rfl)).2
  exact action.avoids hbefore.db howes e hraises hbad

/-- The ledger of the small run after its submission: one active job. -/
theorem quota_ledger_equals_data_submitted :
    ((smallRun smallSubmission).map fun cfg =>
      (cfg.world.db.quotaUsages.lookup 1).map QuotaUsage.activeCpuJobs) = some (some 1) ∧
    ∀ cfg, smallRun smallSubmission = some cfg → ∀ runId run,
      cfg.world.db.runs.lookup runId = some run → cfg.world.db.ReservedOnce runId run :=
  ⟨by decide +kernel, fun _ h => (quota_ledger_equals_data (smallRun_reachable h)).2.1⟩

end CorpusKit
