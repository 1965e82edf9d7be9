import CorpusKit.Refinement.Content

/-! # Projects, corpora, policies and messages are changes -/

namespace CorpusKit

open Transaction QuotaManager

variable {db db' : Db} {permit : Permit}

namespace ProjectWorkspace

theorem actor_returns {who : WorkspaceActor} {r : Uuid × Role} (h : Returns (actor who) db r db') :
    db = db' := by
  unfold actor at h
  obtain ⟨a, s, hget, h⟩ := h.bind
  obtain ⟨rfl, rfl⟩ := hget.get
  obtain ⟨row, s, hfound, h⟩ := h.bind
  obtain ⟨-, rfl⟩ := hfound.found
  exact h.pure.2

theorem createProject_changes {who : WorkspaceActor} {name : String} {now : Instant} {id : Uuid}
    (h : Returns (createProject who name now) db id db') : Changes permit db db' := by
  unfold createProject at h
  obtain ⟨⟨userId, role⟩, s, hactor, h⟩ := h.bind
  obtain rfl := actor_returns hactor
  obtain ⟨u, s, hreq, h⟩ := h.bind
  obtain ⟨-, rfl⟩ := hreq.require
  obtain ⟨projectId, s, hid, h⟩ := h.bind
  obtain ⟨rfl, rfl⟩ := uuid4_returns hid
  obtain ⟨a, s, hget, h⟩ := h.bind
  obtain ⟨rfl, rfl⟩ := hget.get
  obtain ⟨u, s, hreq, h⟩ := h.bind
  obtain ⟨-, rfl⟩ := hreq.require
  obtain ⟨u, s, hset, h⟩ := h.bind
  obtain rfl := hset.set
  obtain ⟨u, s, haudit, h⟩ := h.bind
  obtain ⟨rfl, rfl⟩ := h.pure
  exact .tail (.single (.project _ rfl)) (append_change permit (by rfl) (by decide) haudit)

/-- The version collides with no other, and follows with its sentences. -/
theorem insertVersion_returns {version : CorpusVersion} {texts : List String} {operation : String}
    {id : Uuid} (h : Returns (insertVersion version texts operation) db id db') :
    id = db.nextId ∧
      db.corpusVersions.find (fun _ row => row.corpusId == version.corpusId &&
        (row.versionNumber == version.versionNumber ||
          row.contentSha256 == version.contentSha256)) = none ∧
      db' = { db with
        nextId := db.nextId + 1
        corpusVersions := db.corpusVersions.insert db.nextId version
        sentences := insertSentences version.organizationId db.nextId 0 texts db.sentences } := by
  unfold insertVersion at h
  obtain ⟨versionId, s, hid, h⟩ := h.bind
  obtain ⟨rfl, rfl⟩ := uuid4_returns hid
  obtain ⟨a, s, hget, h⟩ := h.bind
  obtain ⟨rfl, rfl⟩ := hget.get
  obtain ⟨u, s, hreq, h⟩ := h.bind
  obtain ⟨hfree, rfl⟩ := hreq.require
  obtain ⟨u, s, hset, h⟩ := h.bind
  obtain rfl := hset.set
  obtain ⟨rfl, rfl⟩ := h.pure
  exact ⟨rfl, hfree, rfl⟩

/-- A corpus no version refers to has no latest version. -/
theorem latestVersion_none {org corpusId : Uuid}
    (hnone : ∀ {v version}, db.corpusVersions.lookup v = some version →
      version.corpusId ≠ corpusId) : latestVersion db org corpusId = none := by
  have hempty : (db.corpusVersions.select fun _ version =>
      version.organizationId == org && version.corpusId == corpusId) = [] := by
    rw [List.eq_nil_iff_forall_not_mem]
    rintro ⟨v, version⟩ hv
    obtain ⟨hrow, hmatch⟩ := Table.mem_select.mp hv
    simp only [Bool.and_eq_true, beq_iff_eq] at hmatch
    exact hnone hrow hmatch.2
  unfold latestVersion
  rw [hempty]
  rfl

theorem nextVersion_first {version : CorpusVersion}
    (hnone : ∀ {v other}, db.corpusVersions.lookup v = some other →
      other.corpusId ≠ version.corpusId)
    (hnumber : version.versionNumber = 1) (hparent : version.parentVersionId = none) :
    db.NextVersion version := by
  unfold Db.NextVersion
  rw [latestVersion_none hnone]
  exact ⟨hnumber, hparent⟩

theorem nextVersion_after {version : CorpusVersion} {latest : Uuid × CorpusVersion}
    (hlatest : latestVersion db version.organizationId version.corpusId = some latest)
    (hnumber : version.versionNumber = latest.2.versionNumber + 1)
    (hparent : version.parentVersionId = some latest.1) : db.NextVersion version := by
  unfold Db.NextVersion
  rw [hlatest]
  exact ⟨hnumber, hparent⟩

/-- The permit of a transaction that was given a prepared corpus. -/
def writing (organizationId : Uuid) (policy : Option QuotaPolicyValues)
    (prepared : PreparedCorpus) : Permit :=
  { Permit.reading organizationId policy with content := some prepared }

theorem createCorpus_changes (hi : db.Inv) {policy : Option QuotaPolicyValues}
    {who : WorkspaceActor} {projectId : Uuid} {name : String} {prepared : PreparedCorpus}
    {now : Instant} {id : Uuid}
    (h : Returns (createCorpus policy who projectId name prepared now) db id db') :
    Changes (writing who.organizationId policy prepared) db db' := by
  unfold createCorpus at h
  obtain ⟨⟨userId, role⟩, s, hactor, h⟩ := h.bind
  obtain rfl := actor_returns hactor
  obtain ⟨u, s, hreq, h⟩ := h.bind
  obtain ⟨-, rfl⟩ := hreq.require
  obtain ⟨u, s, hconsume, h⟩ := h.bind
  obtain ⟨p, usage, hp, husage, hroom, rfl⟩ := consumeCorpusSentences_returns hconsume
  obtain ⟨a, s, hget, h⟩ := h.bind
  obtain ⟨rfl, rfl⟩ := hget.get
  obtain ⟨u, s, hreq, h⟩ := h.bind
  obtain ⟨hactive, rfl⟩ := hreq.require
  obtain ⟨u, s, hreq, h⟩ := h.bind
  obtain ⟨-, rfl⟩ := hreq.require
  obtain ⟨corpusId, s, hid, h⟩ := h.bind
  obtain ⟨rfl, rfl⟩ := uuid4_returns hid
  obtain ⟨u, s, hset, h⟩ := h.bind
  obtain rfl := hset.modify
  obtain ⟨versionId, s, hversion, h⟩ := h.bind
  obtain ⟨rfl, -, rfl⟩ := insertVersion_returns hversion
  obtain ⟨u, s, haudit, h⟩ := h.bind
  obtain ⟨rfl, rfl⟩ := h.pure
  have hopen : db.activeProject who.organizationId projectId = true := hactive
  refine .tail (.tail (.single (.corpus ⟨who.organizationId, projectId, userId, name⟩ hopen)) ?_)
    (append_change _ (by rfl) (by decide) haudit)
  refine .version _ _ (AList.lookup_insert _) rfl hopen ?_ rfl rfl
    (Permit.reading_policy.trans hp) husage hroom
  exact nextVersion_first (fun hv => (hi.versioned hv).ne) rfl rfl

theorem createVersion_changes {policy : Option QuotaPolicyValues} {who : WorkspaceActor}
    {projectId corpusId : Uuid} {prepared : PreparedCorpus} {operation : String} {now : Instant}
    {id : Uuid}
    (h : Returns (createVersion policy who projectId corpusId prepared operation now) db id db') :
    Changes (writing who.organizationId policy prepared) db db' := by
  unfold createVersion at h
  obtain ⟨⟨userId, role⟩, s, hactor, h⟩ := h.bind
  obtain rfl := actor_returns hactor
  obtain ⟨u, s, hreq, h⟩ := h.bind
  obtain ⟨-, rfl⟩ := hreq.require
  obtain ⟨u, s, hconsume, h⟩ := h.bind
  obtain ⟨p, usage, hp, husage, hroom, rfl⟩ := consumeCorpusSentences_returns hconsume
  obtain ⟨a, s, hget, h⟩ := h.bind
  obtain ⟨rfl, rfl⟩ := hget.get
  obtain ⟨u, s, hreq, h⟩ := h.bind
  obtain ⟨hactive, rfl⟩ := hreq.require
  obtain ⟨u, s, hreq, h⟩ := h.bind
  obtain ⟨⟨corpus, hcorpus, horg, hproject⟩, rfl⟩ := hreq.require
  obtain ⟨latest, s, hfound, h⟩ := h.bind
  obtain ⟨hlatest, rfl⟩ := hfound.found
  obtain ⟨versionId, s, hversion, h⟩ := h.bind
  obtain ⟨rfl, -, rfl⟩ := insertVersion_returns hversion
  obtain ⟨u, s, haudit, h⟩ := h.bind
  obtain ⟨rfl, rfl⟩ := h.pure
  refine .tail (.single ?_) (append_change _ (by rfl) (by decide) haudit)
  refine .version _ _ hcorpus horg (hproject ▸ hactive) ?_ rfl rfl
    (Permit.reading_policy.trans hp) husage hroom
  exact nextVersion_after hlatest rfl rfl

end ProjectWorkspace

/-! ## Deletion -/

namespace ProjectDeletion

theorem schedule_changes (hpermit : permit.retires = true) {org userId projectId : Uuid}
    {project : Project} {requestId : Option String} {retention : Duration} {now : Instant} {u : Unit}
    (hproject : db.projects.lookup projectId = some project) (horg : project.organizationId = org)
    (hactive : project.lifecycle = .active)
    (h : Returns (schedule org userId projectId project requestId retention now) db u db') :
    Changes permit db db' := by
  unfold schedule at h
  obtain ⟨a, s, hget, h⟩ := h.bind
  obtain ⟨rfl, rfl⟩ := hget.get
  obtain ⟨u, s, hreq, h⟩ := h.bind
  obtain ⟨hquiet, rfl⟩ := hreq.require
  obtain ⟨u, s, hset, h⟩ := h.bind
  obtain rfl := hset.set
  exact .tail (.single (.schedule hpermit hproject horg hactive hquiet)) (append_change permit (by rfl) (by decide) h)

theorem request_changes (hpermit : permit.retires = true) {who : WorkspaceActor} {projectId : Uuid}
    {confirmation : String} {retention : Duration} {now : Instant} {u : Unit}
    (h : Returns (request who projectId confirmation retention now) db u db') :
    Changes permit db db' := by
  unfold request at h
  obtain ⟨⟨userId, role⟩, s, hactor, h⟩ := h.bind
  obtain rfl := ProjectWorkspace.actor_returns hactor
  obtain ⟨u, s, hreq, h⟩ := h.bind
  obtain ⟨-, rfl⟩ := hreq.require
  obtain ⟨u, s, hreq, h⟩ := h.bind
  obtain ⟨-, rfl⟩ := hreq.require
  obtain ⟨a, s, hget, h⟩ := h.bind
  obtain ⟨rfl, rfl⟩ := hget.get
  obtain ⟨project, s, hfound, h⟩ := h.bind
  obtain ⟨hrow, rfl⟩ := hfound.found
  obtain ⟨u, s, hreq, h⟩ := h.bind
  obtain ⟨-, rfl⟩ := hreq.require
  rw [Option.filter_eq_some_iff, beq_iff_eq] at hrow
  split at h
  · obtain ⟨-, rfl⟩ := h.pure
    exact .refl
  · next hactive => exact schedule_changes hpermit hrow.1 hrow.2 hactive h

/-- The project is due: its retention has run out. -/
theorem dueProject_some {org projectId : Uuid} {cutoff : Instant} {n : Nat}
    (h : dueProject db org projectId cutoff = some n) :
    ∃ project requestedAt retentionUntil, db.projects.lookup projectId = some project ∧
      project.organizationId = org ∧
      project.lifecycle = .deletionPending requestedAt retentionUntil n ∧
      retentionUntil ≤ cutoff := by
  unfold dueProject at h
  simp only [Option.bind_eq_bind, Option.bind_eq_some_iff] at h
  obtain ⟨project, hproject, h⟩ := h
  split at h
  · cases h
  · next requestedAt retentionUntil corpusSentences hlifecycle =>
    split at h
    · next hdue =>
      cases h
      exact ⟨project, requestedAt, retentionUntil, hproject, hdue.1, hlifecycle, hdue.2⟩
    · cases h

theorem ready_returns {org projectId : Uuid} {cutoff : Instant} {answer : Option Nat}
    (h : Returns (ready org projectId cutoff) db answer db') :
    db = db' ∧ ∀ n, answer = some n → dueProject db org projectId cutoff = some n ∧
      databasePreconditions db org projectId = true := by
  unfold ready at h
  obtain ⟨a, s, hget, h⟩ := h.bind
  obtain ⟨rfl, rfl⟩ := hget.get
  split at h
  · obtain ⟨rfl, rfl⟩ := h.pure
    exact ⟨rfl, nofun⟩
  · next n hdue =>
    obtain ⟨hready, h⟩ | ⟨-, h⟩ := h.ite
    · obtain ⟨rfl, rfl⟩ := h.pure
      refine ⟨rfl, fun m hm => ?_⟩
      cases hm
      exact ⟨hdue, hready⟩
    · obtain ⟨rfl, rfl⟩ := h.pure
      exact ⟨rfl, nofun⟩

theorem releaseSentences_returns {org : Uuid} {n : Nat} {u : Unit}
    (h : Returns (releaseSentences org n) db u db') :
    ∃ usages, db' = { db with quotaUsages := usages } ∧
      ((n = 0 ∧ usages = db.quotaUsages) ∨ ∃ usage, db.quotaUsages.lookup org = some usage ∧
        usages = db.quotaUsages.insert org
          { usage with corpusSentences := usage.corpusSentences - n }) := by
  unfold releaseSentences at h
  obtain ⟨hzero, h⟩ | ⟨-, h⟩ := h.ite
  · obtain ⟨-, rfl⟩ := h.pure
    exact ⟨_, rfl, .inl ⟨hzero, rfl⟩⟩
  · obtain ⟨usage, husage, rfl⟩ := releaseCorpusSentences_returns h
    exact ⟨_, rfl, .inr ⟨usage, husage, rfl⟩⟩

/-- What the erasure of a project leaves: the rows of the others, and its
sentences taken off the usage. -/
structure Erased (org projectId : Uuid) (cutoff : Instant) (db db' : Db) : Prop where
  due : ∃ project requestedAt retentionUntil n, db.projects.lookup projectId = some project ∧
    project.organizationId = org ∧
    project.lifecycle = .deletionPending requestedAt retentionUntil n ∧ retentionUntil ≤ cutoff ∧
    n = corpusSentenceCount db org projectId
  ready : databasePreconditions db org projectId = true
  usages : (corpusSentenceCount db org projectId = 0 ∧ db'.quotaUsages = db.quotaUsages) ∨
    ∃ usage, db.quotaUsages.lookup org = some usage ∧
      db'.quotaUsages = db.quotaUsages.insert org { usage with
        corpusSentences := usage.corpusSentences - corpusSentenceCount db org projectId }
  rows : ∃ usages heads events, db' = { eraseRows db org projectId with
    quotaUsages := usages, auditHeads := heads, auditEvents := events
    projects := db.projects.erase projectId }

theorem purge_changes (hpermit : permit.erases = true) {org projectId : Uuid} {cutoff : Instant}
    {b : Bool} (h : Returns (purge org projectId cutoff) db b db') :
    Changes permit db db' ∧ ((b = false ∧ db = db') ∨ (b = true ∧ Erased org projectId cutoff db db')) := by
  unfold purge at h
  obtain ⟨answer, s, hready, h⟩ := h.bind
  obtain ⟨rfl, hanswer⟩ := ready_returns hready
  split at h
  · obtain ⟨rfl, rfl⟩ := h.pure
    exact ⟨.refl, .inl ⟨rfl, rfl⟩⟩
  · next n =>
    obtain ⟨hdue, hpre⟩ := hanswer n rfl
    obtain ⟨project, requestedAt, retentionUntil, hproject, horg, hlifecycle, hlate⟩ :=
      dueProject_some hdue
    obtain ⟨a, s, hget, h⟩ := h.bind
    obtain ⟨rfl, rfl⟩ := hget.get
    obtain ⟨u, s, hreq, h⟩ := h.bind
    obtain ⟨rfl, rfl⟩ := hreq.require
    obtain ⟨u, s, hset, h⟩ := h.bind
    obtain rfl := hset.set
    obtain ⟨u, s, hrelease, h⟩ := h.bind
    obtain ⟨usages, rfl, husages⟩ := releaseSentences_returns hrelease
    obtain ⟨u, s, haudit, h⟩ := h.bind
    obtain ⟨u, s', hset, h⟩ := h.bind
    obtain rfl := hset.modify
    obtain ⟨rfl, rfl⟩ := h.pure
    obtain ⟨head, hhead, hfree, rfl⟩ := append_returns haudit
    have herase : Change permit db { eraseRows db org projectId with
        quotaUsages := usages, projects := db.projects.erase projectId } :=
      .erase hpermit hproject horg (by rw [hlifecycle]; nofun) hpre husages
    refine ⟨.tail (.single herase) (.evidence _ hhead hfree (by rfl) nofun), .inr ⟨rfl, ?_⟩⟩
    exact ⟨⟨project, requestedAt, retentionUntil, _, hproject, horg, hlifecycle, hlate, rfl⟩, hpre,
      husages, ⟨_, _, _, rfl⟩⟩

end ProjectDeletion

/-! ## Policies and platform rows -/

theorem ensurePlatformRows_changes {org : Uuid} {u : Unit}
    (h : Returns (ensurePlatformRows org) db u db') : Changes permit db db' := by
  unfold ensurePlatformRows at h
  obtain ⟨a, s, hget, h⟩ := h.bind
  obtain ⟨rfl, rfl⟩ := hget.get
  obtain rfl := h.set
  exact .single (.provision org)

theorem replacePolicy_changes {current : Option QuotaPolicyValues} {org : Uuid}
    {policy : QuotaPolicyValues} {requestId : Option String} {now : Instant} {u : Unit}
    (hreplaces : permit.replaces = true) (hpermit : permit.policy org = none)
    (h : Returns (replacePolicy current org policy requestId now) db u db') :
    Changes permit db db' := by
  unfold replacePolicy at h
  obtain ⟨⟨loaded, usage⟩, s, hlocked, h⟩ := h.bind
  obtain ⟨-, husage, rfl⟩ := locked_returns hlocked
  obtain ⟨u, s, hreq, h⟩ := h.bind
  obtain ⟨⟨hcpu, hexpensive, hbytes, hcount, hsentences⟩, rfl⟩ := hreq.require
  obtain ⟨a, s, hget, h⟩ := h.bind
  obtain ⟨rfl, rfl⟩ := hget.get
  obtain ⟨u, s, hreq, h⟩ := h.bind
  obtain ⟨hruns, rfl⟩ := hreq.require
  obtain ⟨committed, s, hfound, h⟩ := h.bind
  obtain ⟨hcommitted, rfl⟩ := hfound.found
  obtain ⟨u, s, hset, h⟩ := h.bind
  obtain rfl := hset.set
  exact .tail (.single (.policy hreplaces hpermit hcommitted husage
    ⟨hcpu, hexpensive, hbytes, hcount, hsentences⟩ hruns)) (append_change permit (by rfl) (by decide) h)

/-! ## Outbox -/

namespace TransactionalOutbox

theorem claimOne_changes {workerId : String} {now expired : Instant} {id : Uuid}
    {answer : Option DispatchMessage} (h : Returns (claimOne workerId now expired id) db answer db') :
    Changes permit db db' := by
  unfold claimOne at h
  obtain ⟨a, s, hget, h⟩ := h.bind
  obtain ⟨rfl, rfl⟩ := hget.get
  split at h
  · obtain ⟨-, rfl⟩ := h.pure
    exact .refl
  · next message hmessage =>
    rw [Option.filter_eq_some_iff] at hmessage
    obtain ⟨u, s, hset, h⟩ := h.bind
    obtain rfl := hset.set
    obtain ⟨-, rfl⟩ := h.pure
    exact .single (.claim workerId now expired hmessage.1 hmessage.2)

theorem claimAll_changes {workerId : String} {now expired : Instant} {ids : List Uuid}
    {answer : List DispatchMessage}
    (h : Returns (claimAll workerId now expired ids) db answer db') : Changes permit db db' := by
  induction ids generalizing db answer with
  | nil =>
    obtain ⟨-, rfl⟩ := h.pure
    exact .refl
  | cons id ids ih =>
    obtain ⟨claimed, s, hone, h⟩ := h.bind
    obtain ⟨rest, s', hrest, h⟩ := h.bind
    obtain ⟨-, rfl⟩ := h.pure
    exact (claimOne_changes hone).trans (ih hrest)

theorem ownClaim_returns {id : Uuid} {workerId operation : String} {message : OutboxMessage}
    (h : Returns (ownClaim id workerId operation) db message db') :
    db.outboxMessages.lookup id = some message ∧ message.state = .claimed ∧
      message.claimedBy = some workerId ∧ db = db' := by
  unfold ownClaim at h
  obtain ⟨a, s, hget, h⟩ := h.bind
  obtain ⟨rfl, rfl⟩ := hget.get
  obtain ⟨hrow, rfl⟩ := h.found
  rw [Option.filter_eq_some_iff] at hrow
  simp only [Bool.and_eq_true, beq_iff_eq] at hrow
  exact ⟨hrow.1, hrow.2.1, hrow.2.2, rfl⟩

theorem markPublished_changes {id : Uuid} {workerId : String} {now : Instant} {u : Unit}
    (h : Returns (markPublished id workerId now) db u db') : Changes permit db db' := by
  unfold markPublished at h
  obtain ⟨message, s, hown, h⟩ := h.bind
  obtain ⟨hrow, hclaimed, -, rfl⟩ := ownClaim_returns hown
  obtain rfl := h.modify
  exact .single (.acknowledge now hrow hclaimed)

theorem releaseFailed_changes {id : Uuid} {workerId : String} {now : Instant} {u : Unit}
    (h : Returns (releaseFailed id workerId now) db u db') : Changes permit db db' := by
  unfold releaseFailed at h
  obtain ⟨message, s, hown, h⟩ := h.bind
  obtain ⟨hrow, hclaimed, -, rfl⟩ := ownClaim_returns hown
  obtain rfl := h.modify
  exact .single (.release _ hrow hclaimed)

end TransactionalOutbox

end CorpusKit
