import CorpusKit.Refinement.Runs

/-! # Submissions, retries, replays and cancellation requests are changes -/

namespace CorpusKit

open Transaction QuotaManager

variable {db db' : Db} {permit : Permit}

/-- A run that does not exist yet has no reservation. -/
theorem Db.Inv.noReservation (h : db.Inv) {org runId : Uuid} (hnew : db.nextId ≤ runId) :
    QuotaManager.ownReservation db org runId = none := by
  cases hown : QuotaManager.ownReservation db org runId with
  | none => rfl
  | some e =>
    obtain ⟨hr, -, hrun⟩ := ownReservation_some hown
    obtain ⟨owner, howner, -⟩ := h.reserved.owned hr
    exact absurd (h.log.fresh _ _ howner) (Nat.not_lt.mpr (hrun ▸ hnew))

namespace JobControlPlane

theorem dispatchState_returns {runId : Uuid} {state : OutboxState}
    (h : Returns (dispatchState runId) db state db') : db = db' := by
  unfold dispatchState at h
  obtain ⟨a, s, hget, h⟩ := h.bind
  obtain ⟨rfl, rfl⟩ := hget.get
  obtain ⟨message, s, hfound, h⟩ := h.bind
  obtain ⟨-, rfl⟩ := hfound.found
  exact h.pure.2

theorem activeRun_returns {org runId : Uuid} {run : Run}
    (h : Returns (activeRun org runId) db run db') :
    db.run? org runId = some run ∧ db.activeProject org run.projectId = true ∧ db = db' := by
  unfold activeRun at h
  obtain ⟨a, s, hget, h⟩ := h.bind
  obtain ⟨rfl, rfl⟩ := hget.get
  obtain ⟨row, s, hfound, h⟩ := h.bind
  obtain ⟨hrow, rfl⟩ := hfound.found
  obtain ⟨u, s, hreq, h⟩ := h.bind
  obtain ⟨hactive, rfl⟩ := hreq.require
  obtain ⟨rfl, rfl⟩ := h.pure
  exact ⟨hrow, hactive, rfl⟩

/-! ## Cancellation requests -/

/-- A request that hits moves the run to cancelling, with its intent and its
evidence. -/
theorem commitCancellation_changes (hi : db.Inv) {who : JobActor} {userId runId : Uuid} {read : Run}
    {now : Instant} {answer : Option (Run × OutboxState)}
    (h : Returns (commitCancellation who userId runId read now) db answer db') :
    Changes permit db db' ∧ ((answer = none ∧ db = db') ∨ (answer.isSome = true ∧ ∃ run,
      db.runs.lookup runId = some run ∧ run.organizationId = who.organizationId ∧
        Moves run.state .cancelling ∧
        db'.runs = db.runs.insert runId
          (run.moved .cancelling run.resultSummary run.failureCode (some now)))) := by
  unfold commitCancellation at h
  obtain ⟨a, s, hget, h⟩ := h.bind
  obtain ⟨rfl, rfl⟩ := hget.get
  obtain ⟨u, s, htrans, h⟩ := h.bind
  obtain ⟨hmove, rfl⟩ := ensureTransition_returns htrans
  dsimp only at h
  split at h
  · obtain ⟨rfl, rfl⟩ := h.pure
    exact ⟨.refl, .inl ⟨rfl, rfl⟩⟩
  · next run hhit =>
    rw [Option.filter_eq_some_iff] at hhit
    obtain ⟨hrow, hcas⟩ := hhit
    simp only [Bool.and_eq_true, beq_iff_eq] at hcas
    obtain ⟨hrun, horg⟩ := Db.run?_some hrow
    rw [← hcas.1] at hmove
    obtain ⟨u, s, hset, h⟩ := h.bind
    obtain rfl := setRun_returns hset
    obtain ⟨u, s, hadd, h⟩ := h.bind
    obtain ⟨hfree, rfl⟩ := addRunEvent_returns hadd
    obtain ⟨u, s, hintent, h⟩ := h.bind
    obtain rfl := addOutboxMessage_returns hintent
    obtain ⟨u, s, haudit, h⟩ := h.bind
    obtain ⟨snapshot, s', hsnapshot, h⟩ := h.bind
    obtain ⟨-, -, rfl⟩ := activeRun_returns hsnapshot
    obtain ⟨outboxState, s', hstate, h⟩ := h.bind
    obtain rfl := dispatchState_returns hstate
    obtain ⟨rfl, rfl⟩ := h.pure
    have hevidence := append_cancellation permit (AList.lookup_insert _)
      (Nat.lt_succ_of_le (hi.log.consistent hrun).last_pos) (AList.lookup_insert _) rfl haudit
    obtain ⟨head, -, -, rfl⟩ := append_returns haudit
    refine ⟨.tail (.tail (.single (.move hrun hmove rfl (.inr ⟨by simp, .inl rfl⟩) hfree horg.symm rfl
      (RunEvent.titled_of rfl (by simp) (by simp)))) (.intent _ (AList.lookup_insert _) rfl rfl rfl (by simp))) hevidence,
      .inr ⟨rfl, run, hrun, horg, hmove, rfl⟩⟩

/-! ## Submission -/

theorem insertRun_returns {run : Run} {notFound : Error} {runId : Uuid}
    (h : Returns (insertRun run notFound) db runId db') :
    runId = db.nextId ∧ db.activeProject run.organizationId run.projectId = true ∧
      db' = { db with nextId := db.nextId + 1, runs := db.runs.insert db.nextId run } := by
  unfold insertRun at h
  obtain ⟨id, s, hid, h⟩ := h.bind
  obtain ⟨rfl, rfl⟩ := uuid4_returns hid
  obtain ⟨a, s, hget, h⟩ := h.bind
  obtain ⟨rfl, rfl⟩ := hget.get
  obtain ⟨u, s, hreq, h⟩ := h.bind
  obtain ⟨-, rfl⟩ := hreq.require
  obtain ⟨u, s, hset, h⟩ := h.bind
  obtain rfl := setRun_returns hset
  obtain ⟨u, s, hreq, h⟩ := h.bind
  obtain ⟨hactive, rfl⟩ := hreq.require
  obtain ⟨rfl, rfl⟩ := h.pure
  exact ⟨rfl, hactive, rfl⟩

/-- The run a submission asks for is the run found under its key. -/
def SameSubmission (run : Run) (s : NewSubmission) : Prop :=
  run.kind = s.kind ∧ run.projectId = s.projectId ∧ run.corpusVersionId = s.corpusVersionId ∧
    run.parentRunId = s.parentRunId ∧ run.specSha256 = s.specSha256

theorem existingSubmission_returns {s : NewSubmission} {answer : Option SubmissionResult}
    (h : Returns (existingSubmission s) db answer db') :
    db = db' ∧ ((answer = none ∧ db.idempotentRun s.organizationId s.idempotencyKey = none) ∨
      ∃ runId run outboxState, answer = some ⟨runId, run, outboxState, false⟩ ∧
        db.idempotentRun s.organizationId s.idempotencyKey = some (runId, run) ∧
        SameSubmission run s) := by
  unfold existingSubmission at h
  obtain ⟨a, t, hget, h⟩ := h.bind
  obtain ⟨rfl, rfl⟩ := hget.get
  split at h
  · next hnone =>
    obtain ⟨rfl, rfl⟩ := h.pure
    exact ⟨rfl, .inl ⟨rfl, hnone⟩⟩
  · next runId run hsome =>
    obtain ⟨u, t, hcheck, h⟩ := h.bind
    obtain ⟨hsame, rfl⟩ := hcheck.require
    obtain ⟨outboxState, t, hstate, h⟩ := h.bind
    obtain rfl := dispatchState_returns hstate
    obtain ⟨rfl, rfl⟩ := h.pure
    exact ⟨rfl, .inr ⟨runId, run, outboxState, rfl, hsome, hsame⟩⟩

/-- The three kinds of submission evidence. -/
theorem submissionAudit_action (s : NewSubmission) :
    submissionActions.contains (submissionAudit s).1 = true := by
  unfold submissionAudit
  split <;> rfl

theorem initialEvent_titled (s : NewSubmission) :
    (RunEvent.mk s.organizationId s.initialEventType s.initialEventPayload).Titled .queued := by
  unfold NewSubmission.initialEventType
  split <;> exact RunEvent.titled_of rfl (by simp) (by simp)

theorem submitNew_changes (hi : db.Inv) {policy : Option QuotaPolicyValues} {s : NewSubmission}
    {now : Instant} {answer : SubmissionResult}
    (hkey : db.idempotentRun s.organizationId s.idempotencyKey = none)
    (h : Returns (submitNew policy s now) db answer db') :
    Changes (.submitting s.organizationId policy) db db' ∧
      (∃ outboxState, answer = ⟨db.nextId, queuedRun s, outboxState, true⟩) ∧
      db'.runs = db.runs.insert db.nextId (queuedRun s) ∧ db'.runReplays = db.runReplays := by
  unfold submitNew at h
  obtain ⟨runId, t, hrun, h⟩ := h.bind
  obtain ⟨rfl, hactive, rfl⟩ := insertRun_returns hrun
  obtain ⟨b, t, hreserve, h⟩ := h.bind
  obtain ⟨p, usage, expiresAt, hp, husage, hadmits, hslot, rfl⟩ :=
    reserveRun_returns hreserve (hi.noReservation (Nat.le_refl _))
  dsimp only at h
  obtain ⟨u, t, hadd, h⟩ := h.bind
  obtain ⟨hfree, rfl⟩ := addRunEvent_returns hadd
  dsimp only at h
  obtain ⟨u, t, hintent, h⟩ := h.bind
  obtain rfl := addOutboxMessage_returns hintent
  dsimp only at h
  obtain ⟨u, t, haudit, h⟩ := h.bind
  obtain ⟨outboxState, t', hstate, h⟩ := h.bind
  obtain rfl := dispatchState_returns hstate
  obtain ⟨rfl, rfl⟩ := h.pure
  obtain ⟨head, hhead, hnext, rfl⟩ := append_returns haudit
  have hpolicy : (Permit.submitting s.organizationId policy).policy s.organizationId = some p := by
    simpa [Permit.submitting, Permit.reading] using hp
  exact ⟨.single (.submit rfl hactive hkey rfl rfl rfl rfl hpolicy husage hslot hadmits rfl hhead hnext
    ⟨rfl, submissionAudit_action s⟩ (initialEvent_titled s)), ⟨outboxState, rfl⟩, rfl, rfl⟩

/-- What a committed submission found and did. -/
inductive Submission (s : NewSubmission) (db db' : Db) (answer : SubmissionResult) : Prop
  | existing (hdb : db = db') (hcreated : answer.created = false)
      (hkey : db.idempotentRun s.organizationId s.idempotencyKey = some (answer.runId, answer.run))
      (hsame : SameSubmission answer.run s)
  | created (hcreated : answer.created = true)
      (hkey : db.idempotentRun s.organizationId s.idempotencyKey = none)
      (hid : answer.runId = db.nextId) (hrun : answer.run = queuedRun s)
      (hruns : db'.runs = db.runs.insert db.nextId (queuedRun s))

theorem insertSubmission_changes (hi : db.Inv) {policy : Option QuotaPolicyValues}
    {s : NewSubmission} {now : Instant} {answer : SubmissionResult}
    (h : Returns (insertSubmission policy s now) db answer db') :
    Changes (.submitting s.organizationId policy) db db' ∧ Submission s db db' answer := by
  unfold insertSubmission at h
  obtain ⟨existing, t, hexisting, h⟩ := h.bind
  obtain ⟨rfl, ⟨rfl, hnone⟩ | ⟨runId, run, outboxState, rfl, hsome, hsame⟩⟩ :=
    existingSubmission_returns hexisting
  · obtain ⟨hchanges, ⟨outboxState, rfl⟩, hruns, -⟩ := submitNew_changes hi hnone h
    exact ⟨hchanges, .created rfl hnone rfl rfl hruns⟩
  · obtain ⟨rfl, rfl⟩ := h.pure
    exact ⟨.refl, .existing rfl rfl hsome hsame⟩

end JobControlPlane

/-! ## Replays -/

namespace RunManifestService

theorem actor_returns {who : JobActor} {userId : Uuid} (h : Returns (actor who) db userId db') :
    db = db' := by
  unfold actor at h
  obtain ⟨a, t, hget, h⟩ := h.bind
  obtain ⟨rfl, rfl⟩ := hget.get
  obtain ⟨row, t, hfound, h⟩ := h.bind
  obtain ⟨-, rfl⟩ := hfound.found
  obtain ⟨u, t, hreq, h⟩ := h.bind
  obtain ⟨-, rfl⟩ := hreq.require
  exact h.pure.2

theorem activeArtifact_returns {db₀ : Db} {org id : Uuid} {kind : ArtifactKind} {a : Artifact}
    (h : Returns (activeArtifact db₀ org id kind) db a db') :
    db₀.artifacts.lookup id = some a ∧ a.organizationId = org ∧ a.kind = kind ∧
      a.state = .active ∧ db = db' := by
  obtain ⟨hrow, rfl⟩ := h.found
  rw [Option.filter_eq_some_iff] at hrow
  simp only [Bool.and_eq_true, beq_iff_eq] at hrow
  exact ⟨hrow.1, hrow.2.1.1, hrow.2.1.2, hrow.2.2, rfl⟩

theorem sourceManifestRows_returns {org projectId sourceRunId : Uuid} {source : ReplaySource}
    (h : Returns (sourceManifestRows org projectId sourceRunId) db source db') :
    db = db' ∧ db.run? org sourceRunId = some source.run ∧ source.run.projectId = projectId ∧
      db.runExecutionFacts.lookup sourceRunId = some source.facts ∧
      source.facts.manifestArtifactId = some source.artifactId := by
  unfold sourceManifestRows at h
  obtain ⟨a, t, hget, h⟩ := h.bind
  obtain ⟨rfl, rfl⟩ := hget.get
  obtain ⟨run, t, hrun, h⟩ := h.bind
  obtain ⟨hrow, rfl⟩ := hrun.found
  obtain ⟨facts, t, hfacts, h⟩ := h.bind
  obtain ⟨hrecorded, rfl⟩ := hfacts.found
  obtain ⟨artifactId, t, hid, h⟩ := h.bind
  obtain ⟨hartifactId, rfl⟩ := hid.found
  obtain ⟨sha256, t, hsha, h⟩ := h.bind
  obtain ⟨-, rfl⟩ := hsha.found
  obtain ⟨artifact, t, hartifact, h⟩ := h.bind
  obtain ⟨-, -, -, -, rfl⟩ := activeArtifact_returns hartifact
  obtain ⟨u, t, hreq, h⟩ := h.bind
  obtain ⟨-, rfl⟩ := hreq.require
  obtain ⟨rfl, rfl⟩ := h.pure
  rw [Option.filter_eq_some_iff] at hrow hrecorded
  simp only [Bool.and_eq_true, beq_iff_eq] at hrow
  exact ⟨rfl, hrow.1, hrow.2.1.1, hrecorded.1, hartifactId⟩

/-- The rows of the source of a replay. -/
structure SourceRows (db : Db) (s : NewReplay) (source : ReplaySource) : Prop where
  run : db.run? s.who.organizationId s.sourceRunId = some source.run
  project : source.run.projectId = s.projectId
  facts : db.runExecutionFacts.lookup s.sourceRunId = some source.facts
  artifact : source.facts.manifestArtifactId = some source.artifactId
  sha256 : source.facts.manifestSha256 = some s.expected.sha256

/-- The run found under the key is a replay of this source and manifest. -/
structure SameReplay (run : Run) (replay : RunReplay) (s : NewReplay) (source : ReplaySource) :
    Prop where
  project : run.projectId = source.run.projectId
  version : run.corpusVersionId = source.run.corpusVersionId
  parent : run.parentRunId = some s.sourceRunId
  kind : run.kind = source.run.kind
  spec : run.specSha256 = source.run.specSha256
  manifest : replay.sourceManifestArtifactId = source.artifactId
  expected : replay.expectedManifestSha256 = s.expected.sha256
  classification : replay.classification = s.expected.determinism

theorem sameReplay_returns {runId : Uuid} {run : Run} {s : NewReplay} {source : ReplaySource}
    {replay : RunReplay} (h : Returns (sameReplay runId run s source) db replay db') :
    db = db' ∧ db.runReplays.lookup runId = some replay ∧ SameReplay run replay s source := by
  unfold sameReplay at h
  obtain ⟨a, t, hget, h⟩ := h.bind
  obtain ⟨rfl, rfl⟩ := hget.get
  obtain ⟨row, t, hfound, h⟩ := h.bind
  obtain ⟨hrow, rfl⟩ := hfound.found
  obtain ⟨u, t, hreq, h⟩ := h.bind
  obtain ⟨⟨h1, h2, h3, h4, h5, h6, h7, h8⟩, rfl⟩ := hreq.require
  obtain ⟨rfl, rfl⟩ := h.pure
  rw [Option.filter_eq_some_iff] at hrow
  exact ⟨rfl, hrow.1, ⟨h1, h2, h3, h4, h5, h6, h7, h8⟩⟩

/-- The lineage of a new replay run. -/
def replayLineage (s : NewReplay) (userId : Uuid) (source : ReplaySource) : RunReplay where
  organizationId := s.who.organizationId
  projectId := source.run.projectId
  sourceRunId := s.sourceRunId
  sourceManifestArtifactId := source.artifactId
  expectedManifestSha256 := s.expected.sha256
  observedManifestArtifactId := none
  classification := s.expected.determinism
  createdBy := userId

theorem replayNew_changes (hi : db.Inv) {policy : Option QuotaPolicyValues} {s : NewReplay}
    {userId : Uuid} {source : ReplaySource} {now : Instant} {answer : ReplayCreation}
    (hkey : db.idempotentRun s.who.organizationId s.idempotencyKey = none)
    (h : Returns (replayNew policy s userId source now) db answer db') :
    Changes (.submitting s.who.organizationId policy) db db' ∧
      answer = ⟨db.nextId, replayRun s userId source.run, replayLineage s userId source, true⟩ ∧
      db'.runs = db.runs.insert db.nextId (replayRun s userId source.run) ∧
      db'.runReplays = db.runReplays.insert db.nextId (replayLineage s userId source) := by
  unfold replayNew at h
  obtain ⟨runId, t, hrun, h⟩ := h.bind
  obtain ⟨rfl, hactive, rfl⟩ := JobControlPlane.insertRun_returns hrun
  obtain ⟨b, t, hreserve, h⟩ := h.bind
  obtain ⟨p, usage, expiresAt, hp, husage, hadmits, hslot, rfl⟩ :=
    reserveRun_returns hreserve (hi.noReservation (Nat.le_refl _))
  dsimp only at h
  obtain ⟨u, t, hlineage, h⟩ := h.bind
  obtain rfl := hlineage.modify
  dsimp only at h
  obtain ⟨u, t, hadd, h⟩ := h.bind
  obtain ⟨hfree, rfl⟩ := addRunEvent_returns hadd
  dsimp only at h
  obtain ⟨u, t, hintent, h⟩ := h.bind
  obtain rfl := addOutboxMessage_returns hintent
  dsimp only at h
  obtain ⟨u, t, haudit, h⟩ := h.bind
  obtain ⟨rfl, rfl⟩ := h.pure
  obtain ⟨head, hhead, hnext, rfl⟩ := append_returns haudit
  have hpolicy : (Permit.submitting s.who.organizationId policy).policy s.who.organizationId = some p := by
    simpa [Permit.submitting, Permit.reading] using hp
  refine ⟨.tail (.single (.submit rfl hactive hkey rfl rfl rfl rfl hpolicy husage hslot hadmits rfl hhead
    hnext ⟨rfl, rfl⟩ (RunEvent.titled_of rfl (by simp) (by simp)))) (.lineage _ ?_ hi.replays.none), rfl, rfl, rfl⟩
  exact Nat.lt_add_of_pos_right (by decide)

/-- What a committed replay submission found and did. -/
inductive Replay (s : NewReplay) (source : ReplaySource) (db db' : Db) (answer : ReplayCreation) :
    Prop
  | existing (hdb : db = db') (hcreated : answer.created = false)
      (hkey : db.idempotentRun s.who.organizationId s.idempotencyKey =
        some (answer.runId, answer.run))
      (hlineage : db.runReplays.lookup answer.runId = some answer.replay)
      (hsame : SameReplay answer.run answer.replay s source)
  | created (userId : Uuid) (hcreated : answer.created = true)
      (hkey : db.idempotentRun s.who.organizationId s.idempotencyKey = none)
      (hid : answer.runId = db.nextId) (hrun : answer.run = replayRun s userId source.run)
      (hreplay : answer.replay = replayLineage s userId source)
      (hruns : db'.runs = db.runs.insert db.nextId (replayRun s userId source.run))
      (hreplays : db'.runReplays = db.runReplays.insert db.nextId (replayLineage s userId source))

theorem insertReplay_changes (hi : db.Inv) {admits : RunKind → RunSpec → Bool}
    {policy : Option QuotaPolicyValues} {s : NewReplay} {now : Instant} {answer : ReplayCreation}
    (h : Returns (insertReplay admits policy s now) db answer db') :
    Changes (.submitting s.who.organizationId policy) db db' ∧ ∃ source,
      SourceRows db s source ∧ Replay s source db db' answer := by
  unfold insertReplay at h
  obtain ⟨userId, t, hactor, h⟩ := h.bind
  obtain rfl := actor_returns hactor
  obtain ⟨source, t, hsource, h⟩ := h.bind
  obtain ⟨rfl, hrow, hproject, hfacts, hartifact⟩ := sourceManifestRows_returns hsource
  obtain ⟨u, t, hreq, h⟩ := h.bind
  obtain ⟨⟨-, hsha256⟩, rfl⟩ := hreq.require
  have hrows : SourceRows db s source := ⟨hrow, hproject, hfacts, hartifact, hsha256⟩
  obtain ⟨a, t, hget, h⟩ := h.bind
  obtain ⟨rfl, rfl⟩ := hget.get
  split at h
  · next runId run hsome =>
    obtain ⟨replay, t, hcheck, h⟩ := h.bind
    obtain ⟨rfl, hlineage, hsame⟩ := sameReplay_returns hcheck
    obtain ⟨rfl, rfl⟩ := h.pure
    exact ⟨.refl, source, hrows, .existing rfl rfl hsome hlineage hsame⟩
  · next hnone =>
    obtain ⟨u, t, hreq, h⟩ := h.bind
    obtain ⟨-, rfl⟩ := hreq.require
    obtain ⟨hchanges, rfl, hruns, hreplays⟩ := replayNew_changes hi hnone h
    exact ⟨hchanges, source, hrows, .created userId rfl hnone rfl rfl rfl hruns hreplays⟩

end RunManifestService

end CorpusKit
