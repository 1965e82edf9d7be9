import CorpusKit.Properties.Progress

/-! # Adoption of a result

An adoption publishes one artifact and ends the run in one transaction, or does
nothing. The row of a run that succeeded is never written again, and its artifact
and its publication stay as long as the project, so a call repeated after an
unknown outcome finds what the first one wrote. -/

namespace CorpusKit

open Transaction Program Interleaving DurableRunStore

/-- The same result again: the repeated call may ask for another retention. -/
def AdoptedArtifact.Again (first second : AdoptedArtifact) : Prop :=
  second = { first with retentionUntil := second.retentionUntil }

theorem AdoptedArtifact.Again.summary {first second : AdoptedArtifact} (h : first.Again second)
    (id : Uuid) : artifactResultSummary id second = artifactResultSummary id first := by
  rw [h]
  rfl

/-- The key of an adoption is that of its run and its bytes. -/
theorem commitAdoptedResult_key {db db' : Db} {policy : Option QuotaPolicyValues}
    {reference : RunWorkflowReference} {adopted : AdoptedArtifact} {now : Instant}
    {answer : ArtifactCommit}
    (h : Returns (commitAdoptedResult policy reference adopted now) db answer db') :
    ∃ run, db.run? reference.organizationId reference.runId = some run ∧
      run.specSha256 = reference.specSha256 ∧ run.spec.sha256 = reference.specSha256 ∧
      adopted.storageKey = artifactStorageKey run.organizationId run.projectId
        (some reference.runId) .runResult adopted.sha256 := by
  unfold commitAdoptedResult at h
  obtain ⟨run, s, hread, h⟩ := h.bind
  obtain ⟨hrow, hspec, hsha, rfl⟩ := readRun_returns hread
  obtain ⟨u, s, hreq, h⟩ := h.bind
  exact ⟨run, hrow, hspec, hsha, hreq.require.1⟩

/-! ## What an adoption leaves behind -/

/-- The row of the run, the row of the artifact and the publication, as the adoption
of `adopted` wrote them. -/
structure Db.Adopted (db : Db) (reference : RunWorkflowReference) (adopted : AdoptedArtifact)
    (id : Uuid) (run : Run) : Prop where
  row : db.run? reference.organizationId reference.runId = some run
  spec : run.specSha256 = reference.specSha256 ∧ run.spec.sha256 = reference.specSha256
  succeeded : run.state = .succeeded
  unasked : run.cancellationRequestedAt = none
  summary : run.resultSummary = some (artifactResultSummary id adopted)
  key : adopted.storageKey = artifactStorageKey run.organizationId run.projectId
    (some reference.runId) .runResult adopted.sha256
  artifact : ∀ a, db.artifacts.lookup id = some a →
    a.SameAs (adoptedRow reference.runId run adopted)
  known : id < db.nextId
  published : Published db run adopted

theorem adopted_of_commit {db db' : Db} (hi : db.Inv) {policy : Option QuotaPolicyValues}
    {reference : RunWorkflowReference} {adopted : AdoptedArtifact} {now : Instant} {id : Uuid}
    (hi' : db'.Inv)
    (h : Returns (commitAdoptedResult policy reference adopted now) db ⟨.succeeded, some id, true⟩
      db') : ∃ run, db'.Adopted reference adopted id run := by
  obtain ⟨run, hrow, hspec, hsha, hkey⟩ := commitAdoptedResult_key h
  obtain ⟨-, run', hrow', hadoption⟩ := commitAdoptedResult_changes hi h
  obtain rfl := Option.some.inj (hrow.symm.trans hrow')
  cases hadoption with
  | done hstate hruns hartifacts hpublished =>
    obtain ⟨hrun, horg⟩ := Db.run?_some hrow
    have hasked : run.cancellationRequestedAt = none := by
      by_contra hne
      rcases hi.log.asked hrun hne with hc | hc <;> rw [hstate] at hc <;> cases hc
    refine ⟨run.moved .succeeded (some (artifactResultSummary db.nextId adopted)) none none, ?_,
      ⟨hspec, hsha⟩, rfl, rfl, rfl, hkey, fun a ha => ?_, ?_, hpublished.of_same rfl rfl rfl⟩
    · unfold Db.run?
      rw [hruns, AList.lookup_insert]
      simp [Run.moved, horg]
    · rw [hartifacts, AList.lookup_insert] at ha
      cases ha
      exact .refl _
    · exact hi'.stored.fresh _ _ (by rw [hartifacts, AList.lookup_insert])

/-- As long as the run is there, so is what its adoption wrote. -/
theorem Db.Adopted.later {db db' : Db} {reference : RunWorkflowReference}
    {adopted : AdoptedArtifact} {id : Uuid} {run run' : Run}
    (h : db.Adopted reference adopted id run) (hi : db.Inv) (hlife : db.Lifecycle) (hi' : db'.Inv)
    (hlife' : db'.Lifecycle) (hl : db.Later db')
    (hrow' : db'.run? reference.organizationId reference.runId = some run') :
    db'.Adopted reference adopted id run' := by
  obtain ⟨hrun, -⟩ := Db.run?_some h.row
  obtain ⟨hrun', -⟩ := Db.run?_some hrow'
  obtain ⟨old, hold, hlater⟩ := hl.runs _ _ hrun' (hi.log.fresh _ _ hrun)
  rw [hrun] at hold
  cases hold
  obtain rfl := hlater.succeeded h.succeeded
  refine { h with row := hrow', artifact := fun a ha => ?_, known := lt_of_lt_of_le h.known hl.next
                  published := fun publication hp => ?_ }
  · obtain ⟨old, hold, hlater⟩ := hl.artifacts _ _ ha h.known
    exact hlater.same.trans (h.artifact old hold)
  · obtain ⟨existing, hexisting, hsame⟩ := h.published publication hp
    refine ⟨existing, ?_, hsame⟩
    unfold publicationOf at hexisting ⊢
    obtain ⟨⟨pid, row⟩, hfind, rfl⟩ := Option.map_eq_some_iff.mp hexisting
    obtain ⟨hlookup, hhit⟩ := Table.find_some hfind
    have hplace := hhit
    simp only [Bool.and_eq_true, beq_iff_eq] at hplace
    obtain ⟨⟨horg, hproject⟩, hkey⟩ := hplace
    obtain ⟨project, hexists, -⟩ := hlife.runs hrun
    have hknown : row.projectId < db.nextId := by
      rw [hproject]
      exact hi.projects _ _ hexists
    -- the project is still there, since the run is
    rcases hl.published hlookup (hi.publications _ _ hlookup) hknown with hstays | hgone
    · obtain ⟨e, he⟩ := Table.find_isSome (p := fun (_ : Uuid) (record : DatgIndexPublication) =>
        record.organizationId == run'.organizationId && record.projectId == run'.projectId &&
          record.cacheKeySha256 == publication.cacheKeySha256) hstays hhit
      obtain ⟨hother, hhit'⟩ := Table.find_some he
      simp only [Bool.and_eq_true, beq_iff_eq] at hhit'
      have heq : e.1 = pid := hi'.published hother hstays (by
        simp [DatgIndexPublication.sameIndex, hhit', horg, hproject, hkey])
      rw [heq, hstays] at hother
      rw [he]
      exact congrArg some (Option.some.inj hother).symm
    · obtain ⟨project', hexists', -⟩ := hlife'.runs hrun'
      rw [hproject, hexists'] at hgone
      cases hgone

/-- A repeated call finds the artifact and changes nothing. -/
theorem Db.Adopted.again {db : Db} {reference : RunWorkflowReference}
    {adopted second : AdoptedArtifact} {id : Uuid} {run : Run} {a : Artifact}
    (h : db.Adopted reference adopted id run) (hi : db.Inv) (hstorage : db.Storage)
    (ha : db.artifacts.lookup id = some a) (hactive : a.state = .active)
    (hagain : adopted.Again second) (policy : Option QuotaPolicyValues) (now : Instant) :
    Returns (commitAdoptedResult policy reference second now) db ⟨.succeeded, some id, false⟩ db := by
  have hsame := h.artifact a ha
  obtain ⟨hrun, horg⟩ := Db.run?_some h.row
  have hread : Returns (readRun reference) db run db := by
    unfold readRun runRow verifySpec
    refine Returns.seq (Returns.seq (t := db) (a := db) rfl (.present h.row)) ?_
    exact Returns.seq (.checked h.spec) rfl
  unfold commitAdoptedResult
  refine hread.seq (Returns.seq (.checked ?_) ?_)
  · rw [hagain]
    exact h.key
  rw [if_neg (by simp [h.succeeded, h.unasked]), if_pos h.succeeded]
  unfold adoptAgain
  -- the row the lookup meets has the key of the adopted artifact, so it is that artifact
  obtain ⟨e, he⟩ := Table.find_isSome (t := db.artifacts) (p := fun (_ : Uuid) (row : Artifact) =>
    row.organizationId == run.organizationId && row.projectId == run.projectId &&
      row.runId == some reference.runId && row.kind == .runResult && row.sha256 == second.sha256) ha
    (by rw [hagain]; simp [hsame.organizationId, hsame.projectId, hsame.runId, hsame.kind,
          hsame.sha256, adoptedRow])
  have heq : e = (id, a) := by
    obtain ⟨hother, hhit⟩ := Table.find_some he
    simp only [Bool.and_eq_true, beq_iff_eq] at hhit
    obtain ⟨⟨⟨⟨h1, h2⟩, h3⟩, h4⟩, h5⟩ := hhit
    have hkey : e.2.storageKey = a.storageKey := by
      rw [hstorage.keyed hother, hstorage.keyed ha, h1, h2, h3, h4, h5, hsame.organizationId,
        hsame.projectId, hsame.runId, hsame.kind, hsame.sha256, hagain]
      rfl
    have hid : e.1 = id := hi.stored.unique hother ha (.inr (by simpa using hkey))
    rw [hid, ha] at hother
    exact Prod.ext hid (Option.some.inj hother).symm
  subst heq
  refine Returns.seq (t := db) (a := db) rfl (Returns.seq (.present he) (Returns.seq (.checked ?_) ?_))
  · refine ⟨hsame.createdBy, hsame.scopeKey, ?_, ?_, ?_, ?_, hactive, ?_⟩
    · rw [hagain]; exact hsame.sizeBytes
    · rw [hagain]; exact hsame.storageKey
    · rw [hagain]; exact hsame.mediaType
    · rw [hagain]; exact hsame.filename
    · rw [h.summary, hagain.summary]
  · refine Returns.seq (t := db) (a := ()) ?_ (by rw [h.succeeded]; rfl)
    unfold verifyExistingDatgPublication
    have hpublished := h.published
    rw [hagain]
    dsimp only
    cases hindex : adopted.datgIndex with
    | none => rfl
    | some publication =>
      exact Returns.seq (t := db) (a := db) rfl (.checked (hpublished publication hindex))

section Law

variable {dep : Deployment} {memberships : List Membership} {cfg : ServiceConfig dep}

/-- The call refuses: whatever it was about to write is rolled back. -/
def Db.Refuses (db : Db) (reference : RunWorkflowReference) (adopted : AdoptedArtifact) : Prop :=
  ∀ policy now, ∃ e, commit (commitAdoptedResult policy reference adopted now) db = (.error e, db)

theorem Db.refuses_key {db : Db} {reference : RunWorkflowReference} {adopted : AdoptedArtifact}
    {run : Run} (hrow : db.run? reference.organizationId reference.runId = some run)
    (hkey : adopted.storageKey ≠ artifactStorageKey run.organizationId run.projectId
      (some reference.runId) .runResult adopted.sha256) : db.Refuses reference adopted := by
  intro policy now
  refine commit_refused fun answer db' hret => ?_
  obtain ⟨run', hrow', -, -, hright⟩ := commitAdoptedResult_key hret
  rw [hrow] at hrow'
  cases hrow'
  exact hkey hright

theorem Db.refuses_state {db : Db} (hi : db.Inv) {reference : RunWorkflowReference}
    {run : Run} (hrow : db.run? reference.organizationId reference.runId = some run)
    (hstate : run.state ∉ [.running, .succeeded, .cancelling, .cancelled])
    (adopted : AdoptedArtifact) : db.Refuses reference adopted := by
  intro policy now
  refine commit_refused fun answer db' hret => ?_
  obtain ⟨-, run', hrow', hadoption⟩ := commitAdoptedResult_changes hi hret
  rw [hrow] at hrow'
  cases hrow'
  cases hadoption with
  | cancelled h => rcases h with h | h <;> simp [h] at hstate
  | again h hdb => simp [h] at hstate
  | done h hruns hartifacts hpublished => simp [h] at hstate

/-- The summary of a run that succeeded names the bytes of its artifact. -/
theorem Db.refuses_bytes {db : Db} {reference : RunWorkflowReference} {run : Run}
    (hrow : db.run? reference.organizationId reference.runId = some run)
    (hdone : run.state = .succeeded) (hunasked : run.cancellationRequestedAt = none) {id : Uuid}
    {mediaType schemaId : String} {sha256 : Sha256} {size : Nat}
    (hsummary : run.resultSummary = some (.artifact id mediaType schemaId sha256 size))
    {adopted : AdoptedArtifact} (hbytes : adopted.sha256 ≠ sha256) :
    db.Refuses reference adopted := by
  intro policy now
  refine commit_refused fun answer db' hret => ?_
  unfold commitAdoptedResult at hret
  obtain ⟨run', s, hread, hret⟩ := hret.bind
  obtain ⟨hrow', -, -, rfl⟩ := readRun_returns hread
  rw [hrow] at hrow'
  cases hrow'
  obtain ⟨u, s, hreq, hret⟩ := hret.bind
  obtain ⟨-, rfl⟩ := hreq.require
  rw [if_neg (by simp [hdone, hunasked]), if_pos hdone] at hret
  unfold adoptAgain at hret
  obtain ⟨d, s, hget, hret⟩ := hret.bind
  obtain ⟨rfl, rfl⟩ := hget.get
  obtain ⟨existing, s, hfound, hret⟩ := hret.bind
  obtain ⟨-, rfl⟩ := hfound.found
  obtain ⟨u, s, hreq, hret⟩ := hret.bind
  obtain ⟨⟨-, -, -, -, -, -, -, hnamed⟩, -⟩ := hreq.require
  rw [hsummary, artifactResultSummary] at hnamed
  injection hnamed with hnamed
  injection hnamed with _ _ _ hsha _
  exact hbytes hsha.symm

/-- The artifact row is one that an adoption of the run committed. -/
def Db.adoptedBy (db : Db) (runId id : Uuid) (a : Artifact) : Prop :=
  AdoptedBy db.artifacts db.auditEvents runId id a

/-- In every reachable state the adoptions of a run are as one: there is at most one
adopted result, there is one exactly when an adoption ended the run, and the run
names it. Whoever adopted it and asks again gets the same artifact and changes
nothing, and a call that cannot be that adoption changes nothing either. -/
theorem adoption_atomic_idempotent (h : Reachable free (World.initial memberships) cfg)
    (reference : RunWorkflowReference) {run : Run}
    (hrow : cfg.world.db.run? reference.organizationId reference.runId = some run) :
    (∀ id a id' a', cfg.world.db.adoptedBy reference.runId id a →
      cfg.world.db.adoptedBy reference.runId id' a' → id = id') ∧
    ((∃ id a, cfg.world.db.adoptedBy reference.runId id a) ↔ run.state = .succeeded ∧
      Audited cfg.world.db.auditEvents (AuditEvent.EndsByAdoption reference.runId)) ∧
    (∀ id a, cfg.world.db.adoptedBy reference.runId id a → ∃ mediaType schemaId,
      run.resultSummary = some (.artifact id mediaType schemaId a.sha256 a.sizeBytes)) ∧
    -- whatever call created the artifact of the run
    (∀ j ∈ cfg.jobs, ∀ before after policy adopted now id,
      (⟨Op.write (.adopt policy reference adopted now), before, after⟩ :
        Event (system dep (services dep))) ∈ j.history →
      commit (commitAdoptedResult policy reference adopted now) before.db =
        (.ok ⟨.succeeded, some id, true⟩, after.db) →
      run.resultSummary = some (artifactResultSummary id adopted) ∧
      ∀ a second, cfg.world.db.artifacts.lookup id = some a → a.state = .active →
        adopted.Again second → ∀ policy' now',
          commit (commitAdoptedResult policy' reference second now') cfg.world.db =
            (.ok ⟨.succeeded, some id, false⟩, cfg.world.db)) ∧
    -- a wrong key, an illegal state, other bytes, and any other exception
    (∀ adopted : AdoptedArtifact, adopted.storageKey ≠ artifactStorageKey run.organizationId
      run.projectId (some reference.runId) .runResult adopted.sha256 →
        cfg.world.db.Refuses reference adopted) ∧
    (run.state ∉ [.running, .succeeded, .cancelling, .cancelled] →
      ∀ adopted, cfg.world.db.Refuses reference adopted) ∧
    (∀ id a adopted, cfg.world.db.adoptedBy reference.runId id a → adopted.sha256 ≠ a.sha256 →
      cfg.world.db.Refuses reference adopted) ∧
    (∀ policy adopted now e db', commit (commitAdoptedResult policy reference adopted now)
      cfg.world.db = (.error e, db') → db' = cfg.world.db) := by
  have hi := reachable_inv h
  obtain ⟨hrun, -⟩ := Db.run?_some hrow
  refine ⟨?_, ?_, ?_, ?_, ?_, ?_, ?_, ?_⟩
  · intro id a id' a' ha ha'
    obtain ⟨-, _, _, hnamed⟩ := hi.db.adoptions.named hrun ha
    obtain ⟨-, _, _, hnamed'⟩ := hi.db.adoptions.named hrun ha'
    rw [hnamed] at hnamed'
    injection hnamed' with hsame
    injection hsame
  · refine Iff.trans (hi.db.adoptions.ended hrun).symm ?_
    refine ⟨fun hended => ⟨?_, hended⟩, fun hended => hended.2⟩
    obtain ⟨id, a, ha⟩ := (hi.db.adoptions.ended hrun).mp hended
    exact (hi.db.adoptions.named hrun ha).1
  · exact fun id a ha => (hi.db.adoptions.named hrun ha).2
  · intro j hj before after policy adopted now id hevent hcommit
    obtain ⟨hbefore, howes, -⟩ := events_owed h j hj _ hevent
    have hlater := (past_later h j hj _ hevent).db
    have hret := commit_ok hcommit
    have hpaid : (Action.adopt policy reference adopted now).Owes dep before := howes
    have hkept := (Action.keeps hbefore hpaid hret).1
    obtain ⟨run', hadopted⟩ := adopted_of_commit hbefore.db hkept.db hret
    have hnow := hadopted.later hkept.db hkept.lifecycle hi.db hi.lifecycle hlater hrow
    refine ⟨hnow.summary, fun a second ha hactive hagain policy' now' => ?_⟩
    exact (hnow.again hi.db hi.storage ha hactive hagain policy' now').commit
  · exact fun adopted hkey => Db.refuses_key hrow hkey
  · exact fun hstate adopted => Db.refuses_state hi.db hrow hstate adopted
  · intro id a adopted ha hbytes
    obtain ⟨hdone, mediaType, schemaId, hsummary⟩ := hi.db.adoptions.named hrun ha
    refine Db.refuses_bytes hrow hdone ?_ hsummary hbytes
    by_contra hne
    rcases hi.db.log.asked hrun hne with hc | hc <;> rw [hdone] at hc <;> cases hc
  · exact fun policy adopted now e db' hcommit => (commit_error hcommit).1

end Law

/-- What the run of `smallSubmission` computed. -/
def smallAdopted : AdoptedArtifact where
  sha256 := 9
  sizeBytes := 20
  storageKey := artifactStorageKey 1 0 (some 1) .runResult 9
  mediaType := "application/json"
  filename := "distribution-result.json"
  schemaId := "result/v1"
  retentionUntil := 100
  datgIndex := none

/-- The run is started by call 3 and its result adopted by call 4, then by call 5. -/
def adoptedSubmission : List (Move Small) :=
  smallSubmission ++ .start (ServiceCall.beginExecution smallReference) :: acts Small 3 8 ++
    .start (ServiceCall.commitAdoptedResult smallReference smallAdopted) :: acts Small 4 3 ++
    .start (ServiceCall.commitAdoptedResult smallReference smallAdopted) :: acts Small 5 3

/-- Two calls have adopted the result: there is artifact 4, the fourth event is the
last, and other bytes are refused. -/
theorem adoption_atomic_idempotent_twice :
    (smallRun adoptedSubmission).map (fun cfg => (cfg.world.db.artifacts.rows.map (·.1),
      (cfg.world.db.run? 1 1).map fun run => (run.state, run.eventSequence, run.resultSummary))) =
        some ([4], some (.succeeded, 4, some (artifactResultSummary 4 smallAdopted))) ∧
    ∀ cfg, smallRun adoptedSubmission = some cfg → ∀ run, cfg.world.db.run? 1 1 = some run →
      ((∃ id a, cfg.world.db.adoptedBy 1 id a) ↔ run.state = .succeeded ∧
        Audited cfg.world.db.auditEvents (AuditEvent.EndsByAdoption 1)) :=
  ⟨by decide +kernel, fun _ h _ hrow =>
    (adoption_atomic_idempotent (smallRun_reachable h) smallReference hrow).2.1⟩

end CorpusKit
